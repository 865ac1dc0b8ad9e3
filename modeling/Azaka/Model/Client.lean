import Azaka.Model.Network
import Azaka.Model.Sdk

namespace Azaka

/-- The call as it arrives at its contract. -/
def ContractCall.label {tok : Token} (auth : Address → Bool) (sequence : UInt32) :
    ContractCall → Network.Label tok
  | .trade call => .inl (.inl { auth := auth, sequence := sequence, call := call })
  | .escrow call => .inl (.inr (.call { auth := auth, sequence := sequence, call := call }))
  | .document call => .inr (.inl { auth := auth, sequence := sequence, call := call })

namespace AzakaClient
variable {sdk : StellarSdk}

/-- A method of the client, the key its transaction is signed with, and the
ledger the transaction is in. -/
structure Submission (sdk : StellarSdk) where
  request : Request sdk
  sourceKeypair : sdk.Keypair
  sequence : UInt32

/-- Every method signs with its own `sourceKeypair`. -/
def Submission.signer (s : Submission sdk) : sdk.Keypair :=
  match s.request with
  | .depositEscrow _ _ sourceKeypair => sourceKeypair
  | _ => s.sourceKeypair

/-- The call that comes out of it, if the encoder does not throw and the entry
point accepts the arguments. The source account authorises it, and nobody
else. -/
def Submission.label {tok : Token} (s : Submission sdk) : Option (Network.Label tok) := do
  let op ← s.request.operation
  let call ← op.decode
  some (call.label (fun a => sdk.strKey (sdk.publicKey s.signer) == some a) s.sequence)

end AzakaClient

namespace BankClient
open AzakaClient
variable {sdk : StellarSdk}

/-- What a bank does about a letter of credit, with its `bankKeypair`. -/
inductive Act (sdk : StellarSdk) where
  | issueLc (params : Sdk.CreateTradeParams) (bankKeypair : sdk.Keypair) (sequence : UInt32)
  | confirmLc (tradeId : Int)

/-- `confirmLc` writes a line to the console; the call of `confirm_trade` is a
comment in the source. -/
def Act.submission : Act sdk → Option (Submission sdk)
  | .issueLc params bankKeypair sequence =>
    some { request := .createTrade params, sourceKeypair := bankKeypair, sequence := sequence }
  | .confirmLc _ => none

end BankClient

namespace AzakaClient
variable {sdk : StellarSdk}

/-- What reaches the network: what comes of the two clients, and everybody
else's calls. -/
inductive Traffic (sdk : StellarSdk) (tok : Token) where
  | client (s : Submission sdk)
  | bank (act : BankClient.Act sdk)
  | other (l : Network.Label tok)

def Traffic.label {tok : Token} : Traffic sdk tok → Option (Network.Label tok)
  | .client s => s.label
  | .bank act => act.submission.bind Submission.label
  | .other l => some l

end AzakaClient
end Azaka
