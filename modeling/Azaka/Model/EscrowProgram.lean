import Azaka.Model.Program

namespace Azaka
open Keyed Stepwise Wire Val

def EscrowError.code : EscrowError → UInt32
  | .notAuthorized => 1
  | .insufficientBalance => 2
  | .alreadyDeposited => 3
  | .noBalance => 4
  | .transferFailed => 5

/-- What is published, topics first. -/
def EscrowEvent.published : EscrowEvent → List Val × Val
  | .deposit id a n => ([.symbol "deposit", .u64 id], .vec [.address a, .i128 n])
  | .release id a n => ([.symbol "release", .u64 id], .vec [.address a, .i128 n])
  | .refund id a n => ([.symbol "refund", .u64 id], .vec [.address a, .i128 n])

namespace EscrowContract

inductive DataKey where
  | balance (tradeId : UInt64)
  | tradeContract
  | tokenContract
  deriving DecidableEq, Repr

def DataKey.encode : DataKey → String × List ScVal
  | .balance id => ("Balance", ScVal.u64Codec.one.encode id)
  | .tradeContract => ("TradeContract", [])
  | .tokenContract => ("TokenContract", [])

def DataKey.decode : String × List ScVal → Option DataKey
  | ("Balance", args) => (ScVal.u64Codec.one.decode args).map .balance
  | ("TradeContract", []) => some .tradeContract
  | ("TokenContract", []) => some .tokenContract
  | _ => none

def DataKey.codec : Codec Val DataKey :=
  ofCodec <| variantCodec.comp {
    encode := DataKey.encode
    decode := DataKey.decode
    exact := by
      intro w k
      constructor
      · intro h
        unfold DataKey.decode at h
        split at h
        case h_1 =>
          obtain ⟨p, rfl, rfl⟩ := Codec.map_decode.mp h
          rfl
        case h_4 => cases h
        all_goals
          obtain rfl := Option.some.inj h
          rfl
      · intro h
        subst h
        cases k <;> simp [DataKey.encode, DataKey.decode] }

def DataKey.val (k : DataKey) : Val := codec.encode k

def Return.val : Return → Val
  | .unit => .void
  | .amount n => .i128 n

/-- A call as it reaches the host, or anything else that happens to the tokens. -/
inductive HostLabel (tok : HostToken) where
  | call (tx : Tx (String × List Val))
  | token (ledger : tok.Ledger)

def HostLabel.read {tok : HostToken} : HostLabel tok → Option (Label tok.toToken)
  | .call tx => (readArgs interface tx).map .call
  | .token ledger => some (.token ledger)

end EscrowContract

namespace Program.Escrow
open EscrowContract
variable {tok : HostToken}

/-- `initialize`. -/
def init (tradeContract tokenContract : Address) : Program tok.Ledger Unit := do
  if ← has .ofInstance DataKey.tradeContract.val then
    trap
  set .ofInstance DataKey.tradeContract.val addressCodec tradeContract
  set .ofInstance DataKey.tokenContract.val addressCodec tokenContract

def deposit (env : Env) (tradeId : UInt64) (depositor : Address) (amount : I128) :
    Program tok.Ledger Unit := do
  requireAuth env depositor
  let key := DataKey.balance tradeId
  if ← has .persistent key.val then
    fail EscrowError.alreadyDeposited.code
  let tokenContract ← unwrap (← get .ofInstance DataKey.tokenContract.val addressCodec)
  transfer tok tokenContract depositor env.current amount
  set .persistent key.val i128Codec amount
  publish [.symbol "deposit", .u64 tradeId] (.vec [.address depositor, .i128 amount])

def release (env : Env) (tradeId : UInt64) (recipient : Address) : Program tok.Ledger Unit := do
  let tradeContract ← unwrap (← get .ofInstance DataKey.tradeContract.val addressCodec)
  requireAuth env tradeContract
  let key := DataKey.balance tradeId
  let amount ← okOr EscrowError.noBalance.code (← get .persistent key.val i128Codec)
  let tokenContract ← unwrap (← get .ofInstance DataKey.tokenContract.val addressCodec)
  transfer tok tokenContract env.current recipient amount
  remove .persistent key.val
  publish [.symbol "release", .u64 tradeId] (.vec [.address recipient, .i128 amount])

def refund (env : Env) (tradeId : UInt64) (recipient : Address) : Program tok.Ledger Unit := do
  let tradeContract ← unwrap (← get .ofInstance DataKey.tradeContract.val addressCodec)
  requireAuth env tradeContract
  let key := DataKey.balance tradeId
  let amount ← okOr EscrowError.noBalance.code (← get .persistent key.val i128Codec)
  let tokenContract ← unwrap (← get .ofInstance DataKey.tokenContract.val addressCodec)
  transfer tok tokenContract env.current recipient amount
  remove .persistent key.val
  publish [.symbol "refund", .u64 tradeId] (.vec [.address recipient, .i128 amount])

def getBalance (tradeId : UInt64) : Program tok.Ledger I128 := do
  let key := DataKey.balance tradeId
  return (← get .persistent key.val i128Codec).getD 0

def exec (env : Env) : Call → Program tok.Ledger Val
  | .init trade token => do init trade token; return .void
  | .deposit id a n => do deposit env id a n; return .void
  | .release id a => do release env id a; return .void
  | .refund id a => do refund env id a; return .void
  | .getBalance id => return .i128 (← getBalance id)

def machine (tok : HostToken) (self : Address) :
    Machine (HostState tok.Ledger) (HostLabel tok) Val HostError where
  exec
    | .call tx, w => (serve (readArgs interface) exec self).exec tx w
    | .token ledger, w => .ok (.void, { w with beyond := ledger })

end Program.Escrow
end Azaka
