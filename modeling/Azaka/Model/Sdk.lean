import Azaka.Model.Interface
import Mathlib.Algebra.Ring.Int.Defs

namespace Azaka

/-- The values the SDK hands to the encoder; `bigint` has no bounds. -/
inductive Native where
  | string (s : String)
  | bigint (n : Int)
  | number (x : Float)
  | array (elements : List Native)

/-- The types the encoder can be told to produce. -/
inductive ScType where
  | u32
  | u64
  | i128
  | bytes
  | string
  | symbol
  | vec
  | map
  | address
  deriving DecidableEq, Repr

def ScVal.type : ScVal → ScType
  | .u32 _ => .u32
  | .u64 _ => .u64
  | .i128 _ => .i128
  | .bytes _ => .bytes
  | .string _ => .string
  | .symbol _ => .symbol
  | .vec _ => .vec
  | .map _ => .map
  | .address _ => .address

/-- The library under the SDK: keypairs, the addresses that strings stand for,
and the encoder, which throws or yields a value. -/
structure StellarSdk where
  Keypair : Type
  publicKey : Keypair → String
  strKey : String → Option Address
  nativeToScVal : Native → ScType → Option ScVal

/-- The library keeps its documentation: the encoder yields values of the type
it was told, numbers that fit and addresses are encoded as they are, and an
address is spelled in 56 characters. -/
structure StellarSdk.Documented (sdk : StellarSdk) : Prop where
  typed : ∀ v ty w, sdk.nativeToScVal v ty = some w → w.type = ty
  u64 : ∀ n : Int, 0 ≤ n → n < 2 ^ 64 →
    sdk.nativeToScVal (.bigint n) .u64 = some (.u64 (.ofNat n.toNat))
  i128 : ∀ n : Int, -2 ^ 127 ≤ n → n < 2 ^ 127 →
    sdk.nativeToScVal (.bigint n) .i128 = some (.i128 (.ofInt 128 n))
  address : ∀ s a, sdk.strKey s = some a →
    sdk.nativeToScVal (.string s) .address = some (.address a)
  public_key : ∀ k, ∃ a, sdk.strKey (sdk.publicKey k) = some a
  length : ∀ s a, sdk.strKey s = some a → s.length = 56

/-- The one account of the library below. -/
def loneKey : String := "GA5WUJ54Z23KILLCUOUNAKTPBVZWKMQVO4O6EQ5GHLAERIMLLHNCSKYH"

def loneAccount : Address :=
  .account 0x3b6a27bcceb6a42d62a3a8d02a6f0d73653215771de243a63ac048a18b59da29

def loneStrKey (s : String) : Option Address := if s = loneKey then some loneAccount else none

def loneEncoder : Native → ScType → Option ScVal
  | .bigint n, .u64 => if 0 ≤ n ∧ n < 2 ^ 64 then some (.u64 (.ofNat n.toNat)) else none
  | .bigint n, .i128 =>
    if -2 ^ 127 ≤ n ∧ n < 2 ^ 127 then some (.i128 (.ofInt 128 n)) else none
  | .string s, .address => (loneStrKey s).map .address
  | .string s, .string => some (.string s)
  | _, _ => none

def loneSdk : StellarSdk where
  Keypair := Unit
  publicKey _ := loneKey
  strKey := loneStrKey
  nativeToScVal := loneEncoder

theorem lone_str_key {s : String} {a : Address} :
    loneStrKey s = some a ↔ s = loneKey ∧ a = loneAccount := by
  unfold loneStrKey
  split <;> simp_all [eq_comm]

theorem lone_sdk_documented : loneSdk.Documented := by
  refine ⟨?_, ?_, ?_, ?_, fun _ => ⟨loneAccount, lone_str_key.mpr ⟨rfl, rfl⟩⟩, ?_⟩
  · intro v ty w h
    simp only [loneSdk, loneEncoder] at h
    split at h
    · obtain ⟨-, h⟩ := Option.ite_none_right_eq_some.mp h
      obtain rfl := Option.some.inj h
      rfl
    · obtain ⟨-, h⟩ := Option.ite_none_right_eq_some.mp h
      obtain rfl := Option.some.inj h
      rfl
    · obtain ⟨a, -, rfl⟩ := Option.map_eq_some_iff.mp h
      rfl
    · obtain rfl := Option.some.inj h
      rfl
    · cases h
  · intro n hpos hlt
    exact if_pos ⟨hpos, hlt⟩
  · intro n hle hlt
    exact if_pos ⟨hle, hlt⟩
  · intro s a h
    exact congrArg (Option.map ScVal.address) h
  · intro s a h
    obtain ⟨rfl, -⟩ := lone_str_key.mp h
    decide

namespace Sdk

structure CreateTradeParams where
  exporter : String
  importer : String
  issuingBank : String
  stablecoinAsset : String
  amount : Int
  requiredDocs : List DocumentType
  expiryLedger : Float

structure SubmitDocumentParams where
  tradeId : Int
  docType : DocumentType
  docHash : String
  metadataUri : String

structure SignDocumentParams where
  tradeId : Int
  docType : DocumentType
  signer : String

structure Trade where
  tradeId : Int
  exporter : String
  importer : String
  issuingBank : String
  confirmingBank : Option String
  stablecoinAsset : String
  amount : Int
  requiredDocs : List DocumentType
  expiryLedger : Float
  status : TradeStatus
  createdLedger : Float

end Sdk

namespace AzakaClient

/-- What the method passes to `contract.call`, if the encoder does not throw, and
so for the other methods. The source account, the fees and the network are not
part of it. -/
def createTrade (sdk : StellarSdk) (params : Sdk.CreateTradeParams) : Option Operation := do
  let exporter ← sdk.nativeToScVal (.string params.exporter) .address
  let importer ← sdk.nativeToScVal (.string params.importer) .address
  let issuingBank ← sdk.nativeToScVal (.string params.issuingBank) .address
  let stablecoinAsset ← sdk.nativeToScVal (.string params.stablecoinAsset) .address
  let amount ← sdk.nativeToScVal (.bigint params.amount) .i128
  let requiredDocs ←
    sdk.nativeToScVal (.array (params.requiredDocs.map fun d => .string d.name)) .vec
  let expiryLedger ← sdk.nativeToScVal (.number params.expiryLedger) .u32
  some {
    contract := .trade
    function := "create_trade"
    args := [exporter, importer, issuingBank, stablecoinAsset, amount, requiredDocs,
      expiryLedger] }

def depositEscrow (sdk : StellarSdk) (tradeId amount : Int) (sourceKeypair : sdk.Keypair) :
    Option Operation := do
  let tradeId ← sdk.nativeToScVal (.bigint tradeId) .u64
  let depositor ← sdk.nativeToScVal (.string (sdk.publicKey sourceKeypair)) .address
  let amount ← sdk.nativeToScVal (.bigint amount) .i128
  some { contract := .escrow, function := "deposit", args := [tradeId, depositor, amount] }

def submitDocument (sdk : StellarSdk) (params : Sdk.SubmitDocumentParams) : Option Operation := do
  let tradeId ← sdk.nativeToScVal (.bigint params.tradeId) .u64
  let docType ← sdk.nativeToScVal (.string params.docType.name) .string
  let docHash ← sdk.nativeToScVal (.string params.docHash) .bytes
  let metadataUri ← sdk.nativeToScVal (.string params.metadataUri) .string
  some {
    contract := .document
    function := "submit_document"
    args := [tradeId, docType, docHash, metadataUri] }

def signDocument (sdk : StellarSdk) (params : Sdk.SignDocumentParams) : Option Operation := do
  let tradeId ← sdk.nativeToScVal (.bigint params.tradeId) .u64
  let docType ← sdk.nativeToScVal (.string params.docType.name) .string
  let signer ← sdk.nativeToScVal (.string params.signer) .address
  some { contract := .document, function := "sign_document", args := [tradeId, docType, signer] }

/-- A placeholder in the source: it asks nobody. -/
def getTrade (tradeId : Int) : Sdk.Trade where
  tradeId := tradeId
  exporter := "G..."
  importer := "G..."
  issuingBank := "G..."
  confirmingBank := none
  stablecoinAsset := "C..."
  amount := 50000 * 10000000
  requiredDocs := []
  expiryLedger := 1000000
  status := .active
  createdLedger := 900000

/-- The verification of the documents and the settlement are comments in the
source. -/
def checkAndRelease (sdk : StellarSdk) (tradeId : Int) : Option Operation := do
  let trade := getTrade tradeId
  let tradeId ← sdk.nativeToScVal (.bigint tradeId) .u64
  let exporter ← sdk.nativeToScVal (.string trade.exporter) .address
  some { contract := .escrow, function := "release", args := [tradeId, exporter] }

/-- A use of the client that ends in a contract call. -/
inductive Request (sdk : StellarSdk) where
  | createTrade (params : Sdk.CreateTradeParams)
  | depositEscrow (tradeId amount : Int) (sourceKeypair : sdk.Keypair)
  | submitDocument (params : Sdk.SubmitDocumentParams)
  | signDocument (params : Sdk.SignDocumentParams)
  | checkAndRelease (tradeId : Int)

def Request.operation {sdk : StellarSdk} : Request sdk → Option Operation
  | .createTrade params => AzakaClient.createTrade sdk params
  | .depositEscrow tradeId amount source => AzakaClient.depositEscrow sdk tradeId amount source
  | .submitDocument params => AzakaClient.submitDocument sdk params
  | .signDocument params => AzakaClient.signDocument sdk params
  | .checkAndRelease tradeId => AzakaClient.checkAndRelease sdk tradeId

end AzakaClient
end Azaka
