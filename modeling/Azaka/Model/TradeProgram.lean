import Azaka.Model.Program

namespace Azaka
open Keyed Stepwise Wire Val

def TradeError.code : TradeError → UInt32
  | .notAuthorized => 1
  | .tradeNotFound => 2
  | .invalidStatus => 3
  | .tradeExpired => 4
  | .documentsNotVerified => 5
  | .alreadySettled => 6

/-- What is published, topics first. -/
def TradeEvent.published : TradeEvent → List Val × Val
  | .create id t => ([.symbol "create", .u64 id], Trade.codec.encode t)
  | .confirm id b => ([.symbol "confirm", .u64 id], .address b)
  | .escrow id => ([.symbol "escrow", .u64 id], .void)
  | .cancel id c => ([.symbol "cancel", .u64 id], .address c)
  | .expire id => ([.symbol "expire", .u64 id], .void)
  | .settle id e => ([.symbol "settle", .u64 id], .address e)

namespace TradeContract

inductive DataKey where
  | trade (tradeId : UInt64)
  | tradeCounter
  | exporterTrades (exporter : Address)
  | escrowContract
  | documentContract
  deriving DecidableEq, Repr

def DataKey.encode : DataKey → String × List ScVal
  | .trade id => ("Trade", ScVal.u64Codec.one.encode id)
  | .tradeCounter => ("TradeCounter", [])
  | .exporterTrades e => ("ExporterTrades", ScVal.addressCodec.one.encode e)
  | .escrowContract => ("EscrowContract", [])
  | .documentContract => ("DocumentContract", [])

def DataKey.decode : String × List ScVal → Option DataKey
  | ("Trade", args) => (ScVal.u64Codec.one.decode args).map .trade
  | ("TradeCounter", []) => some .tradeCounter
  | ("ExporterTrades", args) => (ScVal.addressCodec.one.decode args).map .exporterTrades
  | ("EscrowContract", []) => some .escrowContract
  | ("DocumentContract", []) => some .documentContract
  | _ => none

def DataKey.codec : Codec Val DataKey :=
  ofCodec <| variantCodec.comp {
    encode := DataKey.encode
    decode := DataKey.decode
    exact := by
      intro w k
      constructor
      · intro h
        unfold DataKey.decode at h
        split at h
        case h_1 | h_3 =>
          obtain ⟨p, rfl, rfl⟩ := Codec.map_decode.mp h
          rfl
        case h_6 => cases h
        all_goals
          obtain rfl := Option.some.inj h
          rfl
      · intro h
        subst h
        cases k <;> simp [DataKey.encode, DataKey.decode] }

def DataKey.val (k : DataKey) : Val := codec.encode k

def Return.val : Return → Val
  | .unit => .void
  | .tradeId id => .u64 id
  | .trade t => Trade.codec.encode t
  | .tradeIds ids => (vecCodec u64Codec).encode ids

end TradeContract

namespace Program.Trade
open TradeContract

/-- `Trade` as the contract holds it. A vector of the host is converted element
by element when it is read, and no entry point reads `required_docs`. -/
structure Record where
  tradeId : UInt64
  exporter : Address
  importer : Address
  issuingBank : Address
  confirmingBank : Option Address
  stablecoinAsset : Address
  amount : I128
  requiredDocs : List Val
  expiryLedger : UInt32
  status : TradeStatus
  createdLedger : UInt32

def Record.codec : Codec Val Record :=
  structCodec.comp <| Codec.iso
    ((i128Codec.field "amount").cons <|
      ((optionCodec addressCodec address_present).field "confirming_bank").cons <|
      (u32Codec.field "created_ledger").cons <|
      (u32Codec.field "expiry_ledger").cons <|
      (addressCodec.field "exporter").cons <|
      (addressCodec.field "importer").cons <|
      (addressCodec.field "issuing_bank").cons <|
      (listCodec.field "required_docs").cons <|
      (addressCodec.field "stablecoin_asset").cons <|
      (TradeStatus.codec.field "status").cons <|
      (u64Codec.field "trade_id").one)
    (fun (amount, confirmingBank, createdLedger, expiryLedger, exporter, importer, issuingBank,
        requiredDocs, stablecoinAsset, status, tradeId) =>
      { tradeId, exporter, importer, issuingBank, confirmingBank, stablecoinAsset, amount,
        requiredDocs, expiryLedger, status, createdLedger })
    (fun t => (t.amount, t.confirmingBank, t.createdLedger, t.expiryLedger, t.exporter, t.importer,
      t.issuingBank, t.requiredDocs, t.stablecoinAsset, t.status, t.tradeId))
    (fun _ => rfl) (fun _ => rfl)

/-- `CreateTradeParams` as it comes in. -/
structure Params where
  exporter : Address
  importer : Address
  issuingBank : Address
  stablecoinAsset : Address
  amount : I128
  requiredDocs : List Val
  expiryLedger : UInt32

def Params.codec : Codec Val Params :=
  structCodec.comp <| Codec.iso
    ((i128Codec.field "amount").cons <|
      (u32Codec.field "expiry_ledger").cons <|
      (addressCodec.field "exporter").cons <|
      (addressCodec.field "importer").cons <|
      (addressCodec.field "issuing_bank").cons <|
      (listCodec.field "required_docs").cons <|
      (addressCodec.field "stablecoin_asset").one)
    (fun (amount, expiryLedger, exporter, importer, issuingBank, requiredDocs, stablecoinAsset) =>
      { exporter, importer, issuingBank, stablecoinAsset, amount, requiredDocs, expiryLedger })
    (fun p => (p.amount, p.expiryLedger, p.exporter, p.importer, p.issuingBank, p.requiredDocs,
      p.stablecoinAsset))
    (fun _ => rfl) (fun _ => rfl)

/-- A call with its arguments converted as the entry point's wrapper does it. -/
inductive HostCall where
  | init (escrowContract documentContract : Address)
  | createTrade (params : Params)
  | confirmTrade (tradeId : UInt64) (confirmingBank : Address)
  | markEscrowDeposited (tradeId : UInt64)
  | cancelTrade (tradeId : UInt64) (caller : Address)
  | expireTrade (tradeId : UInt64)
  | settleTrade (tradeId : UInt64)
  | getTrade (tradeId : UInt64)
  | listTradesByExporter (exporter : Address)

def HostCall.encode : HostCall → String × List Val
  | .init e d => ("initialize", (addressCodec.cons addressCodec.one).encode (e, d))
  | .createTrade p => ("create_trade", Params.codec.one.encode p)
  | .confirmTrade id b => ("confirm_trade", (u64Codec.cons addressCodec.one).encode (id, b))
  | .markEscrowDeposited id => ("mark_escrow_deposited", u64Codec.one.encode id)
  | .cancelTrade id c => ("cancel_trade", (u64Codec.cons addressCodec.one).encode (id, c))
  | .expireTrade id => ("expire_trade", u64Codec.one.encode id)
  | .settleTrade id => ("settle_trade", u64Codec.one.encode id)
  | .getTrade id => ("get_trade", u64Codec.one.encode id)
  | .listTradesByExporter e => ("list_trades_by_exporter", addressCodec.one.encode e)

def HostCall.decode : String × List Val → Option HostCall
  | ("initialize", args) =>
    ((addressCodec.cons addressCodec.one).decode args).map fun (e, d) => .init e d
  | ("create_trade", args) => (Params.codec.one.decode args).map .createTrade
  | ("confirm_trade", args) =>
    ((u64Codec.cons addressCodec.one).decode args).map fun (id, b) => .confirmTrade id b
  | ("mark_escrow_deposited", args) => (u64Codec.one.decode args).map .markEscrowDeposited
  | ("cancel_trade", args) =>
    ((u64Codec.cons addressCodec.one).decode args).map fun (id, c) => .cancelTrade id c
  | ("expire_trade", args) => (u64Codec.one.decode args).map .expireTrade
  | ("settle_trade", args) => (u64Codec.one.decode args).map .settleTrade
  | ("get_trade", args) => (u64Codec.one.decode args).map .getTrade
  | ("list_trades_by_exporter", args) =>
    (addressCodec.one.decode args).map .listTradesByExporter
  | _ => none

def hostInterface : Codec (String × List Val) HostCall where
  encode := HostCall.encode
  decode := HostCall.decode
  exact w c := by
    constructor
    · intro h
      unfold HostCall.decode at h
      split at h
      case h_10 => cases h
      all_goals
        obtain ⟨p, rfl, rfl⟩ := Codec.map_decode.mp h
        rfl
    · intro h
      subst h
      cases c <;> simp [HostCall.encode, HostCall.decode]

/-- `initialize`. -/
def init (escrowContract documentContract : Address) : Program Unit Unit := do
  if ← has .ofInstance DataKey.escrowContract.val then
    trap
  set .ofInstance DataKey.escrowContract.val addressCodec escrowContract
  set .ofInstance DataKey.documentContract.val addressCodec documentContract
  set .ofInstance DataKey.tradeCounter.val u64Codec 0

def createTrade (env : Env) (params : Params) : Program Unit UInt64 := do
  requireAuth env params.issuingBank
  let counter := (← get .ofInstance DataKey.tradeCounter.val u64Codec).getD 0
  let counter ← addU64 counter 1
  let trade : Record := {
    tradeId := counter
    exporter := params.exporter
    importer := params.importer
    issuingBank := params.issuingBank
    confirmingBank := none
    stablecoinAsset := params.stablecoinAsset
    amount := params.amount
    requiredDocs := params.requiredDocs
    expiryLedger := params.expiryLedger
    status := .pendingEscrow
    createdLedger := env.sequence }
  set .ofInstance DataKey.tradeCounter.val u64Codec counter
  set .persistent (DataKey.trade counter).val Record.codec trade
  let exporterKey := DataKey.exporterTrades params.exporter
  let exporterTrades := (← get .persistent exporterKey.val (vecCodec u64Codec)).getD []
  let exporterTrades := exporterTrades ++ [counter]
  set .persistent exporterKey.val (vecCodec u64Codec) exporterTrades
  publish [.symbol "create", .u64 counter] (Record.codec.encode trade)
  return counter

def confirmTrade (env : Env) (tradeId : UInt64) (confirmingBank : Address) :
    Program Unit Unit := do
  requireAuth env confirmingBank
  let key := DataKey.trade tradeId
  let trade ← okOr TradeError.tradeNotFound.code (← get .persistent key.val Record.codec)
  if trade.status != .pendingEscrow then
    fail TradeError.invalidStatus.code
  let trade := { trade with confirmingBank := some confirmingBank }
  let trade := { trade with status := .active }
  set .persistent key.val Record.codec trade
  publish [.symbol "confirm", .u64 tradeId] (.address confirmingBank)

def markEscrowDeposited (env : Env) (tradeId : UInt64) : Program Unit Unit := do
  let escrowContract ← unwrap (← get .ofInstance DataKey.escrowContract.val addressCodec)
  requireAuth env escrowContract
  let key := DataKey.trade tradeId
  let trade ← okOr TradeError.tradeNotFound.code (← get .persistent key.val Record.codec)
  if trade.status != .active then
    fail TradeError.invalidStatus.code
  let trade := { trade with status := .documentsPending }
  set .persistent key.val Record.codec trade
  publish [.symbol "escrow", .u64 tradeId] .void

def cancelTrade (env : Env) (tradeId : UInt64) (caller : Address) : Program Unit Unit := do
  requireAuth env caller
  let key := DataKey.trade tradeId
  let trade ← okOr TradeError.tradeNotFound.code (← get .persistent key.val Record.codec)
  if caller != trade.exporter && caller != trade.importer then
    fail TradeError.notAuthorized.code
  if trade.status != .pendingEscrow && trade.status != .active then
    fail TradeError.invalidStatus.code
  let trade := { trade with status := .cancelled }
  set .persistent key.val Record.codec trade
  publish [.symbol "cancel", .u64 tradeId] (.address caller)

def expireTrade (env : Env) (tradeId : UInt64) : Program Unit Unit := do
  let key := DataKey.trade tradeId
  let trade ← okOr TradeError.tradeNotFound.code (← get .persistent key.val Record.codec)
  if env.sequence < trade.expiryLedger then
    fail TradeError.invalidStatus.code
  if trade.status == .settled then
    fail TradeError.alreadySettled.code
  let trade := { trade with status := .expired }
  set .persistent key.val Record.codec trade
  publish [.symbol "expire", .u64 tradeId] .void

def settleTrade (tradeId : UInt64) : Program Unit Unit := do
  let key := DataKey.trade tradeId
  let trade ← okOr TradeError.tradeNotFound.code (← get .persistent key.val Record.codec)
  if trade.status != .documentsPending then
    fail TradeError.invalidStatus.code
  if trade.status == .settled then
    fail TradeError.alreadySettled.code
  let trade := { trade with status := .settled }
  set .persistent key.val Record.codec trade
  publish [.symbol "settle", .u64 tradeId] (.address trade.exporter)

def getTrade (tradeId : UInt64) : Program Unit Record := do
  let key := DataKey.trade tradeId
  okOr TradeError.tradeNotFound.code (← get .persistent key.val Record.codec)

def listTradesByExporter (exporter : Address) : Program Unit (List UInt64) := do
  let key := DataKey.exporterTrades exporter
  return (← get .persistent key.val (vecCodec u64Codec)).getD []

def exec (env : Env) : HostCall → Program Unit Val
  | .init e d => do init e d; return .void
  | .createTrade p => return .u64 (← createTrade env p)
  | .confirmTrade id b => do confirmTrade env id b; return .void
  | .markEscrowDeposited id => do markEscrowDeposited env id; return .void
  | .cancelTrade id c => do cancelTrade env id c; return .void
  | .expireTrade id => do expireTrade env id; return .void
  | .settleTrade id => do settleTrade id; return .void
  | .getTrade id => return Record.codec.encode (← getTrade id)
  | .listTradesByExporter e => return (vecCodec u64Codec).encode (← listTradesByExporter e)

def machine (self : Address) : Machine (HostState Unit) (Tx (String × List Val)) Val HostError :=
  serve (Tx.read hostInterface.decode) exec self

end Program.Trade
end Azaka
