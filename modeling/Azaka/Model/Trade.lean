import Azaka.Library.Machine
import Azaka.Library.Store
import Azaka.Model.Host

namespace Azaka
open Keyed Stepwise

inductive TradeStatus where
  | pendingEscrow
  | active
  | documentsPending
  | settled
  | cancelled
  | expired
  deriving DecidableEq, Repr

/-- Declared alike by the trade contract and the document contract. -/
inductive DocumentType where
  | billOfLading
  | certificateOfOrigin
  | inspectionCertificate
  | phytosanitaryCertificate
  | customsDeclaration
  deriving DecidableEq, Repr

structure CreateTradeParams where
  exporter : Address
  importer : Address
  issuingBank : Address
  stablecoinAsset : Address
  amount : I128
  requiredDocs : List DocumentType
  expiryLedger : UInt32
  deriving DecidableEq, Repr

structure Trade where
  tradeId : UInt64
  exporter : Address
  importer : Address
  issuingBank : Address
  confirmingBank : Option Address
  stablecoinAsset : Address
  amount : I128
  requiredDocs : List DocumentType
  expiryLedger : UInt32
  status : TradeStatus
  createdLedger : UInt32
  deriving DecidableEq, Repr

inductive TradeError where
  | notAuthorized
  | tradeNotFound
  | invalidStatus
  | tradeExpired
  | documentsNotVerified
  | alreadySettled
  deriving DecidableEq, Repr

/-- One constructor per topic; the arguments are the trade id of the topic and
the data published with it. -/
inductive TradeEvent where
  | create (tradeId : UInt64) (trade : Trade)
  | confirm (tradeId : UInt64) (confirmingBank : Address)
  | escrow (tradeId : UInt64)
  | cancel (tradeId : UInt64) (caller : Address)
  | expire (tradeId : UInt64)
  | settle (tradeId : UInt64) (exporter : Address)
  deriving DecidableEq, Repr

namespace TradeContract

/-- The contract's storage, one field per variant of its `DataKey`, and the
events it has published. -/
structure State where
  escrowContract : Option Address
  documentContract : Option Address
  tradeCounter : Option UInt64
  trades : Store UInt64 Trade
  exporterTrades : Store Address (List UInt64)
  events : List TradeEvent

/-- A contract just deployed. -/
def State.empty : State where
  escrowContract := none
  documentContract := none
  tradeCounter := none
  trades := Store.empty
  exporterTrades := Store.empty
  events := []

def State.counter (s : State) : UInt64 := s.tradeCounter.getD 0

def State.publish (s : State) (e : TradeEvent) : State := { s with events := s.events ++ [e] }

/-- `initialize`, which is a command's name in Lean. -/
def init (escrowContract documentContract : Address) (s : State) :
    Except (Fault TradeError) State :=
  if s.escrowContract.isSome then
    .error (.panicked "Already initialized")
  else
    .ok { s with
      escrowContract := some escrowContract
      documentContract := some documentContract
      tradeCounter := some 0 }

def createTrade (env : Env) (params : CreateTradeParams) (s : State) :
    Except (Fault TradeError) (UInt64 × State) := do
  env.requireAuth params.issuingBank
  let counter ← checkedAdd s.counter 1
  let trade : Trade := {
    tradeId := counter
    exporter := params.exporter
    importer := params.importer
    issuingBank := params.issuingBank
    confirmingBank := none
    stablecoinAsset := params.stablecoinAsset
    amount := params.amount
    requiredDocs := params.requiredDocs
    expiryLedger := params.expiryLedger
    status := .pendingEscrow
    createdLedger := env.sequence }
  let listed := (s.exporterTrades params.exporter).getD []
  let stored : State := { s with
    tradeCounter := some counter
    trades := s.trades.set counter trade
    exporterTrades := s.exporterTrades.set params.exporter (listed ++ [counter]) }
  .ok (counter, stored.publish (.create counter trade))

/-- What the five status calls share: load the record, check it, write the
edited record back and publish an event about it. -/
def updateTrade (tradeId : UInt64) (check : Trade → Except (Fault TradeError) Unit)
    (edit : Trade → Trade) (event : Trade → TradeEvent) (s : State) :
    Except (Fault TradeError) State := do
  let trade ← okOr .tradeNotFound (s.trades tradeId)
  check trade
  let stored : State := { s with trades := s.trades.set tradeId (edit trade) }
  .ok (stored.publish (event (edit trade)))

def confirmTrade (env : Env) (tradeId : UInt64) (confirmingBank : Address) (s : State) :
    Except (Fault TradeError) State := do
  env.requireAuth confirmingBank
  updateTrade tradeId
    (fun trade => ensure (trade.status == .pendingEscrow) .invalidStatus)
    (fun trade => { trade with confirmingBank := some confirmingBank, status := .active })
    (fun _ => .confirm tradeId confirmingBank) s

def markEscrowDeposited (env : Env) (tradeId : UInt64) (s : State) :
    Except (Fault TradeError) State := do
  let escrowContract ← unwrap s.escrowContract
  env.requireAuth escrowContract
  updateTrade tradeId
    (fun trade => ensure (trade.status == .active) .invalidStatus)
    (fun trade => { trade with status := .documentsPending })
    (fun _ => .escrow tradeId) s

def cancelTrade (env : Env) (tradeId : UInt64) (caller : Address) (s : State) :
    Except (Fault TradeError) State := do
  env.requireAuth caller
  updateTrade tradeId
    (fun trade => do
      ensure (caller == trade.exporter || caller == trade.importer) .notAuthorized
      ensure (trade.status == .pendingEscrow || trade.status == .active) .invalidStatus)
    (fun trade => { trade with status := .cancelled })
    (fun _ => .cancel tradeId caller) s

def expireTrade (env : Env) (tradeId : UInt64) (s : State) : Except (Fault TradeError) State :=
  updateTrade tradeId
    (fun trade => do
      ensure (!decide (env.sequence < trade.expiryLedger)) .invalidStatus
      ensure (trade.status != .settled) .alreadySettled)
    (fun trade => { trade with status := .expired })
    (fun _ => .expire tradeId) s

/-- The call to `all_docs_verified` and the release of the escrow are comments
in the source; `DocumentsNotVerified` is never returned. -/
def settleTrade (tradeId : UInt64) (s : State) : Except (Fault TradeError) State :=
  updateTrade tradeId
    (fun trade => do
      ensure (trade.status == .documentsPending) .invalidStatus
      ensure (trade.status != .settled) .alreadySettled)
    (fun trade => { trade with status := .settled })
    (fun trade => .settle tradeId trade.exporter) s

def getTrade (tradeId : UInt64) (s : State) : Except (Fault TradeError) Trade :=
  okOr .tradeNotFound (s.trades tradeId)

def listTradesByExporter (exporter : Address) (s : State) : List UInt64 :=
  (s.exporterTrades exporter).getD []

inductive Call where
  | init (escrowContract documentContract : Address)
  | createTrade (params : CreateTradeParams)
  | confirmTrade (tradeId : UInt64) (confirmingBank : Address)
  | markEscrowDeposited (tradeId : UInt64)
  | cancelTrade (tradeId : UInt64) (caller : Address)
  | expireTrade (tradeId : UInt64)
  | settleTrade (tradeId : UInt64)
  | getTrade (tradeId : UInt64)
  | listTradesByExporter (exporter : Address)
  deriving DecidableEq, Repr

inductive Return where
  | unit
  | tradeId (id : UInt64)
  | trade (trade : Trade)
  | tradeIds (ids : List UInt64)
  deriving DecidableEq, Repr

def exec (env : Env) (s : State) : Call → Except (Fault TradeError) (Return × State)
  | .init e d => (init e d s).map (.unit, ·)
  | .createTrade p => (createTrade env p s).map (fun (id, t) => (.tradeId id, t))
  | .confirmTrade id b => (confirmTrade env id b s).map (.unit, ·)
  | .markEscrowDeposited id => (markEscrowDeposited env id s).map (.unit, ·)
  | .cancelTrade id c => (cancelTrade env id c s).map (.unit, ·)
  | .expireTrade id => (expireTrade env id s).map (.unit, ·)
  | .settleTrade id => (settleTrade id s).map (.unit, ·)
  | .getTrade id => (getTrade id s).map (fun trade => (.trade trade, s))
  | .listTradesByExporter e => .ok (.tradeIds (listTradesByExporter e s), s)

def machine (self : Address) : Machine State (Tx Call) Return (Fault TradeError) where
  exec tx s := exec (tx.env self) s tx.call

end TradeContract
end Azaka
