import Azaka.Model.Trade

namespace Azaka.TradeContract
open Keyed Stepwise

/-- What the five status calls do to the record they name, guards included. -/
inductive Edit (env : Env) (escrowContract : Option Address) :
    Call → UInt64 → Trade → Trade → TradeEvent → Prop
  | confirm {id : UInt64} {bank : Address} {trade : Trade} (auth : env.auth bank = true)
      (status : trade.status = .pendingEscrow) :
      Edit env escrowContract (.confirmTrade id bank) id trade
        { trade with confirmingBank := some bank, status := .active } (.confirm id bank)
  | mark {id : UInt64} {trade : Trade} {escrow : Address}
      (configured : escrowContract = some escrow) (auth : env.auth escrow = true) (status : trade.status = .active) :
      Edit env escrowContract (.markEscrowDeposited id) id trade
        { trade with status := .documentsPending } (.escrow id)
  | cancel {id : UInt64} {caller : Address} {trade : Trade} (auth : env.auth caller = true)
      (party : caller = trade.exporter ∨ caller = trade.importer)
      (status : trade.status = .pendingEscrow ∨ trade.status = .active) :
      Edit env escrowContract (.cancelTrade id caller) id trade
        { trade with status := .cancelled } (.cancel id caller)
  | expire {id : UInt64} {trade : Trade} (due : trade.expiryLedger ≤ env.sequence)
      (status : trade.status ≠ .settled) :
      Edit env escrowContract (.expireTrade id) id trade
        { trade with status := .expired } (.expire id)
  | settle {id : UInt64} {trade : Trade} (status : trade.status = .documentsPending) :
      Edit env escrowContract (.settleTrade id) id trade
        { trade with status := .settled } (.settle id trade.exporter)

/-- The record a successful `create_trade` stores. -/
def opened (env : Env) (p : CreateTradeParams) (counter : UInt64) : Trade where
  tradeId := counter
  exporter := p.exporter
  importer := p.importer
  issuingBank := p.issuingBank
  confirmingBank := none
  stablecoinAsset := p.stablecoinAsset
  amount := p.amount
  requiredDocs := p.requiredDocs
  expiryLedger := p.expiryLedger
  status := .pendingEscrow
  createdLedger := env.sequence

def State.configured (s : State) (escrow document : Address) : State :=
  { s with
    escrowContract := some escrow
    documentContract := some document
    tradeCounter := some 0 }

def State.created (s : State) (env : Env) (p : CreateTradeParams) : State where
  escrowContract := s.escrowContract
  documentContract := s.documentContract
  tradeCounter := some (s.counter + 1)
  trades := s.trades.set (s.counter + 1) (opened env p (s.counter + 1))
  exporterTrades := s.exporterTrades.set p.exporter
    (listTradesByExporter p.exporter s ++ [s.counter + 1])
  events := s.events ++ [.create (s.counter + 1) (opened env p (s.counter + 1))]

def State.edited (s : State) (id : UInt64) (trade : Trade) (event : TradeEvent) : State :=
  { s with trades := s.trades.set id trade, events := s.events ++ [event] }

/-- Everything a successful call can do. -/
inductive Step (env : Env) (s : State) : Call → Return → State → Prop
  | init {escrow document : Address} (unset : s.escrowContract = none) :
      Step env s (.init escrow document) .unit (s.configured escrow document)
  | create {p : CreateTradeParams} (auth : env.auth p.issuingBank = true)
      (room : s.counter.toNat + 1 < 2 ^ 64) :
      Step env s (.createTrade p) (.tradeId (s.counter + 1)) (s.created env p)
  | edit {c : Call} {id : UInt64} {trade trade' : Trade} {event : TradeEvent}
      (found : s.trades id = some trade)
      (edit : Edit env s.escrowContract c id trade trade' event) :
      Step env s c .unit (s.edited id trade' event)
  | get {id : UInt64} {trade : Trade} (found : s.trades id = some trade) :
      Step env s (.getTrade id) (.trade trade) s
  | list {exporter : Address} :
      Step env s (.listTradesByExporter exporter) (.tradeIds (listTradesByExporter exporter s)) s

theorem init_ok {e d : Address} {s t : State} :
    init e d s = .ok t ↔ s.escrowContract = none ∧ t = s.configured e d := by
  unfold init
  cases h : s.escrowContract with
  | some a => simp
  | none => simp [State.configured, eq_comm]

theorem createTrade_ok {env : Env} {p : CreateTradeParams} {s t : State} {id : UInt64} :
    createTrade env p s = .ok (id, t) ↔ env.auth p.issuingBank = true ∧
      s.counter.toNat + 1 < 2 ^ 64 ∧ id = s.counter + 1 ∧ t = s.created env p := by
  simp only [createTrade, bind_ok, requireAuth_ok, checkedAdd_ok, Except.ok.injEq, Prod.mk.injEq]
  constructor
  · intro h
    obtain ⟨_, auth, counter, ⟨room, rfl⟩, rfl, rfl⟩ := h
    exact ⟨auth, room, rfl, rfl⟩
  · intro h
    obtain ⟨auth, room, rfl, rfl⟩ := h
    exact ⟨(), auth, s.counter + 1, ⟨room, rfl⟩, rfl, rfl⟩

theorem updateTrade_ok {id : UInt64} {check : Trade → Except (Fault TradeError) Unit}
    {edit : Trade → Trade} {event : Trade → TradeEvent} {s t : State} :
    updateTrade id check edit event s = .ok t ↔ ∃ trade, s.trades id = some trade ∧
      check trade = .ok () ∧ t = s.edited id (edit trade) (event (edit trade)) := by
  simp only [updateTrade, bind_ok, okOr_ok, Except.ok.injEq]
  constructor
  · intro h
    obtain ⟨trade, found, ⟨⟩, checked, rfl⟩ := h
    exact ⟨trade, found, checked, rfl⟩
  · intro h
    obtain ⟨trade, found, checked, rfl⟩ := h
    exact ⟨trade, found, (), checked, rfl⟩

theorem confirmTrade_ok {env : Env} {id : UInt64} {bank : Address} {s t : State} :
    confirmTrade env id bank s = .ok t ↔ ∃ trade trade' event, s.trades id = some trade ∧
      Edit env s.escrowContract (.confirmTrade id bank) id trade trade' event ∧
      t = s.edited id trade' event := by
  simp only [confirmTrade, bind_ok, requireAuth_ok, updateTrade_ok, ensure_ok, beq_iff_eq]
  constructor
  · intro h
    obtain ⟨_, auth, trade, found, status, rfl⟩ := h
    exact ⟨trade, _, _, found, .confirm auth status, rfl⟩
  · intro h
    obtain ⟨trade, _, _, found, edit, rfl⟩ := h
    cases edit with
    | confirm auth status => exact ⟨(), auth, trade, found, status, rfl⟩

theorem markEscrowDeposited_ok {env : Env} {id : UInt64} {s t : State} :
    markEscrowDeposited env id s = .ok t ↔ ∃ trade trade' event, s.trades id = some trade ∧
      Edit env s.escrowContract (.markEscrowDeposited id) id trade trade' event ∧
      t = s.edited id trade' event := by
  simp only [markEscrowDeposited, bind_ok, unwrap_ok, requireAuth_ok, updateTrade_ok, ensure_ok,
    beq_iff_eq]
  constructor
  · intro h
    obtain ⟨escrow, configured, _, auth, trade, found, status, rfl⟩ := h
    exact ⟨trade, _, _, found, .mark configured auth status, rfl⟩
  · intro h
    obtain ⟨trade, _, _, found, edit, rfl⟩ := h
    cases edit with
    | mark configured auth status =>
      exact ⟨_, configured, (), auth, trade, found, status, rfl⟩

theorem cancelTrade_ok {env : Env} {id : UInt64} {caller : Address} {s t : State} :
    cancelTrade env id caller s = .ok t ↔ ∃ trade trade' event, s.trades id = some trade ∧
      Edit env s.escrowContract (.cancelTrade id caller) id trade trade' event ∧
      t = s.edited id trade' event := by
  simp only [cancelTrade, bind_ok, requireAuth_ok, updateTrade_ok, ensure_ok, Bool.or_eq_true,
    beq_iff_eq]
  constructor
  · intro h
    obtain ⟨_, auth, trade, found, ⟨_, party, status⟩, rfl⟩ := h
    exact ⟨trade, _, _, found, .cancel auth party status, rfl⟩
  · intro h
    obtain ⟨trade, _, _, found, edit, rfl⟩ := h
    cases edit with
    | cancel auth party status => exact ⟨(), auth, trade, found, ⟨(), party, status⟩, rfl⟩

theorem expireTrade_ok {env : Env} {id : UInt64} {s t : State} :
    expireTrade env id s = .ok t ↔ ∃ trade trade' event, s.trades id = some trade ∧
      Edit env s.escrowContract (.expireTrade id) id trade trade' event ∧
      t = s.edited id trade' event := by
  simp only [expireTrade, bind_ok, updateTrade_ok, ensure_ok, Bool.not_eq_true',
    decide_eq_false_iff_not, UInt32.not_lt, bne_iff_ne]
  constructor
  · intro h
    obtain ⟨trade, found, ⟨_, due, status⟩, rfl⟩ := h
    exact ⟨trade, _, _, found, .expire due status, rfl⟩
  · intro h
    obtain ⟨trade, _, _, found, edit, rfl⟩ := h
    cases edit with
    | expire due status => exact ⟨trade, found, ⟨(), due, status⟩, rfl⟩

/-- The second check of `settle_trade` never fires: the first one implies it. -/
theorem settleTrade_ok (env : Env) {id : UInt64} {s t : State} :
    settleTrade id s = .ok t ↔ ∃ trade trade' event, s.trades id = some trade ∧
      Edit env s.escrowContract (.settleTrade id) id trade trade' event ∧
      t = s.edited id trade' event := by
  simp only [settleTrade, bind_ok, updateTrade_ok, ensure_ok, beq_iff_eq, bne_iff_ne]
  constructor
  · intro h
    obtain ⟨trade, found, ⟨_, status, _⟩, rfl⟩ := h
    exact ⟨trade, _, _, found, .settle status, rfl⟩
  · intro h
    obtain ⟨trade, _, _, found, edit, rfl⟩ := h
    cases edit with
    | settle status => exact ⟨trade, found, ⟨(), status, by simp [status]⟩, rfl⟩

/-- The step relation is exactly the successful calls. -/
theorem exec_ok {env : Env} {s t : State} {c : Call} {r : Return} :
    exec env s c = .ok (r, t) ↔ Step env s c r t := by
  constructor
  · intro h
    cases c with
    | init e d =>
      obtain ⟨t, ht, ⟨⟩⟩ := map_ok.mp h
      obtain ⟨unset, rfl⟩ := init_ok.mp ht
      exact .init unset
    | createTrade p =>
      obtain ⟨⟨id, t⟩, ht, ⟨⟩⟩ := map_ok.mp h
      obtain ⟨auth, room, rfl, rfl⟩ := createTrade_ok.mp ht
      exact .create auth room
    | confirmTrade id bank =>
      obtain ⟨t, ht, ⟨⟩⟩ := map_ok.mp h
      obtain ⟨trade, trade', event, found, edit, rfl⟩ := confirmTrade_ok.mp ht
      exact .edit found edit
    | markEscrowDeposited id =>
      obtain ⟨t, ht, ⟨⟩⟩ := map_ok.mp h
      obtain ⟨trade, trade', event, found, edit, rfl⟩ := markEscrowDeposited_ok.mp ht
      exact .edit found edit
    | cancelTrade id caller =>
      obtain ⟨t, ht, ⟨⟩⟩ := map_ok.mp h
      obtain ⟨trade, trade', event, found, edit, rfl⟩ := cancelTrade_ok.mp ht
      exact .edit found edit
    | expireTrade id =>
      obtain ⟨t, ht, ⟨⟩⟩ := map_ok.mp h
      obtain ⟨trade, trade', event, found, edit, rfl⟩ := expireTrade_ok.mp ht
      exact .edit found edit
    | settleTrade id =>
      obtain ⟨t, ht, ⟨⟩⟩ := map_ok.mp h
      obtain ⟨trade, trade', event, found, edit, rfl⟩ := (settleTrade_ok env).mp ht
      exact .edit found edit
    | getTrade id =>
      obtain ⟨trade, ht, ⟨⟩⟩ := map_ok.mp h
      exact .get (okOr_ok.mp ht)
    | listTradesByExporter e =>
      cases h
      exact .list
  · intro h
    cases h with
    | init unset => exact map_ok.mpr ⟨_, init_ok.mpr ⟨unset, rfl⟩, rfl⟩
    | create auth room => exact map_ok.mpr ⟨_, createTrade_ok.mpr ⟨auth, room, rfl, rfl⟩, rfl⟩
    | edit found edit =>
      cases edit with
      | confirm auth status =>
        exact map_ok.mpr ⟨_, confirmTrade_ok.mpr ⟨_, _, _, found, .confirm auth status, rfl⟩, rfl⟩
      | mark configured auth status =>
        exact map_ok.mpr
          ⟨_, markEscrowDeposited_ok.mpr ⟨_, _, _, found, .mark configured auth status, rfl⟩, rfl⟩
      | cancel auth party status =>
        exact map_ok.mpr
          ⟨_, cancelTrade_ok.mpr ⟨_, _, _, found, .cancel auth party status, rfl⟩, rfl⟩
      | expire due status =>
        exact map_ok.mpr ⟨_, expireTrade_ok.mpr ⟨_, _, _, found, .expire due status, rfl⟩, rfl⟩
      | settle status =>
        exact map_ok.mpr
          ⟨_, (settleTrade_ok env).mpr ⟨_, _, _, found, .settle status, rfl⟩, rfl⟩
    | get found => exact map_ok.mpr ⟨_, okOr_ok.mpr found, rfl⟩
    | list => rfl

theorem machine_ok {self : Address} {tx : Tx Call} {s t : State} {r : Return} :
    (machine self).exec tx s = .ok (r, t) ↔ Step (tx.env self) s tx.call r t := exec_ok

end Azaka.TradeContract
