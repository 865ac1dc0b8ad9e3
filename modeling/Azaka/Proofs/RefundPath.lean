import Azaka.Proofs.Lifecycle

namespace Azaka
open Keyed Stepwise

namespace TradeContract

/-- How a trade ends that is not settled. -/
inductive Exit where
  | expire
  | cancel (caller : Address)

def Exit.call (id : UInt64) : Exit → Call
  | .expire => .expireTrade id
  | .cancel caller => .cancelTrade id caller

def Exit.status : Exit → TradeStatus
  | .expire => .expired
  | .cancel _ => .cancelled

/-- What an exit needs after so many steps: the deadline has come, or a party
cancels before the deposit is marked. -/
def Exit.Allowed (deal : Deal) (steps : Nat) (sequence : UInt32) : Exit → Prop
  | .expire => deal.params.expiryLedger ≤ sequence
  | .cancel caller => (caller = deal.params.exporter ∨ caller = deal.params.importer) ∧ steps ≤ 1

/-- The steps a trade may take before it ends. -/
def progressCalls (deal : Deal) (id : UInt64) (steps : Nat) : List Call :=
  [.confirmTrade id deal.confirmingBank, .markEscrowDeposited id].take steps

/-- The trade has come this far, on the terms it was opened on. -/
structure Reached (deal : Deal) (steps : Nat) (trade : Trade) : Prop where
  exporter : trade.exporter = deal.params.exporter
  importer : trade.importer = deal.params.importer
  expiryLedger : trade.expiryLedger = deal.params.expiryLedger
  early : steps ≤ 1 → trade.status = .pendingEscrow ∨ trade.status = .active
  unsettled : trade.status ≠ .settled

/-- Apart from events and the record of this trade, nothing has changed. -/
structure Untouched (id : UInt64) (s t : State) : Prop where
  escrow : t.escrowContract = s.escrowContract
  document : t.documentContract = s.documentContract
  counter : t.tradeCounter = s.tradeCounter
  listed : t.exporterTrades = s.exporterTrades
  others : ∀ j, j ≠ id → t.trades j = s.trades j

theorem Untouched.edited {id : UInt64} {s t : State} (h : Untouched id s t) (trade : Trade)
    (event : TradeEvent) : Untouched id s (t.edited id trade event) :=
  ⟨h.escrow, h.document, h.counter, h.listed,
    fun j hj => (Store.set_of_ne hj).trans (h.others j hj)⟩

variable (self : Address)

theorem progress_succeeds {s : State} {escrow : Address} (hs : s.escrowContract = some escrow)
    {id : UInt64} {env : Env} (deal : Deal) (found : s.trades id = some (opened env deal.params id))
    (steps : Nat) {txs : List (Tx Call)} (h : Mocked txs (progressCalls deal id steps)) :
    ∃ t trade, (machine self).Succeeds s txs t ∧ t.trades id = some trade ∧
      Reached deal steps trade ∧ Untouched id s t := by
  let marked : Trade := { confirmed deal id env with status := .documentsPending }
  let s₁ := s.edited id (confirmed deal id env) (.confirm id deal.confirmingBank)
  let s₂ := s₁.edited id marked (.escrow id)
  have hconfirmed : s₁.trades id = some (confirmed deal id env) := Store.set_same _ _ _
  have hmarked : s₂.trades id = some marked := Store.set_same _ _ _
  have huntouched : Untouched id s s := ⟨rfl, rfl, rfl, rfl, fun _ _ => rfl⟩
  match steps, h with
  | 0, h =>
    obtain ⟨⟩ := h
    exact ⟨s, _, .nil, found, ⟨rfl, rfl, rfl, fun _ => .inl rfl, by simp [opened]⟩,
      huntouched⟩
  | 1, h =>
    obtain _ | @⟨confirm, _, _, _, ⟨hconfirm, hconfirmer⟩, ⟨⟩⟩ := h
    have h₁ : (machine self).exec confirm s = .ok (.unit, s₁) :=
      call_ok self hconfirm (.edit found (.confirm (hconfirmer _) rfl))
    refine ⟨s₁, _, .cons h₁ .nil, hconfirmed, ?_, huntouched.edited _ _⟩
    exact ⟨rfl, rfl, rfl, fun _ => .inr rfl, by simp [confirmed]⟩
  | n + 2, h =>
    obtain _ | @⟨confirm, _, _, _, ⟨hconfirm, hconfirmer⟩, _ | @⟨mark, _, _, _, ⟨hmark, hescrow⟩,
      hrest⟩⟩ := h
    rw [List.take_nil] at hrest
    obtain ⟨⟩ := hrest
    have h₁ : (machine self).exec confirm s = .ok (.unit, s₁) :=
      call_ok self hconfirm (.edit found (.confirm (hconfirmer _) rfl))
    have h₂ : (machine self).exec mark s₁ = .ok (.unit, s₂) :=
      call_ok self hmark (.edit hconfirmed (.mark hs (hescrow _) rfl))
    refine ⟨s₂, marked, .cons h₁ (.cons h₂ .nil), hmarked, ?_,
      (huntouched.edited _ _).edited _ _⟩
    exact ⟨rfl, rfl, rfl, by omega, by simp [marked]⟩

/-- A trade that has come this far takes the exit it is allowed. -/
theorem exit_succeeds {s : State} {id : UInt64} {deal : Deal} {steps : Nat} {trade : Trade}
    (found : s.trades id = some trade) (h : Reached deal steps trade) (exit : Exit) {tx : Tx Call}
    (hcall : tx.call = exit.call id) (auth : ∀ a, tx.auth a = true)
    (allowed : exit.Allowed deal steps tx.sequence) :
    ∃ event, (machine self).exec tx s =
      .ok (.unit, s.edited id { trade with status := exit.status } event) := by
  cases exit with
  | expire =>
    have hdue : trade.expiryLedger ≤ tx.sequence := h.expiryLedger ▸ allowed
    exact ⟨_, call_ok self hcall (.edit found (.expire hdue h.unsettled))⟩
  | cancel caller =>
    obtain ⟨hparty, hearly⟩ := allowed
    rw [← h.exporter, ← h.importer] at hparty
    exact ⟨_, call_ok self hcall (.edit found (.cancel (auth _) hparty (h.early hearly)))⟩

def abandonCalls (deal : Deal) (id : UInt64) (steps : Nat) (exit : Exit) : List Call :=
  .createTrade deal.params :: (progressCalls deal id steps ++ [exit.call id])

/-- A trade is opened, comes some way, and ends without a settlement. -/
theorem abandon_succeeds {s : State} {escrow : Address} (hs : s.escrowContract = some escrow)
    (room : s.counter.toNat + 1 < 2 ^ 64) (deal : Deal) (steps : Nat) (exit : Exit)
    {txs : List (Tx Call)} (h : Mocked txs (abandonCalls deal (s.counter + 1) steps exit))
    (allowed : ∀ tx ∈ txs, tx.call = exit.call (s.counter + 1) →
      exit.Allowed deal steps tx.sequence) :
    ∃ t trade, (machine self).Succeeds s txs t ∧ t.trades (s.counter + 1) = some trade ∧
      trade.status = exit.status ∧
      ∃ tx ∈ txs, tx.call = .createTrade deal.params ∧
        Untouched (s.counter + 1) (s.created (tx.env self) deal.params) t := by
  obtain _ | @⟨create, _, rest, _, ⟨hcreate, hbank⟩, hrest⟩ := h
  have hprogress := List.forall₂_take_append _ _ _ hrest
  have hexit := List.forall₂_drop_append _ _ _ hrest
  have hsplit := List.take_append_drop (progressCalls deal (s.counter + 1) steps).length rest
  generalize rest.take (progressCalls deal (s.counter + 1) steps).length = progress at *
  generalize rest.drop (progressCalls deal (s.counter + 1) steps).length = last at *
  obtain _ | @⟨tx, _, _, _, ⟨hcall, hauth⟩, ⟨⟩⟩ := hexit
  subst hsplit
  let s₁ := s.created (create.env self) deal.params
  have h₁ : (machine self).exec create s = .ok (.tradeId (s.counter + 1), s₁) :=
    call_ok self hcreate (.create (hbank _) room)
  have hopened : s₁.trades (s.counter + 1) =
    some (opened (create.env self) deal.params (s.counter + 1)) := Store.set_same _ _ _
  obtain ⟨t, trade, hsucceeds, found, hreached, huntouched⟩ :=
    progress_succeeds self (s := s₁) hs deal hopened steps hprogress
  obtain ⟨event, hlast⟩ := exit_succeeds self found hreached exit hcall hauth
    (allowed tx (by simp) hcall)
  refine ⟨_, _, .cons h₁ (hsucceeds.append (.cons hlast .nil)), Store.set_same _ _ _, rfl,
    create, by simp, hcreate, huntouched.edited _ _⟩

end TradeContract

namespace Network
variable {tok : Token} {sites : Sites} {admin : Address}

/-- The calls of a deal that comes to nothing. The importer deposits and is
refunded at any time, before or after the trade ends. -/
structure Abandons (deal : Deal) (id : UInt64) (steps : Nat) (exit : TradeContract.Exit)
    (ls : List (Label tok)) : Prop where
  trade : Mocked (trades ls) (TradeContract.abandonCalls deal id steps exit)
  allowed : ∀ tx ∈ trades ls, tx.call = exit.call id → exit.Allowed deal steps tx.sequence
  escrow : ∃ txs, escrows ls = txs.map .call ∧ Mocked txs
    [.deposit id deal.params.importer deal.params.amount, .refund id deal.params.importer]
  document : documents ls = []
  registry : registries ls = []

/-- The trade is over and on the exporter's list, and the ids and the published
events have moved on. Everything else is as it was, all balances included. -/
structure Undone (sites : Sites) (deal : Deal) (id : UInt64) (status : TradeStatus)
    (s t : State tok) : Prop where
  trade : ∃ trade, t.1.1.trades id = some trade ∧ trade.status = status
  others : ∀ j, j ≠ id → t.1.1.trades j = s.1.1.trades j
  counter : t.1.1.tradeCounter = some id
  listed : t.1.1.exporterTrades = s.1.1.exporterTrades.set deal.params.exporter
    (TradeContract.listTradesByExporter deal.params.exporter s.1.1 ++ [id])
  escrowContract : t.1.1.escrowContract = s.1.1.escrowContract
  documentContract : t.1.1.documentContract = s.1.1.documentContract
  escrow : t.1.2.1 = { s.1.2.1 with
    events := s.1.2.1.events ++
      [.deposit id deal.params.importer deal.params.amount,
        .refund id deal.params.importer deal.params.amount] }
  entries : t.1.2.1.balances = s.1.2.1.balances
  refunded : ∀ c, tok.balance t.1.2.2 sites.token c = tok.balance s.1.2.2 sites.token c
  documents : t.2.1 = s.2.1
  participants : t.2.2 = s.2.2

/-- Every letter of credit can be given up in a test that mocks all
authorisations. As long as ids are left, nobody has used the next one for a
deposit and the importer can pay, a due trade expires wherever it stands, a party
cancels one that is not marked yet, and the importer gets back all that was
deposited. -/
theorem abandoned_deals_refunded (std : tok.Standard sites.token) (ledger : tok.Ledger)
    (before : List (Label tok)) {deal : Deal} {steps : Nat} {exit : TradeContract.Exit}
    (hopen : Open sites deal ((machine tok sites).run (deployed sites admin ledger) before))
    {ls : List (Label tok)}
    (h : Abandons deal
      (((machine tok sites).run (deployed sites admin ledger) before).1.1.counter + 1) steps exit
      ls) :
    (machine tok sites).Along (machine tok sites).Accepts
        ((machine tok sites).run (deployed sites admin ledger) before) ls ∧
      Undone sites deal
        (((machine tok sites).run (deployed sites admin ledger) before).1.1.counter + 1)
        exit.status ((machine tok sites).run (deployed sites admin ledger) before)
        ((machine tok sites).run (deployed sites admin ledger) (before ++ ls)) := by
  have hconf := run_configured (deployed_configured sites admin ledger) before
  rw [Machine.run_append]
  generalize (machine tok sites).run (deployed sites admin ledger) before = s at *
  obtain ⟨t, trade, htrade, found, hstatus, create, -, -, huntouched⟩ :=
    TradeContract.abandon_succeeds sites.trade hconf.escrow hopen.room deal steps exit h.trade
      h.allowed
  obtain ⟨txs, hescrows, htxs⟩ := h.escrow
  obtain ⟨v, hpayment, hentries, hpaid⟩ := EscrowContract.payment_succeeds sites.escrow std
    hconf.trade hconf.token hopen.vacant hopen.positive hopen.funds .refund htxs
  have hescrow : (EscrowContract.machine tok sites.escrow).Succeeds s.1.2 (escrows ls) v :=
    hescrows ▸ hpayment
  have hdocument :
      (DocumentContract.machine sites.document).Succeeds s.2.1 (documents ls) s.2.1 := by
    rw [h.document]
    exact .nil
  have hregistry :
      (RegistryContract.machine sites.registry).Succeeds s.2.2 (registries ls) s.2.2 := by
    rw [h.registry]
    exact .nil
  have hsucceeds : (machine tok sites).Succeeds s ls ((t, v), s.2.1, s.2.2) :=
    .beside (.beside htrade hescrow) (.beside hdocument hregistry)
  refine ⟨hsucceeds.accepts, ?_⟩
  rw [hsucceeds.run_eq]
  have hbalances : v.1.balances = s.1.2.1.balances := by rw [hentries]
  refine ⟨⟨trade, found, hstatus⟩, ?_, huntouched.counter, huntouched.listed, huntouched.escrow,
    huntouched.document, hentries, hbalances, ?_, rfl, rfl⟩
  · intro j hj
    exact (huntouched.others j hj).trans (Store.set_of_ne hj)
  · intro c
    rw [hpaid c]
    omega

/-- A deposit on a trade that nobody confirms, and that expires. -/
def overdueRun : List (Label plainToken) :=
  [.inl (.inl (mocked 1 (.createTrade testDeal.params))),
   .inl (.inr (.call (mocked 2 (.deposit 1 (.account 2) 500)))),
   .inl (.inl (mocked 11 (.expireTrade 1))),
   .inl (.inr (.call (mocked 12 (.refund 1 (.account 2)))))]

theorem overdue_run_refunded :
    Undone testSites testDeal 1 .expired (deployed testSites (.account 0) EscrowContract.funded)
      ((machine plainToken testSites).run
        (deployed testSites (.account 0) EscrowContract.funded) overdueRun) := by
  have hopen : Open testSites testDeal ((machine plainToken testSites).run
      (deployed testSites (.account 0) EscrowContract.funded) []) :=
    ⟨by decide, rfl, by decide, by decide⟩
  have hcalls : Abandons testDeal 1 0 .expire overdueRun := by
    refine ⟨?_, ?_, ?_, rfl, rfl⟩
    · exact .cons ⟨rfl, fun _ => rfl⟩ (.cons ⟨rfl, fun _ => rfl⟩ .nil)
    · intro tx htx hcall
      have hmem : tx ∈ [mocked 1 (.createTrade testDeal.params), mocked 11 (.expireTrade 1)] := htx
      rcases List.mem_pair.mp hmem with rfl | rfl
      · cases hcall
      · exact (by decide : (10 : UInt32) ≤ 11)
    · exact ⟨[mocked 2 (.deposit 1 (.account 2) 500), mocked 12 (.refund 1 (.account 2))], rfl,
        .cons ⟨rfl, fun _ => rfl⟩ (.cons ⟨rfl, fun _ => rfl⟩ .nil)⟩
  exact (abandoned_deals_refunded (plain_token_standard _) EscrowContract.funded [] hopen hcalls).2

end Network
end Azaka
