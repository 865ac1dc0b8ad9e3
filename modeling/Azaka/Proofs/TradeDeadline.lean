import Azaka.Proofs.TradeFinality

namespace Azaka.TradeContract
open Keyed Stepwise

/-- The calls that carry the trade on. -/
def Call.advances (id : UInt64) : Call → Bool
  | .confirmTrade j _ | .markEscrowDeposited j | .settleTrade j => j == id
  | _ => false

/-- The expiry ledger as a hard deadline for one trade at ledger `n`. A call
that everybody authorised has nothing but the deadline to fail on. -/
structure HardDeadline (contract : Address) (s : State) (id : UInt64) (n : UInt32) : Prop where
  closed : ∀ tx, tx.sequence = n → tx.call.advances id = true → ¬ (machine contract).Accepts s tx
  code : ∀ tx, tx.sequence = n → tx.call.advances id = true → (∀ a, tx.auth a = true) →
    (machine contract).exec tx s = .error (.error .tradeExpired)
  apart : ∀ tx tx', tx.sequence = n → tx'.sequence = n → tx.call = .settleTrade id →
    tx'.call = .expireTrade id →
    ¬ ((machine contract).Accepts s tx ∧ (machine contract).Accepts s tx')

/-- The error declared for late calls is never returned. -/
theorem exec_never_expired (env : Env) (s : State) (c : Call) :
    exec env s c ≠ .error (.error .tradeExpired) := by
  cases c with
  | init e d =>
    rw [exec, ne_eq, map_error, init]
    split <;> simp
  | createTrade p => simp [exec, map_error, createTrade, bind_error]
  | confirmTrade id b => simp [exec, map_error, confirmTrade, updateTrade, bind_error]
  | markEscrowDeposited id => simp [exec, map_error, markEscrowDeposited, updateTrade, bind_error]
  | cancelTrade id a => simp [exec, map_error, cancelTrade, updateTrade, bind_error]
  | expireTrade id => simp [exec, map_error, expireTrade, updateTrade, bind_error]
  | settleTrade id => simp [exec, map_error, settleTrade, updateTrade, bind_error]
  | getTrade id => simp [exec, map_error, getTrade]
  | listTradesByExporter e => simp [exec]

variable (self : Address)

/-- The ledger plays no part in the guards of the calls that carry a trade on. -/
theorem advance_accepted_iff {s : State} {id : UInt64} {trade : Trade}
    (found : s.trades id = some trade) (n : UInt32) :
    (∃ tx : Tx Call, tx.sequence = n ∧ tx.call.advances id = true ∧
      (machine self).Accepts s tx) ↔
      trade.status.terminal = false ∧
        ¬ (trade.status = .active ∧ s.escrowContract = none) := by
  constructor
  · intro h
    obtain ⟨tx, -, hadv, r, t, hexec⟩ := h
    have hstep := machine_ok.mp hexec
    generalize hc : tx.call = c at hstep hadv
    have htarget : c.target = some id := by
      cases c <;> simp_all [Call.advances, Call.target]
    obtain ⟨old, _, _, hold, edit, -⟩ := hstep.of_target htarget
    obtain rfl := Option.some.inj (hold.symm.trans found)
    cases edit with
    | confirm _ status | settle status => simp [status, TradeStatus.terminal]
    | mark configured _ status => simp [status, configured, TradeStatus.terminal]
    | cancel _ _ _ | expire _ _ => cases hadv
  · intro h
    obtain ⟨unended, hmark⟩ := h
    -- everybody signs, so only the status decides
    let late (c : Call) : Tx Call := ⟨fun _ => true, n, c⟩
    have accept : ∀ c trade' event,
        Edit ((late c).env self) s.escrowContract c id trade trade' event →
        c.advances id = true → ∃ tx : Tx Call, tx.sequence = n ∧ tx.call.advances id = true ∧
          (machine self).Accepts s tx :=
      fun c trade' event edit hadv => ⟨late c, rfl, hadv, _, _, machine_ok.mpr (.edit found edit)⟩
    cases hs : trade.status with
    | pendingEscrow =>
      exact accept (.confirmTrade id self) _ _ (.confirm rfl hs) (by simp [Call.advances])
    | active =>
      cases he : s.escrowContract with
      | none => exact absurd ⟨hs, he⟩ hmark
      | some e =>
        exact accept (.markEscrowDeposited id) _ _ (.mark he rfl hs) (by simp [Call.advances])
    | documentsPending =>
      exact accept (.settleTrade id) _ _ (.settle hs) (by simp [Call.advances])
    | settled | cancelled | expired =>
      rw [hs] at unended
      cases unended

/-- From the expiry ledger on, a trade can be settled and expired alike exactly
while its documents are pending. -/
theorem settle_or_expire_iff {s : State} {id : UInt64} {trade : Trade}
    (found : s.trades id = some trade) {n : UInt32} (due : trade.expiryLedger ≤ n) :
    (∃ tx tx' : Tx Call, tx.sequence = n ∧ tx'.sequence = n ∧ tx.call = .settleTrade id ∧
      tx'.call = .expireTrade id ∧ (machine self).Accepts s tx ∧ (machine self).Accepts s tx') ↔
      trade.status = .documentsPending := by
  constructor
  · intro h
    obtain ⟨tx, -, -, -, hc, -, ⟨r, t, hexec⟩, -⟩ := h
    have hstep := machine_ok.mp hexec
    rw [hc] at hstep
    obtain ⟨old, _, _, hold, edit, -⟩ := hstep.of_target rfl
    obtain rfl := Option.some.inj (hold.symm.trans found)
    cases edit with
    | settle status => exact status
  · intro hs
    refine ⟨⟨fun _ => true, n, .settleTrade id⟩, ⟨fun _ => true, n, .expireTrade id⟩,
      rfl, rfl, rfl, rfl, ⟨_, _, machine_ok.mpr (.edit found (.settle hs))⟩, ?_⟩
    exact expire_accepted self rfl found due (by rw [hs]; decide)

/-- In every reachable state the deadline fails for every trade it has passed.
Setting the error code aside, it closes exactly the trades that have ended, and
the active ones of a contract that was never initialised. -/
theorem deadline_never_hard (ls : List (Tx Call)) {id : UInt64} {trade : Trade} {n : UInt32}
    (found : ((machine self).run .empty ls).trades id = some trade)
    (due : trade.expiryLedger ≤ n) :
    ¬ HardDeadline self ((machine self).run .empty ls) id n ∧
    ((∀ tx : Tx Call, tx.sequence = n → tx.call.advances id = true →
        ¬ (machine self).Accepts ((machine self).run .empty ls) tx) ↔
      trade.status.terminal = true ∨ (trade.status = .active ∧
        ((machine self).run .empty ls).escrowContract = none)) ∧
    ((∃ tx tx' : Tx Call, tx.sequence = n ∧ tx'.sequence = n ∧ tx.call = .settleTrade id ∧
        tx'.call = .expireTrade id ∧
        (machine self).Accepts ((machine self).run .empty ls) tx ∧
        (machine self).Accepts ((machine self).run .empty ls) tx') ↔
      trade.status = .documentsPending) := by
  refine ⟨?_, ?_, settle_or_expire_iff self found due⟩
  · intro hd
    let tx : Tx Call := ⟨fun _ => true, n, .confirmTrade id self⟩
    have hcode := hd.code tx rfl (by simp [tx, Call.advances]) (fun _ => rfl)
    exact exec_never_expired (tx.env self) _ tx.call hcode
  · have haccept := advance_accepted_iff self found n
    constructor
    · intro hclosed
      by_contra hne
      rw [not_or, Bool.not_eq_true] at hne
      obtain ⟨tx, hn, hadv, hacc⟩ := haccept.mpr hne
      exact hclosed tx hn hadv hacc
    · intro hstatus tx hn hadv hacc
      obtain ⟨hopen, hmark⟩ := haccept.mp ⟨tx, hn, hadv, hacc⟩
      rcases hstatus with hstatus | hstatus
      · rw [hopen] at hstatus
        cases hstatus
      · exact hmark hstatus

/-- A trade whose escrow deposit was marked in time. -/
def pendingRun : List (Tx Call) :=
  [signed [] 1 (.init (.contract 5) (.contract 6)),
   signed [.account 3] 2 (.createTrade letterOfCredit),
   signed [.account 8] 3 (.confirmTrade 1 (.account 8)),
   signed [.contract 5] 4 (.markEscrowDeposited 1)]

/-- At its expiry ledger, 10, the trade can be settled and expired alike. -/
theorem pending_run_no_deadline :
    ¬ HardDeadline (.contract 7) ((machine (.contract 7)).run .empty pendingRun) 1 10 := by
  intro h
  exact h.apart (signed [] 10 (.settleTrade 1)) (signed [] 10 (.expireTrade 1)) rfl rfl rfl rfl
    ⟨⟨_, _, rfl⟩, ⟨_, _, rfl⟩⟩

theorem pending_run_settles_or_expires :
    ∃ tx tx' : Tx Call, tx.sequence = 10 ∧ tx'.sequence = 10 ∧ tx.call = .settleTrade 1 ∧
      tx'.call = .expireTrade 1 ∧
      (machine (.contract 7)).Accepts ((machine (.contract 7)).run .empty pendingRun) tx ∧
      (machine (.contract 7)).Accepts ((machine (.contract 7)).run .empty pendingRun) tx' :=
  (deadline_never_hard (.contract 7) pendingRun rfl (by decide)).2.2.mpr rfl

end Azaka.TradeContract
