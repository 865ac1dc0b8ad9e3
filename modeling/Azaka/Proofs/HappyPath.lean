import Azaka.Proofs.CustodySteps
import Azaka.Proofs.TradeFinality

namespace Azaka.Custody
open Keyed Stepwise

variable {tok : Token} {d : Deployment}

/-- Some calls on, `settle_trade` succeeds. -/
def Completable (d : Deployment) (s : State tok) (id : UInt64) : Prop :=
  ∃ ls i, (∀ l ∈ ls, Legal d l) ∧ Legal d (.trade i : Label tok) ∧
    i.call = .settleTrade id ∧ (machine tok d).Accepts ((machine tok d).run s ls) (.trade i)

/-- No deposit has been marked for any trade. -/
def Unmarked (s : State tok) : Prop :=
  ∀ id trade, s.1.trades id = some trade →
    trade.status ≠ .documentsPending ∧ trade.status ≠ .settled

/-- The call the escrow would have to make after a deposit. -/
def markCall (d : Deployment) (id : UInt64) (sequence : UInt32) :
    Invocation TradeContract.Call where
  signed _ := false
  caller := some d.escrow
  sequence := sequence
  call := .markEscrowDeposited id

/-- `mark_escrow_deposited` takes the escrow's authorisation, and the escrow
calls nobody but the token. -/
theorem edit_unmarked {s : TradeContract.State} {i : Invocation TradeContract.Call}
    (configured : s.escrowContract = some d.escrow) (legal : Legal d (.trade i : Label tok))
    {id : UInt64} {trade trade' : Trade} {event : TradeEvent}
    (edit : TradeContract.Edit ((i.tx d).env d.trade) s.escrowContract i.call id trade trade' event)
    (hs : trade.status ≠ .documentsPending) :
    trade'.status ≠ .documentsPending ∧ trade'.status ≠ .settled := by
  generalize i.call = c at edit
  cases edit with
  | mark found auth _ =>
    obtain rfl := Option.some.inj (configured.symm.trans found)
    have hauth : i.authorises d d.escrow = true := auth
    rw [unauthorised (.inr rfl) legal.2] at hauth
    cases hauth
  | settle status => exact absurd status hs
  | confirm _ _ | cancel _ _ _ | expire _ _ => exact ⟨by simp, by simp⟩

theorem step_unmarked {s t : State tok} {l : Label tok} {r : Return} (hs : Wired d s)
    (legal : Legal d l) (h : (machine tok d).exec l s = .ok (r, t)) (hu : Unmarked s) :
    Unmarked t := by
  intro id trade found
  rcases exec_cases h with ⟨i, r', rfl, hstep, -⟩ | ⟨i, r', rfl, -, hrest⟩ | ⟨_, rfl, rfl⟩
  · rcases hstep.origin found with hold | ⟨p, -, -, rfl⟩ | ⟨old, event, hold, edit, -⟩
    · exact hu id trade hold
    · exact ⟨by simp [TradeContract.opened], by simp [TradeContract.opened]⟩
    · exact edit_unmarked hs.escrow legal edit (hu id old hold).1
  · rw [hrest] at found
    exact hu id trade found
  · exact hu id trade found

theorem run_unmarked {s : State tok} (hs : Wired d s) (hu : Unmarked s) {ls : List (Label tok)}
    (legal : ∀ l ∈ ls, Legal d l) : Unmarked ((machine tok d).run s ls) := by
  refine (Machine.run_invariant_along (P := fun t => Wired d t ∧ Unmarked t) ?_ ⟨hs, hu⟩
    (Machine.along_of_mem s legal)).2
  intro a l r b ha hl hexec
  exact ⟨step_wired ha.1 hexec, step_unmarked ha.1 hl hexec ha.2⟩

theorem deployed_unmarked (d : Deployment) (ledger : tok.Ledger) :
    Unmarked (deployed d ledger) := by
  intro id trade found
  cases found

/-- Without the mark there is no settlement. -/
theorem not_completable {s : State tok} (hs : Wired d s) (hu : Unmarked s) (id : UInt64) :
    ¬ Completable d s id := by
  intro h
  obtain ⟨ls, i, hls, -, hc, r, t, hexec⟩ := h
  have hend := run_unmarked hs hu hls
  rcases exec_cases hexec with ⟨_, r', ⟨⟩, hstep, -⟩ | ⟨_, _, ⟨⟩, -⟩ | ⟨_, ⟨⟩, -⟩
  rw [hc] at hstep
  obtain ⟨trade, _, _, found, edit, -⟩ := hstep.of_target rfl
  cases edit with
  | settle status => exact (hend id trade found).1 status

/-- One call by the escrow would be enough: it is accepted for every active
trade, and settlement is accepted after it. -/
theorem mark_completes {s : State tok} (hs : Wired d s) {id : UInt64} {trade : Trade}
    (found : s.1.trades id = some trade) (active : trade.status = .active)
    (sequence : UInt32) {i : Invocation TradeContract.Call} (hc : i.call = .settleTrade id) :
    (machine tok d).Accepts s (.trade (markCall d id sequence)) ∧
      (machine tok d).Accepts ((machine tok d).next s (.trade (markCall d id sequence)))
        (.trade i) := by
  have hauth : (markCall d id sequence).authorises d d.escrow = true := by
    simp [markCall, Invocation.authorises]
  have hmark : TradeContract.Step (((markCall d id sequence).tx d).env d.trade) s.1
      (.markEscrowDeposited id) .unit _ := .edit found (.mark hs.escrow hauth active)
  have hexec := trade_step hmark
  refine ⟨⟨_, _, hexec⟩, ?_⟩
  rw [Machine.next_ok hexec]
  have hsettle : TradeContract.Step ((i.tx d).env d.trade)
      (s.1.edited id { trade with status := .documentsPending } (.escrow id))
      (.settleTrade id) .unit _ := .edit (Store.set_same _ _ _) (.settle rfl)
  exact ⟨_, _, trade_step (hc ▸ hsettle)⟩

/-- The happy path is never completed: no reachable state has a continuation in
which any trade is settled. What is missing, for every active trade, is the one
call that the escrow does not make. -/
theorem happy_path_never_completes (ledger : tok.Ledger) {ls : List (Label tok)}
    (legal : ∀ l ∈ ls, Legal d l) (id : UInt64) :
    ¬ Completable d ((machine tok d).run (deployed d ledger) ls) id ∧
    ∀ trade, ((machine tok d).run (deployed d ledger) ls).1.trades id = some trade →
      trade.status = .active → ∀ sequence i, i.call = .settleTrade id →
      (machine tok d).Accepts ((machine tok d).run (deployed d ledger) ls)
        (.trade (markCall d id sequence)) ∧
      (machine tok d).Accepts ((machine tok d).run (deployed d ledger)
        (ls ++ [.trade (markCall d id sequence)])) (.trade i) := by
  have hwired := run_wired (deployed_wired d ledger) ls
  refine ⟨?_, ?_⟩
  · exact not_completable hwired
      (run_unmarked (deployed_wired d ledger) (deployed_unmarked d ledger) legal) id
  · intro trade found active sequence i hc
    rw [Machine.run_concat]
    exact mark_completes hwired found active sequence hc

/-- The importer has paid in full and in time, at ledger 3 of 10, and the trade
cannot be settled. -/
theorem importer_run_never_completes : (∀ l ∈ importerRun, Legal network l) ∧ ∃ trade,
    ((machine plainToken network).run (deployed network EscrowContract.funded)
      importerRun).1.trades 1 = some trade ∧ trade.status = .active ∧ 3 < trade.expiryLedger ∧
    ((machine plainToken network).run (deployed network EscrowContract.funded)
      importerRun).2.1.balances 1 = some trade.amount ∧
    ¬ Completable network ((machine plainToken network).run
      (deployed network EscrowContract.funded) importerRun) 1 := by
  have hlegal : ∀ l ∈ importerRun, Legal network l := by
    simp [importerRun, Legal, Label.caller, invoked]
  refine ⟨hlegal, _, rfl, rfl, by decide, rfl, ?_⟩
  exact not_completable (run_wired (deployed_wired _ _) _)
    (run_unmarked (deployed_wired _ _) (deployed_unmarked _ _) hlegal) 1

theorem importer_run_stays_open : ¬ Completable network ((machine plainToken network).run
    (deployed network EscrowContract.funded) importerRun) 1 :=
  (happy_path_never_completes (d := network) EscrowContract.funded
    (by simp [importerRun, Legal, Label.caller, invoked]) 1).1

end Azaka.Custody
