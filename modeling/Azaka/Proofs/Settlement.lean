import Azaka.Model.Systems
import Azaka.Proofs.DocumentRecords
import Azaka.Proofs.TradeRuns

namespace Azaka.Paperwork
open Keyed Stepwise TradeContract

/-- The required documents of every settled trade are verified. -/
def Backed (s : State) : Prop :=
  ∀ id trade, s.1.trades id = some trade → trade.status = .settled →
    DocumentContract.allDocsVerified id trade.requiredDocs s.2 = true

/-- `settle_trade` arrives at a trade that awaits its documents and does not
have them all. -/
def Premature (s : State) (l : Label) : Prop :=
  ∃ tx id trade, l = .inl tx ∧ tx.call = .settleTrade id ∧ s.1.trades id = some trade ∧
    trade.status = .documentsPending ∧
    DocumentContract.allDocsVerified id trade.requiredDocs s.2 = false

theorem edit_settles {env : Env} {escrow : Option Address} {c : Call} {id : UInt64}
    {trade trade' : Trade} {event : TradeEvent} (h : Edit env escrow c id trade trade' event)
    (settled : trade'.status = .settled) :
    c = .settleTrade id ∧ trade.status = .documentsPending := by
  cases h with
  | settle status => exact ⟨rfl, status⟩
  | confirm _ _ | mark _ _ _ | cancel _ _ _ | expire _ _ => cases settled

variable (trade document : Address)

/-- A settled record was settled before, or is settled now. -/
theorem backed_step {s t : State} {l : Label} {r : TradeContract.Return ⊕ DocumentContract.Return}
    (hs : Backed s) (hno : ¬ Premature s l)
    (he : (machine trade document).exec l s = .ok (r, t)) : Backed t := by
  intro id record found settled
  cases l with
  | inl tx =>
    obtain ⟨_, hexec, hdocs, -⟩ := Machine.beside_inl_ok.mp he
    have hstep := TradeContract.machine_ok.mp hexec
    rw [hdocs]
    rcases hstep.origin found with hold | ⟨p, -, -, rfl⟩ | ⟨old, _, hold, edit, -⟩
    · exact hs id record hold settled
    · cases settled
    · obtain ⟨hc, status⟩ := edit_settles edit settled
      obtain ⟨-, -, -, -, -, -, hdocs, -⟩ := edit.same_terms
      rw [hdocs]
      cases hv : DocumentContract.allDocsVerified id old.requiredDocs s.2 with
      | true => rfl
      | false => exact absurd ⟨tx, id, old, rfl, hc, hold, status, hv⟩ hno
  | inr tx =>
    obtain ⟨_, hexec, htrade, -⟩ := Machine.beside_inr_ok.mp he
    rw [htrade] at found
    exact (DocumentContract.machine_ok.mp hexec).all_verified (hs id record found settled)

/-- Settling asks for the status only, so a premature `settle_trade` succeeds. -/
theorem premature_settles {s : State} {l : Label} (h : Premature s l) :
    ¬ Backed ((machine trade document).next s l) := by
  obtain ⟨tx, id, record, rfl, hc, found, status, hv⟩ := h
  have hstep : Step (tx.env trade) s.1 (.settleTrade id) .unit _ := .edit found (.settle status)
  have hnext := Machine.next_ok (machine_ok.mpr (hc ▸ hstep))
  intro hb
  unfold machine at hb
  rw [Machine.beside_next_inl, hnext] at hb
  have hverified := hb id { record with status := .settled } (Store.set_same _ _ _) rfl
  rw [hv] at hverified
  cases hverified

/-- In every state of the run, settlement implies verified documents. -/
def SettledVerified (ls : List Label) : Prop :=
  ∀ pre post, ls = pre ++ post → Backed ((machine trade document).run deployed pre)

/-- Settlement follows verification in the runs whose callers see to it
themselves; `settle_trade` does not. -/
theorem settled_verified_iff (ls : List Label) :
    SettledVerified trade document ls ↔
      (machine trade document).Along (fun s l => ¬ Premature s l) deployed ls := by
  constructor
  · intro h pre l post he hpre
    have hb := h (pre ++ [l]) post (by simp [he])
    rw [Machine.run_concat] at hb
    exact premature_settles trade document hpre hb
  · intro h pre post he
    subst he
    refine Machine.run_invariant_along ?_ ?_ (Machine.along_prefix h)
    · intro s l r t hs hno hexec
      exact backed_step trade document hs hno hexec
    · intro id record found
      cases found

/-- No document is ever submitted, and the trade settles. -/
def paperlessRun : List Label :=
  [.inl (signed [] 1 (.init (.contract 5) (.contract 6))),
   .inl (signed [.account 3] 2 (.createTrade letterOfCredit)),
   .inl (signed [.account 3] 3 (.confirmTrade 1 (.account 3))),
   .inl (signed [.contract 5] 4 (.markEscrowDeposited 1)),
   .inl (signed [] 5 (.settleTrade 1))]

theorem paperless_run_settles : ¬ SettledVerified (.contract 7) (.contract 6) paperlessRun := by
  intro h
  have hb := h paperlessRun [] rfl 1 _ rfl rfl
  exact Bool.false_ne_true hb

end Azaka.Paperwork
