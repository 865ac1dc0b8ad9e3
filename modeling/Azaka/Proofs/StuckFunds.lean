import Azaka.Proofs.CustodySteps

namespace Azaka.Custody
open Keyed Stepwise

variable {tok : Token}

/-- Every entry can still be paid out: some calls on, a release or refund of it
succeeds. -/
def Recoverable (d : Deployment) (s : State tok) : Prop :=
  ∀ id amount, s.2.1.balances id = some amount → ∃ ls kind recipient i,
    (∀ l ∈ ls, Legal d l) ∧ Legal d (.escrow i : Label tok) ∧
    i.call = EscrowContract.Payout.call kind id recipient ∧
    ((machine tok d).run s ls).2.1.balances id = some amount ∧
    (machine tok d).Accepts ((machine tok d).run s ls) (.escrow i)

/-- No entry is stuck in any state of the run. -/
def NeverStuck (d : Deployment) (ledger : tok.Ledger) (ls : List (Label tok)) : Prop :=
  ∀ pre post, ls = pre ++ post → Recoverable d ((machine tok d).run (deployed d ledger) pre)

variable {d : Deployment}

theorem not_recoverable {s : State tok} (hs : Wired d s) {id : UInt64} {amount : I128}
    (found : s.2.1.balances id = some amount) : ¬ Recoverable d s := by
  intro h
  obtain ⟨ls, kind, recipient, i, -, legal, hc, -, haccepts⟩ := h id amount found
  exact payout_refused (run_wired hs ls) legal hc haccepts

/-- No entry ever leaves the escrow. So funds are never stuck in a run only if
none get in: no deposit of the run is payable. -/
theorem funds_never_stuck_iff (std : tok.Standard d.token) (ledger : tok.Ledger)
    (ls : List (Label tok)) :
    (NeverStuck d ledger ls ↔
      (machine tok d).Along (fun s l => ∀ id amount, ¬ Payable d s l id amount)
        (deployed d ledger) ls) ∧
    ∀ id amount, ((machine tok d).run (deployed d ledger) ls).2.1.balances id = some amount →
      ∀ more, (∀ l ∈ more, Legal d l) →
        ((machine tok d).run (deployed d ledger) (ls ++ more)).2.1.balances id = some amount ∧
        ∀ kind recipient i, Legal d (.escrow i : Label tok) →
          i.call = EscrowContract.Payout.call kind id recipient →
          ¬ (machine tok d).Accepts ((machine tok d).run (deployed d ledger) (ls ++ more))
            (.escrow i) := by
  have hwired := run_wired (deployed_wired d ledger)
  refine ⟨⟨?_, ?_⟩, ?_⟩
  · intro h pre l post he id amount hpay
    have hrec := h (pre ++ [l]) post (by simp [he])
    have hfound := (payable_next std (hwired pre) hpay).2.2
    rw [← Machine.run_concat] at hfound
    exact not_recoverable (hwired _) hfound hrec
  · intro hno pre post he id amount found
    obtain ⟨a, l, b, rfl, hpay⟩ := run_entry_origin std ledger pre found
    exact absurd hpay (hno a l (b ++ post) (by simp [he]) id amount)
  · intro id amount found more hmore
    refine ⟨?_, ?_⟩
    · rw [Machine.run_append]
      exact run_entry_kept (hwired ls) hmore found
    · intro kind recipient i hi hc
      exact payout_refused (hwired (ls ++ more)) hi hc

theorem importer_run_stuck : (∀ l ∈ importerRun, Legal network l) ∧
    ¬ NeverStuck network EscrowContract.funded importerRun := by
  refine ⟨by simp [importerRun, Legal, Label.caller, invoked], ?_⟩
  intro h
  have hrec := h importerRun [] rfl
  have found : ((machine plainToken network).run (deployed network EscrowContract.funded)
      importerRun).2.1.balances 1 = some 500 := rfl
  exact not_recoverable (run_wired (deployed_wired _ _) _) found hrec

/-- Cancelling the trade and asking for a refund does not bring the money back. -/
theorem importer_run_keeps_entry : ((machine plainToken network).run
    (deployed network EscrowContract.funded) (importerRun ++
      [.trade (invoked [.account 1] 4 (.cancelTrade 1 (.account 1))),
       .escrow (invoked [.account 1, .account 2] 5 (.refund 1 (.account 2)))])).2.1.balances 1 =
    some 500 := by
  have hstuck := (funds_never_stuck_iff (d := network) (plain_token_standard _)
    EscrowContract.funded importerRun).2
  exact (hstuck 1 500 rfl _ (by simp [Legal, Label.caller, invoked])).1

end Azaka.Custody
