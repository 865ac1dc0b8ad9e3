import Azaka.Proofs.CustodySteps
import Azaka.Proofs.TradeFinality

namespace Azaka.Custody
open Keyed Stepwise

variable {tok : Token}

/-- The label is a `cancel_trade` that the trade contract lets through. -/
def Cancels (d : Deployment) (s : State tok) (l : Label tok) (id : UInt64) : Prop :=
  ∃ i caller trade, l = .trade i ∧ i.call = .cancelTrade id caller ∧
    i.authorises d caller = true ∧ s.1.trades id = some trade ∧
    (caller = trade.exporter ∨ caller = trade.importer) ∧
    (trade.status = .pendingEscrow ∨ trade.status = .active)

/-- No cancelled trade has an entry. -/
def Clear (s : State tok) : Prop :=
  ∀ id trade, s.1.trades id = some trade → trade.status = .cancelled → s.2.1.balances id = none

/-- In the run, trades are cancelled only without an entry, and none that is
cancelled has one. -/
structure NoneStranded (d : Deployment) (ledger : tok.Ledger) (ls : List (Label tok)) : Prop where
  guarded : ∀ pre i post, ls = pre ++ .trade i :: post →
    ∀ id caller, i.call = .cancelTrade id caller →
    (machine tok d).Accepts ((machine tok d).run (deployed d ledger) pre) (.trade i) →
    ((machine tok d).run (deployed d ledger) pre).2.1.balances id = none
  clear : ∀ pre post, ls = pre ++ post → Clear ((machine tok d).run (deployed d ledger) pre)

/-- No trade is cancelled after a deposit for it, and none gets a deposit while
it is cancelled. -/
structure KeptApart (d : Deployment) (ledger : tok.Ledger) (ls : List (Label tok)) : Prop where
  cancels : ∀ pre l mid l' post, ls = pre ++ l :: (mid ++ l' :: post) → ∀ id amount,
    Payable d ((machine tok d).run (deployed d ledger) pre) l id amount →
    ¬ Cancels d ((machine tok d).run (deployed d ledger) (pre ++ l :: mid)) l' id
  deposits : (machine tok d).Along (fun s l => ∀ id amount trade, Payable d s l id amount →
    s.1.trades id = some trade → trade.status ≠ .cancelled) (deployed d ledger) ls

theorem edit_cancels {env : Env} {escrow : Option Address} {c : TradeContract.Call} {id : UInt64}
    {trade trade' : Trade} {event : TradeEvent}
    (h : TradeContract.Edit env escrow c id trade trade' event)
    (cancelled : trade'.status = .cancelled) : ∃ caller, c = .cancelTrade id caller ∧
      env.auth caller = true ∧ (caller = trade.exporter ∨ caller = trade.importer) ∧
      (trade.status = .pendingEscrow ∨ trade.status = .active) := by
  cases h with
  | cancel auth party status => exact ⟨_, rfl, auth, party, status⟩
  | confirm _ _ | mark _ _ _ | expire _ _ | settle _ => cases cancelled

variable {d : Deployment}

theorem cancels_iff {s : State tok} {i : Invocation TradeContract.Call} {id : UInt64}
    {caller : Address} (hc : i.call = .cancelTrade id caller) :
    (machine tok d).Accepts s (.trade i) ↔ Cancels d s (.trade i) id := by
  refine ⟨?_, ?_⟩
  · intro h
    obtain ⟨r, t, hexec⟩ := h
    rcases exec_cases hexec with ⟨_, r', ⟨⟩, hstep, -⟩ | ⟨_, _, ⟨⟩, -⟩ | ⟨_, ⟨⟩, -⟩
    rw [hc] at hstep
    obtain ⟨trade, trade', event, found, edit, -⟩ := hstep.of_target rfl
    cases edit with
    | cancel auth party status => exact ⟨i, caller, trade, rfl, hc, auth, found, party, status⟩
  · intro h
    obtain ⟨_, caller', trade, ⟨⟩, hc', auth, found, party, status⟩ := h
    have hstep : TradeContract.Step ((i.tx d).env d.trade) s.1 (.cancelTrade id caller') .unit _ :=
      .edit found (.cancel auth party status)
    exact ⟨_, _, trade_step (hc' ▸ hstep)⟩

/-- One step keeps cancelled trades clear, if it neither cancels a trade with an
entry nor makes an entry for a cancelled one. -/
theorem clear_step (std : tok.Standard d.token) {s t : State tok} {l : Label tok}
    {r : Return} (hw : Wired d s) (hs : Clear s)
    (hcancel : ∀ id, Cancels d s l id → s.2.1.balances id = none)
    (hdeposit : ∀ id amount trade, Payable d s l id amount → s.1.trades id = some trade →
      trade.status ≠ .cancelled)
    (h : (machine tok d).exec l s = .ok (r, t)) : Clear t := by
  intro id trade found cancelled
  rcases exec_cases h with ⟨i, r', rfl, hstep, hrest⟩ | ⟨i, r', rfl, -, hrest⟩ | ⟨_, rfl, rfl⟩
  · rw [hrest]
    rcases hstep.origin found with hold | ⟨p, -, -, rfl⟩ | ⟨old, event, hold, edit, -⟩
    · exact hs id trade hold cancelled
    · cases cancelled
    · obtain ⟨caller, hc, auth, party, status⟩ := edit_cancels edit cancelled
      exact hcancel id ⟨i, caller, old, rfl, hc, auth, hold, party, status⟩
  · rw [hrest] at found
    cases hentry : t.2.1.balances id with
    | none => rfl
    | some amount =>
      rcases entry_origin std hw h hentry with hold | hnew
      · rw [hs id trade found cancelled] at hold
        cases hold
      · exact absurd cancelled (hdeposit id amount trade hnew found)
  · exact hs id trade found cancelled

/-- What was deposited for a trade is still there when the trade is cancelled. -/
theorem kept_apart_of_none_stranded (std : tok.Standard d.token) {ledger : tok.Ledger}
    {ls : List (Label tok)} (legal : ∀ l ∈ ls, Legal d l) (h : NoneStranded d ledger ls) :
    KeptApart d ledger ls := by
  have hwired := run_wired (deployed_wired d ledger)
  refine ⟨?_, ?_⟩
  · intro pre l mid l' post he id amount hpay hcancels
    have hmid : ∀ k ∈ mid, Legal d k := fun k hk => legal k (by simp [he, hk])
    obtain ⟨-, -, hentry⟩ := payable_next std (hwired pre) hpay
    rw [← Machine.run_concat] at hentry
    have hkept := run_entry_kept (hwired (pre ++ [l])) hmid hentry
    rw [← Machine.run_split] at hkept
    obtain ⟨i, caller, trade, rfl, hc, hrest⟩ := hcancels
    have haccepts := (cancels_iff hc).mpr ⟨i, caller, trade, rfl, hc, hrest⟩
    have hnone := h.guarded (pre ++ l :: mid) i post (by simp [he]) id caller hc haccepts
    rw [hkept] at hnone
    cases hnone
  · intro pre l post he id amount trade hpay found cancelled
    obtain ⟨-, hsame, hentry⟩ := payable_next std (hwired pre) hpay
    have hclear := h.clear (pre ++ [l]) post (by simp [he])
    rw [Machine.run_concat] at hclear
    have hnone := hclear id trade (by rw [hsame, found]) cancelled
    rw [hentry] at hnone
    cases hnone

/-- What a cancelled trade had in the escrow, it was given earlier in the run. -/
theorem KeptApart.cancels_vacant (std : tok.Standard d.token) {ledger : tok.Ledger}
    {ls : List (Label tok)} (h : KeptApart d ledger ls) : (machine tok d).Along
      (fun s l => ∀ id, Cancels d s l id → s.2.1.balances id = none) (deployed d ledger) ls := by
  intro pre l' post he id hcancels
  cases hentry : ((machine tok d).run (deployed d ledger) pre).2.1.balances id with
  | none => rfl
  | some amount =>
    obtain ⟨a, l, b, rfl, hpay⟩ := run_entry_origin std ledger pre hentry
    exact absurd hcancels (h.cancels a l b l' post (by simp [he]) id amount hpay)

/-- `cancel_trade` does not look at the escrow, and the escrow does not look at
the trade. Only the order of the calls keeps deposits from being stranded. -/
theorem none_stranded_iff (std : tok.Standard d.token) (ledger : tok.Ledger) {ls : List (Label tok)}
    (legal : ∀ l ∈ ls, Legal d l) : NoneStranded d ledger ls ↔ KeptApart d ledger ls := by
  refine ⟨kept_apart_of_none_stranded std legal, ?_⟩
  intro h
  have hvacant := h.cancels_vacant std
  refine ⟨?_, ?_⟩
  · intro pre i post he id caller hc haccepts
    exact hvacant pre (.trade i) post he id ((cancels_iff hc).mp haccepts)
  · intro pre post he
    have along : (machine tok d).Along (fun s l =>
        (∀ id, Cancels d s l id → s.2.1.balances id = none) ∧
        ∀ id amount trade, Payable d s l id amount → s.1.trades id = some trade →
          trade.status ≠ .cancelled) (deployed d ledger) ls :=
      fun a l b hab => ⟨hvacant a l b hab, h.deposits a l b hab⟩
    subst he
    refine (Machine.run_invariant_along (P := fun s => Wired d s ∧ Clear s) ?_
      ⟨deployed_wired d ledger, ?_⟩ (Machine.along_prefix along)).2
    · intro s l r t hs hl hexec
      exact ⟨step_wired hs.1 hexec, clear_step std hs.1 hs.2 hl.1 hl.2 hexec⟩
    · intro id trade found
      cases found

/-- The exporter cancels an active trade with the importer's money in escrow. -/
def lateCancelRun : List (Label plainToken) :=
  importerRun ++ [.trade (invoked [.account 1] 4 (.cancelTrade 1 (.account 1)))]

theorem late_cancel_run_strands : (∀ l ∈ lateCancelRun, Legal network l) ∧
    ¬ NoneStranded network EscrowContract.funded lateCancelRun := by
  refine ⟨by simp [lateCancelRun, importerRun, Legal, Label.caller, invoked], ?_⟩
  intro h
  have hnone := h.clear lateCancelRun [] rfl 1 _ rfl rfl
  have hentry : ((machine plainToken network).run (deployed network EscrowContract.funded)
      lateCancelRun).2.1.balances 1 = some 500 := rfl
  rw [hentry] at hnone
  cases hnone

/-- The exporter cancels before any deposit. -/
def earlyCancelRun : List (Label plainToken) :=
  [.trade (invoked [.account 3] 1 (.createTrade TradeContract.letterOfCredit)),
   .trade (invoked [.account 1] 2 (.cancelTrade 1 (.account 1)))]

theorem early_cancel_run_strands_nothing :
    NoneStranded network EscrowContract.funded earlyCancelRun := by
  have hno : ∀ l ∈ earlyCancelRun, ∀ s id amount, ¬ Payable network s l id amount := by
    intro l hl s id amount hpay
    obtain ⟨i, depositor, rfl, -⟩ := hpay
    simp [earlyCancelRun] at hl
  refine (none_stranded_iff (plain_token_standard _) EscrowContract.funded
    (by simp [earlyCancelRun, Legal, Label.caller, invoked])).mpr ⟨?_, ?_⟩
  · intro pre l mid l' post he id amount hpay
    exact absurd hpay (hno l (by simp [he]) _ id amount)
  · intro pre l post he id amount trade hpay
    exact absurd hpay (hno l (by simp [he]) _ id amount)

end Azaka.Custody
