import Azaka.Proofs.CustodySteps
import Azaka.Proofs.TradeFinality

namespace Azaka.Custody
open Keyed Stepwise

variable {tok : Token}

/-- Every entry is the amount of a trade in the escrow's token. -/
def Matched (s : State tok) : Prop :=
  ∀ id amount, s.2.1.balances id = some amount → ∃ trade, s.1.trades id = some trade ∧
    amount = trade.amount ∧ s.2.1.tokenContract = some trade.stablecoinAsset

/-- In the run every entry matches its trade, and deposits are for trades still
open. -/
structure DepositsMatch (d : Deployment) (ledger : tok.Ledger) (ls : List (Label tok)) : Prop where
  matched : ∀ pre post, ls = pre ++ post → Matched ((machine tok d).run (deployed d ledger) pre)
  timely : ∀ pre i post, ls = pre ++ .escrow i :: post →
    ∀ id depositor amount, i.call = .deposit id depositor amount →
    (machine tok d).Accepts ((machine tok d).run (deployed d ledger) pre) (.escrow i) →
    ∃ trade, ((machine tok d).run (deployed d ledger) pre).1.trades id = some trade ∧
      trade.status.terminal = false

/-- There is an open trade of this id and amount, in the escrow's token. -/
def Expected (d : Deployment) (s : State tok) (id : UInt64) (amount : I128) : Prop :=
  ∃ trade, s.1.trades id = some trade ∧ trade.status.terminal = false ∧ amount = trade.amount ∧
    trade.stablecoinAsset = d.token

variable {d : Deployment}

/-- An entry keeps matching its trade, whose terms never change; new ones match
if they were expected. -/
theorem matched_step (std : tok.Standard d.token) {s t : State tok} {l : Label tok}
    {r : Return} (hw : Wired d s) (hs : Matched s)
    (hl : ∀ id amount, Payable d s l id amount → Expected d s id amount)
    (h : (machine tok d).exec l s = .ok (r, t)) : Matched t := by
  have hwired := step_wired hw h
  intro id amount found
  have hbefore : ∃ trade, s.1.trades id = some trade ∧ amount = trade.amount ∧
      trade.stablecoinAsset = d.token := by
    rcases entry_origin std hw h found with hold | hnew
    · obtain ⟨trade, htrade, hamount, htoken⟩ := hs id amount hold
      rw [hw.token] at htoken
      exact ⟨trade, htrade, hamount, (Option.some.inj htoken).symm⟩
    · obtain ⟨trade, htrade, -, hamount, htoken⟩ := hl id amount hnew
      exact ⟨trade, htrade, hamount, htoken⟩
  obtain ⟨trade, htrade, hamount, htoken⟩ := hbefore
  rw [hwired.token]
  rcases exec_cases h with ⟨_, _, -, hstep, -⟩ | ⟨_, _, -, -, hrest⟩ | ⟨_, -, rfl⟩
  · obtain ⟨trade', htrade', -, -, -, -, hasset, hterms, -⟩ := hstep.terms hw.bounded htrade
    exact ⟨trade', htrade', by rw [hterms, hamount], by rw [hasset, htoken]⟩
  · exact ⟨trade, by rw [hrest, htrade], hamount, by rw [htoken]⟩
  · exact ⟨trade, htrade, hamount, by rw [htoken]⟩

/-- The escrow takes any deposit for any id, so entries match the trades only
if the depositors see to it. -/
theorem deposits_match_iff (std : tok.Standard d.token) (ledger : tok.Ledger)
    (ls : List (Label tok)) :
    DepositsMatch d ledger ls ↔ (machine tok d).Along
      (fun s l => ∀ id amount, Payable d s l id amount → Expected d s id amount)
      (deployed d ledger) ls := by
  have hwired := run_wired (deployed_wired d ledger)
  refine ⟨?_, ?_⟩
  · intro h pre l post he id amount hpay
    obtain ⟨haccepts, hsame, hentry⟩ := payable_next std (hwired pre) hpay
    have hmatched := h.matched (pre ++ [l]) post (by simp [he])
    have htoken := (hwired (pre ++ [l])).token
    rw [Machine.run_concat] at hmatched htoken
    obtain ⟨trade, htrade, hamount, hasset⟩ := hmatched id amount hentry
    rw [hsame] at htrade
    rw [htoken] at hasset
    obtain ⟨i, depositor, rfl, hc, -⟩ := hpay
    obtain ⟨trade', htrade', hopen⟩ := h.timely pre i post he id depositor amount hc haccepts
    obtain rfl := Option.some.inj (htrade'.symm.trans htrade)
    exact ⟨trade', htrade, hopen, hamount, (Option.some.inj hasset).symm⟩
  · intro h
    refine ⟨?_, ?_⟩
    · intro pre post he
      subst he
      refine (Machine.run_invariant_along (P := fun s => Wired d s ∧ Matched s) ?_
        ⟨deployed_wired d ledger, ?_⟩ (Machine.along_prefix h)).2
      · intro s l r t hs hl hexec
        exact ⟨step_wired hs.1 hexec, matched_step std hs.1 hs.2 hl hexec⟩
      · intro id amount found
        cases found
    · intro pre i post he id depositor amount hc haccepts
      have hpay := deposit_payable std (hwired pre) hc haccepts
      obtain ⟨trade, htrade, hopen, -⟩ := h pre (.escrow i) post he id amount hpay
      exact ⟨trade, htrade, hopen⟩

/-- A stranger deposits nothing for the first trade before there is one. -/
def strangerRun : List (Label plainToken) :=
  [.escrow (invoked [.account 9] 1 (.deposit 1 (.account 9) 0))]

theorem stranger_run_unmatched : (∀ l ∈ strangerRun, Legal network l) ∧
    ¬ DepositsMatch network EscrowContract.funded strangerRun := by
  refine ⟨by simp [strangerRun, Legal, Label.caller, invoked], ?_⟩
  intro h
  obtain ⟨trade, htrade, -⟩ := h.matched strangerRun [] rfl 1 0 rfl
  cases htrade

theorem importer_run_matches : DepositsMatch network EscrowContract.funded importerRun := by
  apply (deposits_match_iff (plain_token_standard _) EscrowContract.funded importerRun).mpr
  refine Machine.along_cons.mpr ⟨?_, Machine.along_cons.mpr ⟨?_, Machine.along_cons.mpr
    ⟨?_, Machine.along_nil _ _⟩⟩⟩
  · intro id amount hpay
    obtain ⟨i, depositor, hl, -⟩ := hpay
    cases hl
  · intro id amount hpay
    obtain ⟨i, depositor, hl, -⟩ := hpay
    cases hl
  · intro id amount hpay
    obtain ⟨i, depositor, hl, hc, -⟩ := hpay
    cases hl
    cases hc
    exact ⟨_, rfl, rfl, rfl, rfl⟩

end Azaka.Custody
