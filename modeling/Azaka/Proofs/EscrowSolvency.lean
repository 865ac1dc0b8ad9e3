import Azaka.Proofs.EscrowPayouts
import Mathlib.Algebra.Ring.Int.Defs
import Mathlib.Data.FinEnum

namespace Azaka.EscrowContract
open Keyed Stepwise

variable {tok : Token}

/-- The escrow signs nothing, and nothing but its own calls debits it. -/
def Undebited (self token : Address) (w : World tok) : Label tok → Prop
  | .call tx => tx.auth self = false
  | .token ledger => tok.balance w.2 token self ≤ tok.balance ledger token self

/-- The escrow's tokens cover its entries, and no entry is negative. -/
structure Covered (contract trade token : Address) (w : World tok) : Prop where
  arbiter : w.1.tradeContract = some trade
  token_contract : w.1.tokenContract = some token
  nonneg : ∀ id amount, w.1.balances id = some amount → 0 ≤ amount.toInt
  covers : total BitVec.toInt w.1.balances ≤ tok.balance w.2 token contract

/-- Conservation and solvency of the run that `ls` makes of the escrow. The
deposits and payouts that are counted are what the token has moved. -/
structure Solvent (contract trade token : Address) (w : World tok) (ls : List (Label tok)) :
    Prop where
  conserved : ∀ id, ((deposits ((machine tok contract).log w ls) id).map BitVec.toInt).sum =
    ((payouts ((machine tok contract).log w ls) id).map BitVec.toInt).sum +
      (getBalance id ((machine tok contract).run w ls).1).toInt
  transferred : ∀ d ∈ (machine tok contract).log w ls, ∀ tx a b, d.label = .call tx →
    tx.call.parties contract = some (a, b) → ∃ m, moved d = some m ∧
      Transferred tok token a b m.value d.before.2
        ((machine tok contract).next d.before d.label).2
  nonneg : ∀ id amount, ((machine tok contract).run w ls).1.balances id = some amount →
    0 ≤ amount.toInt
  solvent : ∑ id, (getBalance id ((machine tok contract).run w ls).1).toInt ≤
    tok.balance ((machine tok contract).run w ls).2 token contract
  payable : ∀ kind id recipient tx, tx.call = Payout.call kind id recipient →
    tx.auth trade = true →
    ((machine tok contract).Accepts ((machine tok contract).run w ls) (.call tx) ↔
      (((machine tok contract).run w ls).1.balances id).isSome)

theorem total_balances (s : State) :
    total BitVec.toInt s.balances = ∑ id, (getBalance id s).toInt := by
  unfold total
  apply Finset.sum_congr rfl
  intro id _
  unfold getBalance
  cases s.balances id <;> rfl

theorem entry_sum (id : UInt64) (s : State) :
    ((s.balances id).toList.map BitVec.toInt).sum = (getBalance id s).toInt := by
  unfold getBalance
  cases s.balances id with
  | none => rfl
  | some amount => simp

/-- The trade's balance before the run and its deposits are its payouts and its
balance after the run. -/
theorem run_conserved (self : Address) (w : World tok) (ls : List (Label tok)) (id : UInt64) :
    (getBalance id w.1).toInt +
        ((deposits ((machine tok self).log w ls) id).map BitVec.toInt).sum =
      ((payouts ((machine tok self).log w ls) id).map BitVec.toInt).sum +
        (getBalance id ((machine tok self).run w ls).1).toInt := by
  have haccount := run_account self w ls id
  have hsums := congrArg (fun l => (l.map BitVec.toInt).sum) haccount
  simp only [List.map_append, List.sum_append, entry_sum] at hsums
  exact hsums

variable {self trade token : Address}

/-- What goes through a standard token leaves the escrow covered. -/
theorem Step.covered {tx : Tx Call} {w v : World tok} {r : Return}
    (h : Step (tx.env self) w.1 w.2 tx.call r v) (std : tok.Standard token)
    (hw : Covered self trade token w) (hself : tx.auth self = false) :
    Covered self trade token v := by
  generalize tx.call = c at h
  cases h with
  | init unset =>
    rw [hw.arbiter] at unset
    cases unset
  | get => exact hw
  | @deposit id depositor token' amount l' auth vacant configured moved =>
    obtain rfl := Option.some.inj (hw.token_contract.symm.trans configured)
    have hne : self ≠ depositor := by
      intro he
      have hauth : tx.auth depositor = true := auth
      rw [← he, hself] at hauth
      cases hauth
    obtain ⟨hamount, hbalance⟩ := std.received moved hne
    refine ⟨hw.arbiter, hw.token_contract, ?_, ?_⟩
    · intro j n found
      rcases Store.set_eq_some found with ⟨-, rfl⟩ | ⟨-, hold⟩
      · exact hamount
      · exact hw.nonneg j n hold
    · have hcovers := hw.covers
      have hbalance : tok.balance l' token self = tok.balance w.2 token self + amount.toInt :=
        hbalance
      simp only [State.deposited, total_set BitVec.toInt amount vacant, hbalance]
      omega
  | @payOut kind id recipient _ token' amount l' _ _ found configured moved =>
    obtain rfl := Option.some.inj (hw.token_contract.symm.trans configured)
    have hbalance : tok.balance w.2 token self - amount.toInt ≤ tok.balance l' token self :=
      std.spent moved
    refine ⟨hw.arbiter, hw.token_contract, ?_, ?_⟩
    · intro j n hj
      exact hw.nonneg j n (Store.remove_eq_some hj).2
    · have hcovers := hw.covers
      simp only [State.paid, total_remove BitVec.toInt found]
      omega

theorem run_covered (std : tok.Standard token) {w : World tok} {ls : List (Label tok)}
    (hw : Covered self trade token w)
    (fair : (machine tok self).Along (Undebited self token) w ls) :
    Covered self trade token ((machine tok self).run w ls) := by
  refine Machine.run_invariant_along ?_ hw fair
  intro w l r v hw hl hexec
  cases l with
  | call tx => exact (machine_ok.mp hexec).covered std hw hl
  | token ledger =>
    cases hexec
    exact ⟨hw.arbiter, hw.token_contract, hw.nonneg, le_trans hw.covers hl⟩

/-- Every entry can be paid out, however many others are. -/
theorem Covered.payable {w : World tok} (hw : Covered self trade token w)
    (std : tok.Standard token) {kind : Payout} {id : UInt64} {recipient : Address} {tx : Tx Call}
    (hc : tx.call = kind.call id recipient) (auth : tx.auth trade = true) :
    (machine tok self).Accepts w (.call tx) ↔ (w.1.balances id).isSome := by
  refine ⟨fun h => (payout_accepted self ⟨kind, recipient, tx, rfl, hc⟩ h).1, ?_⟩
  intro h
  obtain ⟨amount, found⟩ := Option.isSome_iff_exists.mp h
  have hle := worth_le_total hw.nonneg found
  have hpool := hw.covers
  obtain ⟨l', moved⟩ := Option.isSome_iff_exists.mp
    ((std.accepts w.2 self recipient amount).mpr ⟨hw.nonneg id amount found, by omega⟩)
  refine ⟨.unit, (w.1.paid id (kind.event id recipient amount), l'), machine_ok.mpr ?_⟩
  rw [hc]
  exact .payOut kind hw.arbiter auth found hw.token_contract moved

/-- In a run that starts with `initialize`, the deposits and payouts go through
the token it names. -/
theorem log_through_token (std : tok.Standard token) {w : World tok}
    (hw : Covered self trade token w) {ls : List (Label tok)}
    (fair : (machine tok self).Along (Undebited self token) w ls)
    {d : Done (World tok) (Label tok) Return} (hd : d ∈ (machine tok self).log w ls)
    {tx : Tx Call} (hl : d.label = .call tx) {a b : Address}
    (hp : tx.call.parties self = some (a, b)) :
    ∃ m, moved d = some m ∧ Transferred tok token a b m.value d.before.2
      ((machine tok self).next d.before d.label).2 := by
  obtain ⟨m, token', hm, configured, htransfer⟩ := log_transferred self hd hl hp
  obtain ⟨pre, post, _, rfl, hbefore, -⟩ := Machine.log_mem hd
  have hcovered := run_covered std hw (Machine.along_prefix fair)
  rw [hbefore] at hcovered
  obtain rfl := Option.some.inj (hcovered.token_contract.symm.trans configured)
  exact ⟨m, hm, htransfer⟩

/-- After `initialize` the escrow stays solvent: per trade, the deposits are the
payouts and the entry, and all entries together are covered by its tokens. -/
theorem escrow_conserved_and_solvent (std : tok.Standard token) (ledger : tok.Ledger)
    (opening : Tx Call) (hopening : opening.call = .init trade token) (ls : List (Label tok))
    (fair : (machine tok self).Along (Undebited self token) (.empty, ledger)
      (.call opening :: ls)) :
    Solvent self trade token (.empty, ledger) (.call opening :: ls) := by
  have hinit : Step (opening.env self) State.empty ledger (.init trade token) .unit _ := .init rfl
  have hnext := Machine.next_ok
    (machine_ok (w := ((.empty, ledger) : World tok)) |>.mpr (hopening ▸ hinit))
  have hstart : Covered self trade token ((State.empty.configured trade token, ledger)) := by
    refine ⟨rfl, rfl, ?_, ?_⟩
    · intro id amount found
      cases found
    · have hempty : total BitVec.toInt State.empty.balances = 0 := total_empty _
      exact hempty ▸ std.nonneg ledger self
  have hfair := hnext ▸ (Machine.along_cons.mp fair).2
  have hrun := run_covered std hstart hfair
  rw [← hnext, ← Machine.run_cons] at hrun
  refine ⟨?_, ?_, hrun.nonneg, ?_, ?_⟩
  · intro id
    have hconserved := run_conserved self ((.empty, ledger) : World tok) (.call opening :: ls) id
    have hzero : (getBalance id State.empty).toInt = 0 := rfl
    rw [hzero, zero_add] at hconserved
    exact hconserved
  · intro d hd tx a b hl hp
    rw [Machine.log_cons_ok (machine_ok.mpr (hopening ▸ hinit))] at hd
    rcases List.mem_cons.mp hd with rfl | hd
    · cases hl
      rw [hopening] at hp
      cases hp
    · exact log_through_token std hstart hfair hd hl hp
  · rw [← total_balances]
    exact hrun.covers
  · intro kind id recipient tx hc auth
    exact hrun.payable std hc auth

/-- Two deposits, a gift to the escrow, and the payout of one of the two. -/
def giftRun : List (Label plainToken) :=
  [.call (signed [.account 2] 2 (.deposit 1 (.account 2) 300)),
   .call (signed [.account 2] 3 (.deposit 2 (.account 2) 0)),
   .token (fun token holder => if token = .contract 4 ∧ holder = .contract 5 then 900 else 0),
   .call (signed [.contract 7] 4 (.release 1 (.contract 5)))]

theorem gift_run_solvent :
    Solvent (.contract 5) (.contract 7) (.contract 4) (.empty, funded)
      (.call (signed [] 1 (.init (.contract 7) (.contract 4))) :: giftRun) := by
  apply escrow_conserved_and_solvent (plain_token_standard _) funded _ rfl giftRun
  refine Machine.along_cons.mpr ⟨rfl, Machine.along_cons.mpr ⟨rfl, Machine.along_cons.mpr ⟨rfl,
    Machine.along_cons.mpr ⟨?_, Machine.along_cons.mpr ⟨rfl, Machine.along_nil _ _⟩⟩⟩⟩⟩
  have hgift : (300 : Int) ≤ 900 := by omega
  exact hgift

end Azaka.EscrowContract
