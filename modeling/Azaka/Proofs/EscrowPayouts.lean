import Azaka.Proofs.EscrowVault

namespace Azaka.EscrowContract
open Keyed Stepwise

variable {tok : Token}

/-- At most one payout in the whole run, and nothing for the trade after it. -/
def OneForAll (contract : Address) (ledger : tok.Ledger) (ls : List (Label tok)) : Prop :=
  ∀ id pre l post, ls = pre ++ l :: post → l.PaysOut id →
    (machine tok contract).Accepts ((machine tok contract).run (.empty, ledger) pre) l →
    ∀ mid l' rest, post = mid ++ l' :: rest → l'.PaysOut id ∨ l'.Deposits id →
      ¬ (machine tok contract).Accepts
        ((machine tok contract).run (.empty, ledger) (pre ++ l :: mid)) l'

/-- One payout for every deposit. Deposits and payouts for a trade take turns,
each payout returns the amount of the deposit before it, and each of these
amounts goes through the token contract, from the depositor to the escrow or
from the escrow to the recipient. -/
structure TakesTurns (contract : Address) (ledger : tok.Ledger) (ls : List (Label tok)) : Prop where
  paired : ∀ id, deposits ((machine tok contract).log (.empty, ledger) ls) id =
    payouts ((machine tok contract).log (.empty, ledger) ls) id ++
      (((machine tok contract).run (.empty, ledger) ls).1.balances id).toList
  transferred : ∀ d ∈ (machine tok contract).log (.empty, ledger) ls, ∀ tx a b,
    d.label = .call tx → tx.call.parties contract = some (a, b) →
    ∃ m token, moved d = some m ∧ d.before.1.tokenContract = some token ∧
      Transferred tok token a b m.value d.before.2
        ((machine tok contract).next d.before d.label).2
  spent : ∀ id pre l mid l' post, ls = pre ++ l :: (mid ++ l' :: post) → l.PaysOut id →
    (machine tok contract).Accepts ((machine tok contract).run (.empty, ledger) pre) l →
    l'.PaysOut id →
    deposits ((machine tok contract).log
      ((machine tok contract).run (.empty, ledger) (pre ++ [l])) mid) id = [] →
    ¬ (machine tok contract).Accepts
      ((machine tok contract).run (.empty, ledger) (pre ++ l :: mid)) l'
  occupied : ∀ id pre l mid l' post, ls = pre ++ l :: (mid ++ l' :: post) → l.Deposits id →
    (machine tok contract).Accepts ((machine tok contract).run (.empty, ledger) pre) l →
    l'.Deposits id →
    payouts ((machine tok contract).log
      ((machine tok contract).run (.empty, ledger) (pre ++ [l])) mid) id = [] →
    ¬ (machine tok contract).Accepts
      ((machine tok contract).run (.empty, ledger) (pre ++ l :: mid)) l'

variable (self : Address)

/-- A payout needs an entry, and leaves none. -/
theorem payout_accepted {w : World tok} {l : Label tok} {id : UInt64} (hl : l.PaysOut id)
    (h : (machine tok self).Accepts w l) :
    (w.1.balances id).isSome ∧ ((machine tok self).next w l).1.balances id = none := by
  obtain ⟨kind, recipient, tx, rfl, hc⟩ := hl
  obtain ⟨r, v, hexec⟩ := h
  rw [Machine.next_ok hexec]
  have hstep := machine_ok.mp hexec
  generalize hcall : tx.call = c at hstep
  rw [hc] at hcall
  cases hstep with
  | @payOut kind' id' _ _ _ _ _ _ _ found _ _ =>
    have hid : id' = id := by
      cases kind <;> cases kind' <;> simp [Payout.call] at hcall <;> exact hcall.1.symm
    subst hid
    exact ⟨by rw [found]; rfl, Store.remove_same _ _⟩
  | init _ | deposit _ _ _ _ | get => cases kind <;> cases hcall

/-- A deposit needs an empty slot, and fills it. -/
theorem deposit_accepted {w : World tok} {l : Label tok} {id : UInt64} (hl : l.Deposits id)
    (h : (machine tok self).Accepts w l) :
    w.1.balances id = none ∧ (((machine tok self).next w l).1.balances id).isSome := by
  obtain ⟨depositor, amount, tx, rfl, hc⟩ := hl
  obtain ⟨r, v, hexec⟩ := h
  rw [Machine.next_ok hexec]
  have hstep := machine_ok.mp hexec
  generalize hcall : tx.call = c at hstep
  rw [hc] at hcall
  cases hstep with
  | deposit _ vacant _ _ =>
    cases hcall
    exact ⟨vacant, by simp [State.deposited]⟩
  | @payOut kind _ _ _ _ _ _ _ _ _ _ _ => cases kind <;> cases hcall
  | init _ | get => cases hcall

/-- Without a deposit, a missing entry stays missing. -/
theorem stays_vacant {w : World tok} {ls : List (Label tok)} {id : UInt64}
    (vacant : w.1.balances id = none) (hno : deposits ((machine tok self).log w ls) id = []) :
    ((machine tok self).run w ls).1.balances id = none := by
  have haccount := run_account self w ls id
  rw [vacant, hno] at haccount
  have hnil := (List.append_eq_nil_iff.mp haccount.symm).2
  exact Option.toList_eq_nil_iff.mp hnil

/-- Without a payout, an entry stays as it is. -/
theorem stays_filled {w : World tok} {ls : List (Label tok)} {id : UInt64} {amount : I128}
    (found : w.1.balances id = some amount)
    (hno : payouts ((machine tok self).log w ls) id = []) :
    ((machine tok self).run w ls).1.balances id = some amount := by
  have haccount := run_account self w ls id
  rw [found, hno] at haccount
  cases hrun : ((machine tok self).run w ls).1.balances id with
  | none =>
    rw [hrun] at haccount
    cases haccount
  | some n =>
    rw [hrun] at haccount
    obtain ⟨rfl, -⟩ := List.cons.inj haccount
    rfl

/-- Payouts are paired with deposits in every run of the escrow, whoever
authorises the calls and whatever happens to the token. -/
theorem deposits_and_payouts_take_turns (ledger : tok.Ledger) (ls : List (Label tok)) :
    TakesTurns self ledger ls := by
  refine ⟨?_, ?_, ?_, ?_⟩
  · intro id
    exact run_account self (.empty, ledger) ls id
  · intro d hd tx a b hl hp
    exact log_transferred self hd hl hp
  · intro id pre l mid l' post _ hl haccept hl' hno haccept'
    rw [Machine.run_split] at haccept'
    have hleft := (payout_accepted self hl haccept).2
    rw [← Machine.run_concat] at hleft
    have hneeds := (payout_accepted self hl' haccept').1
    rw [stays_vacant self hleft hno] at hneeds
    cases hneeds
  · intro id pre l mid l' post _ hl haccept hl' hno haccept'
    rw [Machine.run_split] at haccept'
    have hfilled := (deposit_accepted self hl haccept).2
    rw [← Machine.run_concat] at hfilled
    obtain ⟨amount, found⟩ := Option.isSome_iff_exists.mp hfilled
    have hneeds := (deposit_accepted self hl' haccept').1
    rw [stays_filled self found hno] at hneeds
    cases hneeds

/-- A ledger on which account 2 holds 500 of the token, contract 4. -/
def funded : plainToken.Ledger :=
  fun token holder => if token = .contract 4 ∧ holder = .account 2 then 500 else 0

/-- The money goes in and out of the escrow, at contract 5, twice. -/
def twiceRun : List (Label plainToken) :=
  [.call (signed [] 1 (.init (.contract 7) (.contract 4))),
   .call (signed [.account 2] 2 (.deposit 1 (.account 2) 500)),
   .call (signed [.contract 7] 3 (.refund 1 (.account 2))),
   .call (signed [.account 2] 4 (.deposit 1 (.account 2) 500)),
   .call (signed [.contract 7] 5 (.release 1 (.account 1)))]

theorem twice_run_pays_twice : ¬ OneForAll (.contract 5) funded twiceRun := by
  intro h
  have hno := h 1 (twiceRun.take 2) _ (twiceRun.drop 3) rfl
    ⟨.refund, .account 2, _, rfl, rfl⟩ ⟨_, _, rfl⟩ [twiceRun[3]] twiceRun[4] [] rfl
    (.inl ⟨.release, .account 1, _, rfl, rfl⟩)
  exact hno ⟨_, _, rfl⟩

end Azaka.EscrowContract
