import Azaka.Library.Refinement
import Azaka.Library.Vault
import Azaka.Proofs.EscrowSteps

namespace Azaka.EscrowContract
open Keyed Stepwise

variable {tok : Token}

/-- The label asks for the trade's money to be paid out. -/
def Label.PaysOut (id : UInt64) (l : Label tok) : Prop :=
  ∃ kind recipient tx, l = .call tx ∧ tx.call = Payout.call kind id recipient

def Label.Deposits (id : UInt64) (l : Label tok) : Prop :=
  ∃ depositor amount tx, l = .call tx ∧ tx.call = .deposit id depositor amount

/-- What a call moves into the escrow or out of it; a payout moves the entry it
finds. -/
def moved (d : Done (World tok) (Label tok) Return) : Option (Move UInt64 I128) :=
  match d.label with
  | .call tx =>
    match tx.call with
    | .deposit id _ amount => some (.put id amount)
    | .release id _ | .refund id _ => (d.before.1.balances id).map (.take id)
    | .init _ _ | .getBalance _ => none
  | .token _ => none

/-- Whose tokens a call moves, and to whom. -/
def Call.parties (contract : Address) : Call → Option (Address × Address)
  | .deposit _ depositor _ => some (depositor, contract)
  | .release _ recipient | .refund _ recipient => some (contract, recipient)
  | .init _ _ | .getBalance _ => none

/-- The token contract has accepted this transfer, and what a standard one makes
of its balances is exactly the amount on its way from the one to the other. -/
structure Transferred (tok : Token) (token a b : Address) (n : I128) (l l' : tok.Ledger) :
    Prop where
  accepted : tok.transfer l token a b n = some l'
  moved : tok.Standard token → 0 ≤ n.toInt ∧ ∀ c, tok.balance l' token c =
    tok.balance l token c - (if c = a then n.toInt else 0) + (if c = b then n.toInt else 0)

/-- The amounts of the successful deposits for the trade, in order. -/
def deposits (log : List (Done (World tok) (Label tok) Return)) (id : UInt64) : List I128 :=
  puts id (log.filterMap moved)

/-- The amounts of the successful releases and refunds for the trade, in order. -/
def payouts (log : List (Done (World tok) (Label tok) Return)) (id : UInt64) : List I128 :=
  takes id (log.filterMap moved)

theorem moved_payout {w : World tok} {kind : Payout} {id : UInt64} {recipient : Address}
    {amount : I128} {tx : Tx Call} {r : Return} (hc : tx.call = kind.call id recipient)
    (found : w.1.balances id = some amount) : moved ⟨w, .call tx, r⟩ = some (.take id amount) := by
  cases kind <;> simp [moved, hc, Payout.call, found]

/-- A step of the contract is a move of the vault, or leaves the entries alone. -/
theorem Step.move {self : Address} {tx : Tx Call} {w v : World tok} {r : Return}
    (h : Step (tx.env self) w.1 w.2 tx.call r v) :
    (∃ m, moved ⟨w, .call tx, r⟩ = some m ∧ vault.exec m w.1.balances = .ok ((), v.1.balances)) ∨
      moved ⟨w, .call tx, r⟩ = none ∧ v.1.balances = w.1.balances := by
  generalize hc : tx.call = c at h
  cases h with
  | init _ => exact .inr ⟨by simp [moved, hc], rfl⟩
  | @deposit id _ _ amount _ _ vacant _ _ =>
    exact .inl ⟨.put id amount, by simp [moved, hc], vault_put_ok.mpr ⟨vacant, rfl⟩⟩
  | @payOut kind id _ _ _ amount _ _ _ found _ _ =>
    exact .inl ⟨.take id amount, moved_payout hc found, vault_take_ok.mpr ⟨found, rfl⟩⟩
  | get => exact .inr ⟨by simp [moved, hc], rfl⟩

theorem transfer_accepted {token a b : Address} {n : I128} {l l' : tok.Ledger}
    (h : tok.transfer l token a b n = some l') : Transferred tok token a b n l l' := by
  refine ⟨h, ?_⟩
  intro std
  have hamount := (std.accepts l a b n).mp (Option.isSome_iff_exists.mpr ⟨l', h⟩)
  exact ⟨hamount.1, std.moves l a b n l' h⟩

/-- What a deposit or a payout does to the entry, the tokens do with it. -/
theorem Step.transferred {self : Address} {tx : Tx Call} {w v : World tok} {r : Return}
    (h : Step (tx.env self) w.1 w.2 tx.call r v) {a b : Address}
    (hp : tx.call.parties self = some (a, b)) :
    ∃ m token, moved ⟨w, .call tx, r⟩ = some m ∧ w.1.tokenContract = some token ∧
      Transferred tok token a b m.value w.2 v.2 := by
  generalize hc : tx.call = c at h hp
  cases h with
  | init _ | get => cases hp
  | @deposit id depositor token amount l' _ _ configured accepted =>
    obtain ⟨rfl, rfl⟩ := Prod.mk.inj (Option.some.inj hp)
    exact ⟨.put id amount, token, by simp [moved, hc], configured, transfer_accepted accepted⟩
  | @payOut kind id recipient _ token amount l' _ _ found configured accepted =>
    have hparties : (self, recipient) = (a, b) := by
      cases kind <;> exact Option.some.inj hp
    obtain ⟨rfl, rfl⟩ := Prod.mk.inj hparties
    exact ⟨.take id amount, token, moved_payout hc found, configured, transfer_accepted accepted⟩

variable (self : Address)

/-- So in every run: whenever a deposit or a payout succeeds, exactly what it
does to the entry has gone through the token contract. -/
theorem log_transferred {w : World tok} {ls : List (Label tok)}
    {d : Done (World tok) (Label tok) Return} (hd : d ∈ (machine tok self).log w ls)
    {tx : Tx Call} (hl : d.label = .call tx) {a b : Address}
    (hp : tx.call.parties self = some (a, b)) :
    ∃ m token, moved d = some m ∧ d.before.1.tokenContract = some token ∧
      Transferred tok token a b m.value d.before.2
        ((machine tok self).next d.before d.label).2 := by
  obtain ⟨_, _, v, -, -, hexec⟩ := Machine.log_mem hd
  rw [Machine.next_ok hexec]
  obtain ⟨w, l, r⟩ := d
  subst hl
  exact (machine_ok.mp hexec).transferred hp

/-- The escrow is a vault with one slot for every trade id. -/
theorem escrow_refines_vault :
    (machine tok self).Refines vault moved (fun w => w.1.balances) := by
  refine ⟨?_, ?_⟩
  · intro w l r v m hexec hmoved
    cases l with
    | token ledger => cases hmoved
    | call tx =>
      rcases (machine_ok.mp hexec).move with ⟨m', hm', hvault⟩ | ⟨hnone, -⟩
      · obtain rfl := Option.some.inj (hm'.symm.trans hmoved)
        exact ⟨(), hvault⟩
      · rw [hnone] at hmoved
        cases hmoved
  · intro w l r v hexec hmoved
    cases l with
    | token ledger =>
      cases hexec
      rfl
    | call tx =>
      rcases (machine_ok.mp hexec).move with ⟨m, hm, -⟩ | ⟨-, hsame⟩
      · rw [hmoved] at hm
        cases hm
      · exact hsame

/-- In every run, what a trade's entry was and what is deposited for it is what
is paid out for it and what its entry becomes. -/
theorem run_account (w : World tok) (ls : List (Label tok)) (id : UInt64) :
    (w.1.balances id).toList ++ deposits ((machine tok self).log w ls) id =
      payouts ((machine tok self).log w ls) id ++
        (((machine tok self).run w ls).1.balances id).toList := by
  obtain ⟨haccept, hrun⟩ := (escrow_refines_vault self).trace w ls
  have hhistory := vault_history haccept id
  rw [hrun] at hhistory
  exact hhistory

end Azaka.EscrowContract
