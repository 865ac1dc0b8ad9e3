import Azaka.Model.Host
import Mathlib.Logic.Function.Basic

namespace Azaka

/-- The token contracts of a network, seen from a contract that calls
`transfer`: their ledger, what an address holds of a token, and what a transfer
makes of the ledger, if it succeeds. A token cannot call back, for the host
allows no reentry. -/
structure Token where
  Ledger : Type
  balance : Ledger → Address → Address → Int
  transfer : Ledger → Address → Address → Address → I128 → Option Ledger

/-- The token at this address keeps the rules of the token interface: a
transfer moves exactly the amount, and fails only for a negative amount or an
insufficient balance. -/
structure Token.Standard (tok : Token) (token : Address) : Prop where
  nonneg : ∀ l a, 0 ≤ tok.balance l token a
  accepts : ∀ l a b n, (tok.transfer l token a b n).isSome ↔
    0 ≤ n.toInt ∧ n.toInt ≤ tok.balance l token a
  moves : ∀ l a b n l', tok.transfer l token a b n = some l' → ∀ c,
    tok.balance l' token c =
      tok.balance l token c - (if c = a then n.toInt else 0) + (if c = b then n.toInt else 0)

variable {ε : Type}

/-- `token_client.transfer`; if it fails, so does the caller. -/
def Token.call (tok : Token) (l : tok.Ledger) (token a b : Address) (n : I128) :
    Except (Fault ε) tok.Ledger :=
  match tok.transfer l token a b n with
  | some l' => .ok l'
  | none => .error .subcall

@[simp] theorem call_ok {tok : Token} {l l' : tok.Ledger} {token a b : Address} {n : I128} :
    (tok.call l token a b n : Except (Fault ε) tok.Ledger) = .ok l' ↔
      tok.transfer l token a b n = some l' := by
  unfold Token.call
  cases tok.transfer l token a b n <;> simp

section Standard
variable {tok : Token} {token : Address} (std : tok.Standard token)
variable {l l' : tok.Ledger} {a b : Address} {n : I128}
include std

theorem Token.Standard.received (h : tok.transfer l token a b n = some l') (hne : b ≠ a) :
    0 ≤ n.toInt ∧ tok.balance l' token b = tok.balance l token b + n.toInt := by
  have hamount := (std.accepts l a b n).mp (Option.isSome_iff_exists.mpr ⟨l', h⟩)
  have hbalance := std.moves l a b n l' h b
  rw [if_neg hne, if_pos rfl] at hbalance
  refine ⟨hamount.1, ?_⟩
  omega

/-- An address may pay itself. -/
theorem Token.Standard.spent (h : tok.transfer l token a b n = some l') :
    tok.balance l token a - n.toInt ≤ tok.balance l' token a := by
  have hamount := (std.accepts l a b n).mp (Option.isSome_iff_exists.mpr ⟨l', h⟩)
  have hbalance := std.moves l a b n l' h a
  rw [if_pos rfl] at hbalance
  split at hbalance <;> omega

end Standard

/-- A row of a table of balances after a transfer. -/
def shifted (row : Address → Nat) (a b : Address) (n : Nat) : Address → Nat :=
  fun c => row c - (if c = a then n else 0) + (if c = b then n else 0)

def plainTransfer (l : Address → Address → Nat) (token a b : Address) (n : I128) :
    Option (Address → Address → Nat) :=
  if 0 ≤ n.toInt ∧ n.toInt ≤ l token a then
    some (Function.update l token (shifted (l token) a b n.toInt.toNat))
  else none

/-- Every address is a token, and the ledger a table of balances. -/
def plainToken : Token where
  Ledger := Address → Address → Nat
  balance l token a := l token a
  transfer := plainTransfer

theorem plain_transfer_some {l l' : Address → Address → Nat} {token a b : Address} {n : I128} :
    plainTransfer l token a b n = some l' ↔ (0 ≤ n.toInt ∧ n.toInt ≤ l token a) ∧
      l' = Function.update l token (shifted (l token) a b n.toInt.toNat) := by
  unfold plainTransfer
  split
  · rename_i h
    simp only [Option.some.injEq, h, and_self, true_and, eq_comm]
  · rename_i h
    simp only [h, false_and, reduceCtorEq]

theorem plain_transfer_moves {l l' : Address → Address → Nat} {token a b : Address} {n : I128}
    (h : plainTransfer l token a b n = some l') (c : Address) :
    (l' token c : Int) =
      l token c - (if c = a then n.toInt else 0) + (if c = b then n.toInt else 0) := by
  obtain ⟨⟨hn, hle⟩, rfl⟩ := plain_transfer_some.mp h
  rw [Function.update_self]
  unfold shifted
  split
  · rename_i hc
    subst hc
    split <;> omega
  · split <;> omega

theorem plain_token_standard (token : Address) : plainToken.Standard token := by
  refine ⟨fun l a => Int.natCast_nonneg (l token a), ?_, ?_⟩
  · intro l a b n
    refine Option.isSome_iff_exists.trans ⟨?_, ?_⟩
    · intro h
      obtain ⟨l', h⟩ := h
      exact (plain_transfer_some.mp h).1
    · intro h
      exact ⟨_, plain_transfer_some.mpr ⟨h, rfl⟩⟩
  · intro l a b n l' h c
    exact plain_transfer_moves h c

end Azaka
