import Azaka.Proofs.TradeSteps

namespace Azaka.TradeContract
open Keyed Stepwise

/-- The counter bounds every id a record is stored under. -/
def Bounded (s : State) : Prop :=
  ∀ id trade, s.trades id = some trade → id.toNat ≤ s.counter.toNat

/-- The parts of a record that only its `create_trade` writes. -/
def SameTerms (a b : Trade) : Prop :=
  b.tradeId = a.tradeId ∧ b.exporter = a.exporter ∧ b.importer = a.importer ∧
    b.issuingBank = a.issuingBank ∧ b.stablecoinAsset = a.stablecoinAsset ∧
    b.amount = a.amount ∧ b.requiredDocs = a.requiredDocs ∧
    b.expiryLedger = a.expiryLedger ∧ b.createdLedger = a.createdLedger

theorem SameTerms.refl (a : Trade) : SameTerms a a :=
  ⟨rfl, rfl, rfl, rfl, rfl, rfl, rfl, rfl, rfl⟩

theorem SameTerms.trans {a b c : Trade} (hab : SameTerms a b) (hbc : SameTerms b c) :
    SameTerms a c := by
  obtain ⟨h₁, h₂, h₃, h₄, h₅, h₆, h₇, h₈, h₉⟩ := hbc
  unfold SameTerms
  rw [h₁, h₂, h₃, h₄, h₅, h₆, h₇, h₈, h₉]
  exact hab

theorem Edit.same_terms {env : Env} {escrow : Option Address} {c : Call} {id : UInt64}
    {trade trade' : Trade} {event : TradeEvent} (h : Edit env escrow c id trade trade' event) :
    SameTerms trade trade' := by
  cases h <;> exact SameTerms.refl trade

@[simp] theorem configured_trades (s : State) (e d : Address) :
    (s.configured e d).trades = s.trades := rfl

@[simp] theorem configured_counter (s : State) (e d : Address) :
    (s.configured e d).counter = 0 := rfl

@[simp] theorem created_trades (s : State) (env : Env) (p : CreateTradeParams) :
    (s.created env p).trades = s.trades.set (s.counter + 1) (opened env p (s.counter + 1)) := rfl

@[simp] theorem created_counter (s : State) (env : Env) (p : CreateTradeParams) :
    (s.created env p).counter = s.counter + 1 := rfl

@[simp] theorem edited_trades (s : State) (id : UInt64) (trade : Trade) (event : TradeEvent) :
    (s.edited id trade event).trades = s.trades.set id trade := rfl

@[simp] theorem edited_counter (s : State) (id : UInt64) (trade : Trade) (event : TradeEvent) :
    (s.edited id trade event).counter = s.counter := rfl

theorem counter_succ {c : UInt64} (room : c.toNat + 1 < 2 ^ 64) :
    (c + 1).toNat = c.toNat + 1 := by
  rw [UInt64.toNat_add]
  exact Nat.mod_eq_of_lt room

/-- The id `create_trade` is about to hand out has no record yet. -/
theorem Bounded.fresh {s : State} (h : Bounded s) (room : s.counter.toNat + 1 < 2 ^ 64) :
    s.trades (s.counter + 1) = none := by
  cases found : s.trades (s.counter + 1) with
  | none => rfl
  | some trade =>
    have hle := h _ _ found
    rw [counter_succ room] at hle
    omega

/-- `initialize` resets the counter, so it keeps the bound only when nothing is
stored yet. -/
theorem Step.bounded {env : Env} {s t : State} {c : Call} {r : Return} (h : Step env s c r t)
    (hs : Bounded s) (hinit : ∀ e d, c = .init e d → ∀ id, s.trades id = none) : Bounded t := by
  cases h with
  | init unset =>
    intro id trade found
    rw [configured_trades, hinit _ _ rfl id] at found
    cases found
  | create auth room =>
    intro id trade found
    rw [created_counter, counter_succ room]
    rcases Store.set_eq_some found with ⟨rfl, -⟩ | ⟨-, hold⟩
    · exact Nat.le_of_eq (counter_succ room)
    · have := hs id trade hold
      omega
  | edit found _ =>
    intro id trade hold
    rcases Store.set_eq_some hold with ⟨rfl, -⟩ | ⟨-, hold⟩
    · exact hs _ _ found
    · exact hs id trade hold
  | get _ | list => exact hs

/-- What can become of a stored record in one call, provided the id handed out
is fresh: nothing, or one of the five edits by a call that names it. -/
theorem Step.record {env : Env} {s t : State} {c : Call} {r : Return} (h : Step env s c r t)
    (hs : Bounded s) {id : UInt64} {trade : Trade} (found : s.trades id = some trade) :
    t.trades id = some trade ∨ ∃ trade' event,
      Edit env s.escrowContract c id trade trade' event ∧ t = s.edited id trade' event := by
  cases h with
  | init _ | get _ | list => exact .inl found
  | create auth room =>
    left
    have hne : id ≠ s.counter + 1 := by
      intro he
      rw [he, hs.fresh room] at found
      cases found
    rw [created_trades, Store.set_of_ne hne, found]
  | @edit _ id' old trade' event hold edit =>
    by_cases he : id = id'
    · subst he
      obtain rfl := Option.some.inj (hold.symm.trans found)
      exact .inr ⟨trade', event, edit, rfl⟩
    · exact .inl (by rw [edited_trades, Store.set_of_ne he, found])

/-- A stored record stays stored, on the terms it was created with. -/
theorem Step.terms {env : Env} {s t : State} {c : Call} {r : Return} (h : Step env s c r t)
    (hs : Bounded s) {id : UInt64} {trade : Trade} (found : s.trades id = some trade) :
    ∃ trade', t.trades id = some trade' ∧ SameTerms trade trade' := by
  rcases h.record hs found with hkept | ⟨trade', event, edit, rfl⟩
  · exact ⟨trade, hkept, SameTerms.refl trade⟩
  · exact ⟨trade', Store.set_same _ _ _, edit.same_terms⟩

/-- Where a record found after a call comes from. -/
theorem Step.origin {env : Env} {s t : State} {c : Call} {r : Return} (h : Step env s c r t)
    {id : UInt64} {trade : Trade} (found : t.trades id = some trade) :
    s.trades id = some trade ∨
      (∃ p, c = .createTrade p ∧ r = .tradeId id ∧ trade = opened env p id) ∨
      ∃ old event, s.trades id = some old ∧ Edit env s.escrowContract c id old trade event ∧
        t = s.edited id trade event := by
  cases h with
  | init _ | get _ | list => exact .inl found
  | @create p _ _ =>
    rcases Store.set_eq_some found with ⟨rfl, rfl⟩ | ⟨-, hold⟩
    · exact .inr (.inl ⟨p, rfl, rfl, rfl⟩)
    · exact .inl hold
  | @edit _ id' old trade' event hold edit =>
    rcases Store.set_eq_some found with ⟨rfl, rfl⟩ | ⟨-, hold⟩
    · exact .inr (.inr ⟨old, event, hold, edit, rfl⟩)
    · exact .inl hold

/-- No call deletes a record. -/
theorem Step.stored {env : Env} {s t : State} {c : Call} {r : Return} (h : Step env s c r t)
    {id : UInt64} (hs : (s.trades id).isSome) : (t.trades id).isSome := by
  cases h with
  | init _ | get _ | list => exact hs
  | create _ _ =>
    rw [created_trades, Store.set_apply]
    split
    · rfl
    · exact hs
  | edit _ _ =>
    rw [edited_trades, Store.set_apply]
    split
    · rfl
    · exact hs

/-- Only `initialize` configures the contract, and only once. -/
theorem Step.escrow_contract {env : Env} {s t : State} {c : Call} {r : Return}
    (h : Step env s c r t) {e : Address} (hs : s.escrowContract = some e) :
    t.escrowContract = some e ∧ ∀ e' d', c ≠ .init e' d' := by
  cases h with
  | init unset =>
    rw [unset] at hs
    cases hs
  | create _ _ => exact ⟨hs, by simp⟩
  | edit _ edit => exact ⟨hs, by cases edit <;> simp⟩
  | get _ | list => exact ⟨hs, by simp⟩

end Azaka.TradeContract
