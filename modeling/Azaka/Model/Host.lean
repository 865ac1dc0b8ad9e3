import Mathlib.Algebra.Group.Nat.Defs

namespace Azaka

/-- An account's public key or a contract's hash. -/
inductive Address where
  | account (key : BitVec 256)
  | contract (hash : BitVec 256)
  deriving DecidableEq, Repr

/-- `i128` in two's complement; `toInt` is the amount meant. -/
abbrev I128 := BitVec 128

/-- What a contract sees of the call it serves. -/
structure Env where
  current : Address
  auth : Address → Bool
  sequence : UInt32

/-- Why the host rolled a call back: the contract returned `Err`, or it trapped. -/
inductive Fault (ε : Type) where
  | error (e : ε)
  | unauthorized (a : Address)
  | panicked (message : String)
  | subcall
  deriving DecidableEq, Repr

/-- A call as it arrives at a contract. -/
structure Tx (κ : Type) where
  auth : Address → Bool
  sequence : UInt32
  call : κ

def Tx.env {κ : Type} (tx : Tx κ) (self : Address) : Env :=
  { current := self, auth := tx.auth, sequence := tx.sequence }

/-- A call authorised by the listed addresses. -/
def signed {κ : Type} (signers : List Address) (sequence : UInt32) (call : κ) : Tx κ where
  auth a := signers.contains a
  sequence := sequence
  call := call

variable {ε : Type}

def Env.requireAuth (env : Env) (a : Address) : Except (Fault ε) Unit :=
  if env.auth a then .ok () else .error (.unauthorized a)

/-- `Option::unwrap`. -/
def unwrap {α : Type} : Option α → Except (Fault ε) α
  | some a => .ok a
  | none => .error (.panicked "called `Option::unwrap()` on a `None` value")

/-- `Option::ok_or` followed by `?`. -/
def okOr {α : Type} (e : ε) : Option α → Except (Fault ε) α
  | some a => .ok a
  | none => .error (.error e)

/-- `return Err(e)` when the check fails. -/
def ensure (holds : Bool) (e : ε) : Except (Fault ε) Unit :=
  if holds then .ok () else .error (.error e)

/-- `u64` addition under overflow checks. -/
def checkedAdd (a b : UInt64) : Except (Fault ε) UInt64 :=
  if a.toNat + b.toNat < 2 ^ 64 then .ok (a + b)
  else .error (.panicked "attempt to add with overflow")

theorem bind_ok {δ α β : Type} {x : Except δ α} {f : α → Except δ β} {b : β} :
    (x >>= f) = .ok b ↔ ∃ a, x = .ok a ∧ f a = .ok b := by
  cases x <;> simp [bind, Except.bind]

theorem bind_error {δ α β : Type} {x : Except δ α} {f : α → Except δ β} {e : δ} :
    (x >>= f) = .error e ↔ x = .error e ∨ ∃ a, x = .ok a ∧ f a = .error e := by
  cases x <;> simp [bind, Except.bind]

theorem map_error {δ α β : Type} {x : Except δ α} {f : α → β} {e : δ} :
    x.map f = .error e ↔ x = .error e := by
  cases x <;> simp [Except.map]

theorem map_ok {δ α β : Type} {x : Except δ α} {f : α → β} {b : β} :
    x.map f = .ok b ↔ ∃ a, x = .ok a ∧ f a = b := by
  cases x <;> simp [Except.map]

@[simp] theorem requireAuth_ok {env : Env} {a : Address} {u : Unit} :
    (env.requireAuth a : Except (Fault ε) Unit) = .ok u ↔ env.auth a = true := by
  simp [Env.requireAuth]

@[simp] theorem unwrap_ok {α : Type} {o : Option α} {a : α} :
    (unwrap o : Except (Fault ε) α) = .ok a ↔ o = some a := by
  cases o <;> simp [unwrap]

@[simp] theorem okOr_ok {α : Type} {e : ε} {o : Option α} {a : α} :
    okOr e o = .ok a ↔ o = some a := by
  cases o <;> simp [okOr]

@[simp] theorem ensure_ok {b : Bool} {e : ε} {u : Unit} : ensure b e = .ok u ↔ b = true := by
  simp [ensure]

@[simp] theorem checkedAdd_ok {a b c : UInt64} :
    (checkedAdd a b : Except (Fault ε) UInt64) = .ok c ↔
      a.toNat + b.toNat < 2 ^ 64 ∧ c = a + b := by
  unfold checkedAdd
  split
  · rename_i room
    refine ⟨fun h => ⟨room, (Except.ok.inj h).symm⟩, ?_⟩
    intro h
    rw [h.2]
  · rename_i full
    exact ⟨(by intro h; cases h), fun h => absurd h.1 full⟩

@[simp] theorem requireAuth_error {env : Env} {a : Address} {f : Fault ε} :
    (env.requireAuth a : Except (Fault ε) Unit) = .error f ↔
      env.auth a = false ∧ f = .unauthorized a := by
  cases h : env.auth a <;> simp [Env.requireAuth, h, eq_comm]

@[simp] theorem unwrap_error {α : Type} {o : Option α} {e : ε} :
    unwrap o ≠ .error (.error e) := by
  cases o <;> simp [unwrap]

@[simp] theorem okOr_error {α : Type} {e : ε} {o : Option α} {f : Fault ε} :
    okOr e o = .error f ↔ o = none ∧ f = .error e := by
  cases o <;> simp [okOr, eq_comm]

@[simp] theorem ensure_error {b : Bool} {e : ε} {f : Fault ε} :
    ensure b e = .error f ↔ b = false ∧ f = .error e := by
  cases b <;> simp [ensure, eq_comm]

@[simp] theorem checkedAdd_error {a b : UInt64} {e : ε} : checkedAdd a b ≠ .error (.error e) := by
  unfold checkedAdd
  split <;> simp

/-- Two computations agree on what a function says about their outcomes. -/
theorem bind_map {δ α β γ : Type} {x : Except δ α} {f f' : α → Except δ β} {g : β → γ}
    (h : ∀ a, (f a).map g = (f' a).map g) : (x >>= f).map g = (x >>= f').map g := by
  cases x with
  | ok a => exact h a
  | error e => rfl

/-- What is said about the outcome of an operation passes to the outcome of the
call that wraps it. -/
theorem map_agree {δ α β γ κ : Type} {x y : Except δ α} {g : α → β} (h : x.map g = y.map g)
    {f : α → γ} {k : γ → κ} (q : β → κ) (hq : ∀ a, k (f a) = q (g a)) :
    (x.map f).map k = (y.map f).map k := by
  have hmap : ∀ z : Except δ α, (z.map f).map k = (z.map g).map q := by
    intro z
    cases z with
    | ok a => exact congrArg Except.ok (hq a)
    | error e => rfl
  rw [hmap x, hmap y, h]

end Azaka
