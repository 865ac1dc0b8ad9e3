import Mathlib.Logic.Function.Basic
import Mathlib.Tactic.TypeStar

namespace Keyed

/-- Keyed storage: every key holds at most one value. -/
abbrev Store (κ ν : Type*) := κ → Option ν

namespace Store
variable {κ ν : Type*}

def empty : Store κ ν := fun _ => none

/-- The store with every value rewritten. -/
def mapped (f : ν → ν) (s : Store κ ν) : Store κ ν := fun k => (s k).map f

variable [DecidableEq κ]

def set (s : Store κ ν) (k : κ) (v : ν) : Store κ ν := Function.update s k (some v)

def remove (s : Store κ ν) (k : κ) : Store κ ν := Function.update s k none

/-- Rewrite the value under a key, if there is one. -/
def amend (s : Store κ ν) (k : κ) (f : ν → ν) : Store κ ν :=
  match s k with
  | some v => s.set k (f v)
  | none => s

omit [DecidableEq κ] in
@[simp] theorem empty_apply (k : κ) : (empty : Store κ ν) k = none := rfl

@[simp] theorem set_same (s : Store κ ν) (k : κ) (v : ν) : s.set k v k = some v := by
  simp [set]

@[simp] theorem set_of_ne {s : Store κ ν} {k j : κ} {v : ν} (h : j ≠ k) : s.set k v j = s j := by
  simp [set, h]

@[simp] theorem remove_same (s : Store κ ν) (k : κ) : s.remove k k = none := by
  simp [remove]

@[simp] theorem remove_of_ne {s : Store κ ν} {k j : κ} (h : j ≠ k) : s.remove k j = s j := by
  simp [remove, h]

theorem amend_some {s : Store κ ν} {k : κ} {v : ν} (f : ν → ν) (h : s k = some v) :
    s.amend k f = s.set k (f v) := by
  simp [amend, h]

@[simp] theorem amend_set (s : Store κ ν) (k : κ) (v : ν) (f : ν → ν) :
    (s.set k v).amend k f = s.set k (f v) := by
  rw [amend_some f (set_same s k v)]
  exact Function.update_idem _ _ _

theorem set_set (s : Store κ ν) (k : κ) (v w : ν) : (s.set k v).set k w = s.set k w :=
  Function.update_idem _ _ _

/-- A key that held nothing is as before once its new value is removed. -/
theorem remove_set {s : Store κ ν} {k : κ} (h : s k = none) (v : ν) : (s.set k v).remove k = s := by
  rw [remove, set, Function.update_idem, ← h, Function.update_eq_self]

@[simp] theorem mapped_set (f : ν → ν) (s : Store κ ν) (k : κ) (v : ν) :
    (s.set k v).mapped f = (s.mapped f).set k (f v) := by
  funext j
  by_cases h : j = k
  · subst h
    simp [mapped]
  · simp [mapped, h]

omit [DecidableEq κ] in
theorem mapped_mapped {f : ν → ν} (h : ∀ v, f (f v) = f v) (s : Store κ ν) :
    (s.mapped f).mapped f = s.mapped f := by
  funext k
  cases hk : s k <;> simp [mapped, hk, h]

theorem set_apply (s : Store κ ν) (k j : κ) (v : ν) :
    s.set k v j = if j = k then some v else s j := by
  by_cases h : j = k
  · subst h; simp
  · simp [h]

/-- A key that holds something after a write was either the written key or
held it before. -/
theorem set_eq_some {s : Store κ ν} {k j : κ} {v w : ν} (h : s.set k v j = some w) :
    (j = k ∧ w = v) ∨ (j ≠ k ∧ s j = some w) := by
  by_cases hj : j = k
  · subst hj
    exact .inl ⟨rfl, by simpa [eq_comm] using h⟩
  · exact .inr ⟨hj, by simpa [hj] using h⟩

theorem remove_eq_some {s : Store κ ν} {k j : κ} {w : ν} (h : s.remove k j = some w) :
    j ≠ k ∧ s j = some w := by
  by_cases hj : j = k
  · subst hj
    simp at h
  · exact ⟨hj, by simpa [hj] using h⟩

end Store
end Keyed
