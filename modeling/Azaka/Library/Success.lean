import Azaka.Library.Interleave

namespace Stepwise.Machine
variable {σ σ' ℓ ℓ' ρ ρ' ε ε' : Type*} {m : Machine σ ℓ ρ ε} {n : Machine σ' ℓ' ρ' ε'}

/-- Every label is executed, and the last one leads to the second state. -/
inductive Succeeds (m : Machine σ ℓ ρ ε) : σ → List ℓ → σ → Prop
  | nil {s : σ} : Succeeds m s [] s
  | cons {s u t : σ} {l : ℓ} {r : ρ} {ls : List ℓ} (first : m.exec l s = .ok (r, u))
      (rest : Succeeds m u ls t) : Succeeds m s (l :: ls) t

namespace Succeeds
variable {s t u : σ} {ls ks : List ℓ}

theorem run_eq (h : m.Succeeds s ls t) : m.run s ls = t := by
  induction h with
  | nil => rfl
  | cons first _ ih => rw [run_cons, next_ok first, ih]

theorem accepts (h : m.Succeeds s ls t) : m.Along m.Accepts s ls := by
  induction h with
  | nil => exact along_nil _ _
  | cons first _ ih =>
    refine along_cons.mpr ⟨⟨_, _, first⟩, ?_⟩
    rw [next_ok first]
    exact ih

theorem append (h : m.Succeeds s ls u) (h' : m.Succeeds u ks t) : m.Succeeds s (ls ++ ks) t := by
  induction h with
  | nil => exact h'
  | cons first _ ih => exact .cons first (ih h')

/-- Two machines side by side succeed in every interleaving. -/
theorem beside {s' t' : σ'} {ls : List (ℓ ⊕ ℓ')}
    (left : m.Succeeds s (ls.filterMap Sum.getLeft?) t)
    (right : n.Succeeds s' (ls.filterMap Sum.getRight?) t') :
    (m.beside n).Succeeds (s, s') ls (t, t') := by
  induction ls generalizing s s' with
  | nil =>
    cases left
    cases right
    exact .nil
  | cons l ls ih =>
    cases l with
    | inl l =>
      cases left with
      | @cons _ u _ _ r _ first rest =>
        have hexec : (m.beside n).exec (.inl l) (s, s') = .ok (.inl r, (u, s')) :=
          beside_inl_ok.mpr ⟨r, first, rfl, rfl⟩
        exact .cons hexec (ih rest right)
    | inr l =>
      cases right with
      | @cons _ u _ _ r _ first rest =>
        have hexec : (m.beside n).exec (.inr l) (s, s') = .ok (.inr r, (s, u)) :=
          beside_inr_ok.mpr ⟨r, first, rfl, rfl⟩
        exact .cons hexec (ih left rest)

end Succeeds
end Stepwise.Machine
