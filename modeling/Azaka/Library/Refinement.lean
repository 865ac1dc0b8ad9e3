import Azaka.Library.Machine

namespace Stepwise
namespace Machine
variable {σ τ ℓ κ ρ ρ' ε ε' : Type*}

/-- `m` refines `a`. What a step of `m` shows of itself is a step of `a`
between the abstractions of its two states, and a step that shows nothing
changes nothing there. -/
structure Refines (m : Machine σ ℓ ρ ε) (a : Machine τ κ ρ' ε') (view : Done σ ℓ ρ → Option κ)
    (abs : σ → τ) : Prop where
  shown : ∀ s l r t k, m.exec l s = .ok (r, t) → view ⟨s, l, r⟩ = some k →
    ∃ r', a.exec k (abs s) = .ok (r', abs t)
  hidden : ∀ s l r t, m.exec l s = .ok (r, t) → view ⟨s, l, r⟩ = none → abs t = abs s

variable {m : Machine σ ℓ ρ ε} {a : Machine τ κ ρ' ε'} {view : Done σ ℓ ρ → Option κ} {abs : σ → τ}

/-- A run of `m` shows a run of `a` in which no label is refused. -/
theorem Refines.trace (h : m.Refines a view abs) (s : σ) (ls : List ℓ) :
    a.Along a.Accepts (abs s) ((m.log s ls).filterMap view) ∧
      a.run (abs s) ((m.log s ls).filterMap view) = abs (m.run s ls) := by
  refine log_invariant (C := fun _ _ => True)
    (P := fun log t => a.Along a.Accepts (abs s) (log.filterMap view) ∧
      a.run (abs s) (log.filterMap view) = abs t)
    ?_ ⟨along_nil _ _, rfl⟩ (fun _ _ _ _ => trivial)
  intro log t l r u hlog _ hexec
  obtain ⟨haccept, hrun⟩ := hlog
  rw [List.filterMap_append]
  cases hview : view ⟨t, l, r⟩ with
  | none =>
    have hsame := h.hidden t l r u hexec hview
    simp [hview, haccept, hrun, hsame]
  | some k =>
    obtain ⟨r', hk⟩ := h.shown t l r u k hexec hview
    have hone : [(⟨t, l, r⟩ : Done σ ℓ ρ)].filterMap view = [k] := by simp [hview]
    rw [hone, run_append, run_cons, run_nil, hrun]
    refine ⟨along_concat.mpr ⟨haccept, ?_⟩, next_ok hk⟩
    rw [hrun]
    exact ⟨r', abs u, hk⟩

end Machine
end Stepwise
