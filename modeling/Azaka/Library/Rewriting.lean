import Azaka.Library.Noninterference

namespace Stepwise.Machine
variable {σ ℓ ρ ε : Type*} (m : Machine σ ℓ ρ ε)

/-- The run with every label rewritten in the state it arrives in. -/
def rewritten (f : σ → ℓ → ℓ) (s : σ) : List ℓ → List ℓ
  | [] => []
  | l :: ls => f s l :: rewritten f (m.next s l) ls

variable {m}

/-- Labels that do the same in the state they arrive in do the same in a run. -/
theorem rewritten_same {f : σ → ℓ → ℓ} (same : ∀ s l, m.exec (f s l) s = m.exec l s) (s : σ)
    (ls : List ℓ) :
    (m.outcomes s (m.rewritten f s ls)).map Prod.snd = (m.outcomes s ls).map Prod.snd ∧
      m.run s (m.rewritten f s ls) = m.run s ls := by
  induction ls generalizing s with
  | nil => exact ⟨rfl, rfl⟩
  | cons l ls ih =>
    obtain ⟨houtcomes, hrun⟩ := ih (m.next s l)
    have hresult : m.result s (f s l) = m.result s l := congrArg (Except.map Prod.fst) (same s l)
    have hnext : m.next s (f s l) = m.next s l := by
      simp only [next, same]
    refine ⟨?_, ?_⟩
    · simp only [rewritten, outcomes, List.map_cons, hresult, hnext, houtcomes]
    · simp only [rewritten, run_cons, hnext, hrun]

end Stepwise.Machine
