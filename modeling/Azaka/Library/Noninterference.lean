import Azaka.Library.Machine

namespace Stepwise

/-- Some of the labels that may be deleted have been. -/
inductive Purged {ℓ : Type*} (hidden : ℓ → Prop) : List ℓ → List ℓ → Prop
  | nil : Purged hidden [] []
  | keep {l : ℓ} {ls ks : List ℓ} : Purged hidden ls ks → Purged hidden (l :: ls) (l :: ks)
  | drop {l : ℓ} {ls ks : List ℓ} (may : hidden l) :
      Purged hidden ls ks → Purged hidden (l :: ls) ks

theorem Purged.filter_eq {ℓ : Type*} {hidden : ℓ → Prop} {visible : ℓ → Bool}
    (unseen : ∀ l, hidden l → visible l = false) {ls ks : List ℓ} (h : Purged hidden ls ks) :
    ks.filter visible = ls.filter visible := by
  induction h with
  | nil => rfl
  | keep _ ih => simp only [List.filter_cons, ih]
  | drop may _ ih => simp [unseen _ may, ih]

namespace Machine
variable {σ ℓ ρ ε ω : Type*} (m : Machine σ ℓ ρ ε)

/-- What the caller of a label gets to see. -/
def result (s : σ) (l : ℓ) : Except ε ρ := (m.exec l s).map Prod.fst

/-- All labels of a run with their results, refusals included. -/
def outcomes (s : σ) : List ℓ → List (ℓ × Except ε ρ)
  | [] => []
  | l :: ls => (l, m.result s l) :: outcomes (m.next s l) ls

def observed (visible : ℓ → Bool) (s : σ) (ls : List ℓ) : List (ℓ × Except ε ρ) :=
  (m.outcomes s ls).filter fun o => visible o.1

/-- Invisible labels leave the view alone; visible ones get their result, and
the next view, from the view. -/
structure Unwinding (visible : ℓ → Bool) (view : σ → ω) : Prop where
  respects : ∀ s l, visible l = false → view (m.next s l) = view s
  consistent : ∀ s t l, visible l = true → view s = view t →
    m.result s l = m.result t l ∧ view (m.next s l) = view (m.next t l)

variable {m} {visible : ℓ → Bool} {view : σ → ω}

/-- Executions that agree up to the view have the same result and lead to the
same view. -/
theorem consistent_of_map {s t : σ} {l : ℓ} (h : view s = view t)
    (hmap : (m.exec l s).map (Prod.map id view) = (m.exec l t).map (Prod.map id view)) :
    m.result s l = m.result t l ∧ view (m.next s l) = view (m.next t l) := by
  unfold result
  cases hs : m.exec l s with
  | ok a =>
    cases ht : m.exec l t with
    | ok b =>
      rw [hs, ht] at hmap
      obtain ⟨hr, hv⟩ := Prod.mk.inj (Except.ok.inj hmap)
      rw [next_ok (r := a.1) hs, next_ok (r := b.1) ht]
      exact ⟨congrArg Except.ok hr, hv⟩
    | error e =>
      rw [hs, ht] at hmap
      cases hmap
  | error e =>
    cases ht : m.exec l t with
    | ok b =>
      rw [hs, ht] at hmap
      cases hmap
    | error e' =>
      rw [hs, ht] at hmap
      obtain rfl := Except.error.inj hmap
      rw [next_error hs, next_error ht]
      exact ⟨rfl, h⟩

/-- A run looks like the run of its visible labels alone. -/
theorem Unwinding.purge (u : m.Unwinding visible view) {s t : σ} (h : view s = view t)
    (ls : List ℓ) :
    m.observed visible s ls = m.outcomes t (ls.filter visible) ∧
      view (m.run s ls) = view (m.run t (ls.filter visible)) := by
  induction ls generalizing s t with
  | nil => exact ⟨rfl, h⟩
  | cons l ls ih =>
    cases hl : visible l with
    | false =>
      have hview : view (m.next s l) = view t := (u.respects s l hl).trans h
      simpa [observed, outcomes, hl] using ih hview
    | true =>
      obtain ⟨hresult, hview⟩ := u.consistent s t l hl h
      obtain ⟨hseen, hend⟩ := ih hview
      refine ⟨?_, by simpa [hl] using hend⟩
      simp only [observed] at hseen
      simp [observed, outcomes, hl, hresult, hseen]

/-- Runs that agree on the visible labels cannot be told apart. -/
theorem Unwinding.noninterference (u : m.Unwinding visible view) (s : σ) {ls ks : List ℓ}
    (h : ks.filter visible = ls.filter visible) :
    m.observed visible s ks = m.observed visible s ls ∧
      view (m.run s ks) = view (m.run s ls) := by
  obtain ⟨hks, hkend⟩ := u.purge (s := s) rfl ks
  obtain ⟨hls, hlend⟩ := u.purge (s := s) rfl ls
  rw [hks, hkend, hls, hlend, h]
  exact ⟨rfl, rfl⟩

end Machine
end Stepwise
