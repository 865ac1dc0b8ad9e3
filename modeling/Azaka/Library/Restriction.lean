import Azaka.Library.Noninterference
import Azaka.Library.Store
import Mathlib.Data.List.Count

namespace Keyed.Store
variable {κ ν : Type*}

/-- The store without the other keys. -/
def only (K : κ → Bool) (s : Store κ ν) : Store κ ν := fun k => if K k then s k else none

@[simp] theorem only_of_mem {K : κ → Bool} {k : κ} (h : K k = true) (s : Store κ ν) :
    s.only K k = s k := by
  simp [only, h]

@[simp] theorem only_only (K : κ → Bool) (s : Store κ ν) : (s.only K).only K = s.only K := by
  funext k
  cases h : K k <;> simp [only, h]

variable [DecidableEq κ]

/-- A write of a key that is left out is not seen. -/
theorem only_set_of_not_mem {K : κ → Bool} {k : κ} (h : K k = false) (s : Store κ ν) (v : ν) :
    (s.set k v).only K = s.only K := by
  funext j
  by_cases hj : j = k
  · subst hj
    simp [only, h]
  · simp [only, hj]

/-- Writes see no more of the store than the reader of the result. -/
@[simp] theorem only_set_only (K : κ → Bool) (s : Store κ ν) (k : κ) (v : ν) :
    ((s.only K).set k v).only K = (s.set k v).only K := by
  funext j
  by_cases hj : j = k
  · subst hj
    simp [only]
  · cases h : K j <;> simp [only, hj, h]

end Keyed.Store

namespace Stepwise

/-- Two lists that look alike through every filter of a family have the same
entries, if every entry passes one of them. -/
theorem perm_of_filters {α κ : Type*} {shows : κ → α → Bool}
    (covered : ∀ a, ∃ k, shows k a = true) {xs ys : List α}
    (h : ∀ k, xs.filter (shows k) = ys.filter (shows k)) : xs.Perm ys := by
  classical
  refine List.perm_iff_count.mpr ?_
  intro a
  obtain ⟨k, hk⟩ := covered a
  rw [← List.count_filter hk, h k, List.count_filter hk]

namespace Machine
variable {σ ℓ ρ ε κ : Type*} {m : Machine σ ℓ ρ ε}

/-- The machine on the states that keep an invariant. -/
def within (m : Machine σ ℓ ρ ε) (Inv : σ → Prop)
    (closed : ∀ s l r t, m.exec l s = .ok (r, t) → Inv s → Inv t) :
    Machine {s : σ // Inv s} ℓ ρ ε where
  exec l s :=
    match h : m.exec l s.1 with
    | .ok (r, t) => .ok (r, ⟨t, closed s.1 l r t h s.2⟩)
    | .error e => .error e

section Within
variable {Inv : σ → Prop} (closed : ∀ s l r t, m.exec l s = .ok (r, t) → Inv s → Inv t)

theorem within_exec (s : {s : σ // Inv s}) (l : ℓ) :
    ((m.within Inv closed).exec l s).map (Prod.map id Subtype.val) = m.exec l s.1 := by
  simp only [within]
  split
  · rename_i r t h
    exact h.symm
  · rename_i e h
    exact h.symm

theorem within_step (s : {s : σ // Inv s}) (l : ℓ) :
    (m.within Inv closed).result s l = m.result s.1 l ∧
      ((m.within Inv closed).next s l).1 = m.next s.1 l := by
  have hexec := within_exec closed s l
  unfold result
  cases h : (m.within Inv closed).exec l s with
  | ok rt =>
    rw [h] at hexec
    rw [next_ok (r := rt.1) (t := rt.2) h, next_ok (r := rt.1) (t := rt.2.1) hexec.symm, ← hexec]
    exact ⟨rfl, rfl⟩
  | error e =>
    rw [h] at hexec
    rw [next_error h, next_error hexec.symm, ← hexec]
    exact ⟨rfl, rfl⟩

theorem within_outcomes (s : {s : σ // Inv s}) (ls : List ℓ) :
    (m.within Inv closed).outcomes s ls = m.outcomes s.1 ls ∧
      ((m.within Inv closed).run s ls).1 = m.run s.1 ls := by
  induction ls generalizing s with
  | nil => exact ⟨rfl, rfl⟩
  | cons l ls ih =>
    obtain ⟨hresult, hnext⟩ := within_step closed s l
    obtain ⟨houtcomes, hrun⟩ := ih ((m.within Inv closed).next s l)
    refine ⟨?_, ?_⟩
    · rw [outcomes, outcomes, hresult, houtcomes, hnext]
    · rw [run_cons, run_cons, hrun, hnext]

end Within

/-- A label that is not visible does nothing to what the restriction leaves of
the state, and one that is visible needs nothing else, wherever the invariant
holds. -/
structure Restricts (m : Machine σ ℓ ρ ε) (Inv : σ → Prop) (visible : ℓ → Bool)
    (restrict : σ → σ) : Prop where
  closed : ∀ s l r t, m.exec l s = .ok (r, t) → Inv s → Inv t
  hidden : ∀ s l r t, Inv s → m.exec l s = .ok (r, t) → visible l = false → restrict t = restrict s
  seen : ∀ s l, Inv s → visible l = true →
    (m.exec l (restrict s)).map (Prod.map id restrict) =
      (m.exec l s).map (Prod.map id restrict)

theorem Restricts.unwinding {Inv : σ → Prop} {visible : ℓ → Bool} {restrict : σ → σ}
    (h : m.Restricts Inv visible restrict) :
    (m.within Inv h.closed).Unwinding visible (fun s => restrict s.1) where
  respects s l hl := by
    rw [(within_step h.closed s l).2]
    rcases m.next_cases s.1 l with ⟨r, t, hexec, hnext⟩ | hsame
    · rw [hnext]
      exact h.hidden s.1 l r t s.2 hexec hl
    · rw [hsame]
  consistent s t l hl heq := by
    obtain ⟨hs, hsnext⟩ := within_step h.closed s l
    obtain ⟨ht, htnext⟩ := within_step h.closed t l
    rw [hs, ht, hsnext, htnext]
    refine consistent_of_map heq ?_
    rw [← h.seen s.1 l s.2 hl, ← h.seen t.1 l t.2 hl, heq]

theorem Restricts.noninterference {Inv : σ → Prop} {visible : ℓ → Bool} {restrict : σ → σ}
    (h : m.Restricts Inv visible restrict) {s : σ} (hs : Inv s) {ls ks : List ℓ}
    (heq : ks.filter visible = ls.filter visible) :
    m.observed visible s ks = m.observed visible s ls ∧
      restrict (m.run s ks) = restrict (m.run s ls) := by
  have hinner := h.unwinding.noninterference ⟨s, hs⟩ heq
  simpa only [observed, within_outcomes] using hinner

/-- Runs that look alike to every observer of a family do the same, call by
call and observer by observer. Only the order in which different observers are
served may differ. -/
theorem outcomes_perm {Inv : σ → Prop} {shows : κ → ℓ → Bool} {restrict : κ → σ → σ}
    (h : ∀ k, m.Restricts Inv (shows k) (restrict k)) (covered : ∀ l, ∃ k, shows k l = true)
    {s : σ} (hs : Inv s) {ls ks : List ℓ} (heq : ∀ k, ks.filter (shows k) = ls.filter (shows k)) :
    (m.outcomes s ks).Perm (m.outcomes s ls) ∧
      (∀ k, m.observed (shows k) s ks = m.observed (shows k) s ls) ∧
      ∀ k, restrict k (m.run s ks) = restrict k (m.run s ls) := by
  have hseen : ∀ k, (m.outcomes s ks).filter (fun o => shows k o.1) =
      (m.outcomes s ls).filter (fun o => shows k o.1) :=
    fun k => ((h k).noninterference hs (heq k)).1
  exact ⟨perm_of_filters (fun o => covered o.1) hseen, hseen,
    fun k => ((h k).noninterference hs (heq k)).2⟩

end Machine
end Stepwise
