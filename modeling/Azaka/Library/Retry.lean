import Azaka.Library.Erasure

namespace Stepwise

/-- Some of the labels that may arrive twice have arrived several times in a
row. -/
inductive Retried {ℓ : Type*} (may : ℓ → Prop) : List ℓ → List ℓ → Prop
  | nil : Retried may [] []
  | once {l : ℓ} {ls ks : List ℓ} : Retried may ls ks → Retried may (l :: ls) (l :: ks)
  | again {l : ℓ} {ls ks : List ℓ} (retry : may l) :
      Retried may (l :: ls) (l :: ks) → Retried may (l :: ls) (l :: l :: ks)

namespace Machine
variable {σ σ' ℓ ℓ' ρ ρ' ε ε' : Type*} {m : Machine σ ℓ ρ ε} {n : Machine σ' ℓ' ρ' ε'}
variable {view : σ → σ}

/-- From states with the same view a run has the same outcomes and leads to the
same view. -/
theorem Erases.lockstep (h : m.Erases id id view) {s t : σ} (heq : view s = view t)
    (ls : List ℓ) : m.outcomes s ls = m.outcomes t ls ∧ view (m.run s ls) = view (m.run t ls) := by
  induction ls generalizing s t with
  | nil => exact ⟨rfl, heq⟩
  | cons l ls ih =>
    obtain ⟨hresult, hview⟩ := consistent_of_map (l := l) heq (h.agree heq l)
    obtain ⟨houtcomes, hend⟩ := ih hview
    exact ⟨by rw [outcomes, outcomes, hresult, houtcomes], hend⟩

/-- Executing the label once more changes nothing that is seen. -/
def Repeatable (m : Machine σ ℓ ρ ε) (view : σ → σ) (l : ℓ) : Prop :=
  ∀ s r t r' t', m.exec l s = .ok (r, t) → m.exec l t = .ok (r', t') → view t' = view t

theorem Repeatable.next {l : ℓ} (h : m.Repeatable view l) (s : σ) :
    view (m.next (m.next s l) l) = view (m.next s l) := by
  cases hfirst : m.exec l s with
  | error e => rw [next_error hfirst, next_error hfirst]
  | ok rt =>
    rw [next_ok (r := rt.1) (t := rt.2) hfirst]
    rcases m.next_cases rt.2 l with ⟨r', t', hsecond, hnext⟩ | hsame
    · rw [hnext]
      exact h s rt.1 rt.2 r' t' hfirst hsecond
    · rw [hsame]

/-- Deliveries that are repeated do no harm. The first one of each gets the
answer it would have got, and what is seen in the end is the same. -/
theorem Erases.retries (h : m.Erases id id view) {may : ℓ → Prop}
    (repeatable : ∀ l, may l → m.Repeatable view l) {ls ks : List ℓ} (hretried : Retried may ls ks)
    (s : σ) :
    (m.outcomes s ls).Sublist (m.outcomes s ks) ∧ view (m.run s ks) = view (m.run s ls) := by
  induction hretried generalizing s with
  | nil => exact ⟨.slnil, rfl⟩
  | @once l _ _ _ ih =>
    obtain ⟨hsub, hview⟩ := ih (m.next s l)
    exact ⟨hsub.cons_cons _, hview⟩
  | @again l ls ks retry _ ih =>
    obtain ⟨hsub, hview⟩ := ih s
    obtain ⟨hsame, hend⟩ := h.lockstep ((repeatable l retry).next s) ks
    refine ⟨?_, hend.trans hview⟩
    -- the repeated delivery goes in between the first and the rest
    simp only [outcomes, hsame] at hsub ⊢
    exact hsub.trans ((List.sublist_cons_self _ _).cons_cons _)

theorem Repeatable.left (view' : σ' → σ') {l : ℓ} (h : m.Repeatable view l) :
    (m.beside n).Repeatable (Prod.map view view') (.inl l) := by
  intro s r t r' t' hfirst hsecond
  obtain ⟨_, hs, -, -⟩ := beside_inl_ok.mp hfirst
  obtain ⟨_, ht, hrest, -⟩ := beside_inl_ok.mp hsecond
  exact Prod.ext (h _ _ _ _ _ hs ht) (congrArg view' hrest)

theorem Repeatable.right (view : σ → σ) {view' : σ' → σ'} {l : ℓ'} (h : n.Repeatable view' l) :
    (m.beside n).Repeatable (Prod.map view view') (.inr l) := by
  intro s r t r' t' hfirst hsecond
  obtain ⟨_, hs, -, -⟩ := beside_inr_ok.mp hfirst
  obtain ⟨_, ht, hrest, -⟩ := beside_inr_ok.mp hsecond
  exact Prod.ext (congrArg view hrest) (h _ _ _ _ _ hs ht)

end Machine
end Stepwise
