import Azaka.Library.Interleave
import Azaka.Library.Noninterference

namespace Stepwise.Machine
variable {σ σ' ℓ ℓ' ρ ρ' ε ε' ω : Type*} {m : Machine σ ℓ ρ ε} {n : Machine σ' ℓ' ρ' ε'}

/-- What is left out of the labels, the results and the states makes no
difference to the rest. -/
structure Erases (m : Machine σ ℓ ρ ε) (trim : ℓ → ℓ) (say : ρ → ρ) (view : σ → σ) : Prop where
  trimmed : ∀ l, trim (trim l) = trim l
  viewed : ∀ s, view (view s) = view s
  exec : ∀ s l, (m.exec (trim l) (view s)).map (Prod.map say view) =
    (m.exec l s).map (Prod.map say view)

namespace Erases
variable {trim : ℓ → ℓ} {say : ρ → ρ} {view : σ → σ}

/-- States with the same view need not be told apart. -/
theorem agree (h : m.Erases trim say view) {s t : σ} (heq : view s = view t) (l : ℓ) :
    (m.exec (trim l) s).map (Prod.map say view) = (m.exec l t).map (Prod.map say view) := by
  rw [← h.exec s (trim l), h.trimmed, heq, h.exec t l]

theorem step (h : m.Erases trim say view) {s t : σ} (heq : view s = view t) (l : ℓ) :
    (m.result s (trim l)).map say = (m.result t l).map say ∧
      view (m.next s (trim l)) = view (m.next t l) := by
  have hmap := h.agree heq l
  unfold result
  cases hs : m.exec (trim l) s with
  | ok a =>
    cases ht : m.exec l t with
    | ok b =>
      rw [hs, ht] at hmap
      obtain ⟨hr, hv⟩ := Prod.mk.inj (Except.ok.inj hmap)
      rw [next_ok (r := a.1) hs, next_ok (r := b.1) ht]
      exact ⟨congrArg Except.ok hr, hv⟩
    | error e =>
      rw [hs, ht] at hmap
      cases hmap
  | error e =>
    cases ht : m.exec l t with
    | ok b =>
      rw [hs, ht] at hmap
      cases hmap
    | error e' =>
      rw [hs, ht] at hmap
      obtain rfl := Except.error.inj hmap
      rw [next_error hs, next_error ht]
      exact ⟨rfl, heq⟩

/-- A run goes as if the details were not there. -/
theorem run (h : m.Erases trim say view) {s t : σ} (heq : view s = view t) (ls : List ℓ) :
    (m.outcomes s (ls.map trim)).map (fun o => o.2.map say) =
        (m.outcomes t ls).map (fun o => o.2.map say) ∧
      view (m.run s (ls.map trim)) = view (m.run t ls) := by
  induction ls generalizing s t with
  | nil => exact ⟨rfl, heq⟩
  | cons l ls ih =>
    obtain ⟨hresult, hview⟩ := h.step heq l
    obtain ⟨houtcomes, hend⟩ := ih hview
    refine ⟨?_, hend⟩
    simp only [outcomes, List.map_cons, hresult, houtcomes]

end Erases

/-- What is seen of a step on one side, and what of the other. -/
def besideLeft (g : ω) : Except ε (ρ × σ) → Except (ε ⊕ ε') ((ρ ⊕ ρ') × (σ × ω))
  | .ok (r, t) => .ok (.inl r, (t, g))
  | .error e => .error (.inl e)

def besideRight (g : ω) : Except ε' (ρ' × σ') → Except (ε ⊕ ε') ((ρ ⊕ ρ') × (ω × σ'))
  | .ok (r, t) => .ok (.inr r, (g, t))
  | .error e => .error (.inr e)

section
variable (say : ρ → ρ) (say' : ρ' → ρ') (view : σ → σ) (view' : σ' → σ')

theorem beside_inl_map (s : σ × σ') (l : ℓ) :
    ((m.beside n).exec (.inl l) s).map (Prod.map (Sum.map say say') (Prod.map view view')) =
      besideLeft (view' s.2) ((m.exec l s.1).map (Prod.map say view)) := by
  cases h : m.exec l s.1 <;> simp [beside, h, Except.map, besideLeft]

theorem beside_inr_map (s : σ × σ') (l : ℓ') :
    ((m.beside n).exec (.inr l) s).map (Prod.map (Sum.map say say') (Prod.map view view')) =
      besideRight (view s.1) ((n.exec l s.2).map (Prod.map say' view')) := by
  cases h : n.exec l s.2 <;> simp [beside, h, Except.map, besideRight]

end

/-- Details of two machines are details of them side by side. -/
theorem Erases.beside {trim : ℓ → ℓ} {trim' : ℓ' → ℓ'} {say : ρ → ρ} {say' : ρ' → ρ'}
    {view : σ → σ} {view' : σ' → σ'} (h : m.Erases trim say view) (h' : n.Erases trim' say' view') :
    (m.beside n).Erases (Sum.map trim trim') (Sum.map say say') (Prod.map view view') where
  trimmed l := by
    cases l with
    | inl l => exact congrArg Sum.inl (h.trimmed l)
    | inr l => exact congrArg Sum.inr (h'.trimmed l)
  viewed s := Prod.ext (h.viewed s.1) (h'.viewed s.2)
  exec s l := by
    cases l with
    | inl l =>
      rw [Sum.map_inl, beside_inl_map, beside_inl_map, Prod.map_fst, Prod.map_snd, h'.viewed,
        h.exec]
    | inr l =>
      rw [Sum.map_inr, beside_inr_map, beside_inr_map, Prod.map_fst, Prod.map_snd, h.viewed,
        h'.exec]

end Stepwise.Machine
