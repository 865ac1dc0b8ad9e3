import Azaka.Library.Noninterference

namespace Stepwise
namespace Machine
variable {σ τ υ ℓ κ ρ ρ' ε ε' : Type*}

/-- As far as a view of its states and of its answers tells, `n` does what `m`
does to the images of the states, with the same refusals. -/
structure Image (m : Machine σ ℓ ρ ε) (n : Machine τ ℓ ρ' ε) (image : σ → υ) (view : τ → υ)
    (say : ρ' → ρ) : Prop where
  exact : ∀ s w l, view w = image s →
    (n.exec l w).map (Prod.map say view) = (m.exec l s).map (Prod.map id image)

/-- The machine with its answers and refusals translated. What a refusal means
may depend on the state and the label. -/
def translated (m : Machine σ ℓ ρ ε) (result : ρ → ρ') (fault : σ → ℓ → ε → ε') :
    Machine σ ℓ ρ' ε' where
  exec l s := ((m.exec l s).map (Prod.map result id)).mapError (fault s l)

/-- The machine behind a door: labels are read first, and what cannot be read is
refused. -/
def behind (m : Machine σ ℓ ρ ε) (read : κ → Option ℓ) (refusal : ε) : Machine σ κ ρ ε where
  exec k s :=
    match read k with
    | some l => m.exec l s
    | none => .error refusal

section Image
variable {m : Machine σ ℓ ρ ε} {n : Machine τ ℓ ρ' ε} {image : σ → υ} {view : τ → υ}
variable {say : ρ' → ρ} {s : σ} {w : τ}

theorem Image.step (h : Image m n image view say) (hw : view w = image s) (l : ℓ) :
    view (n.next w l) = image (m.next s l) ∧ (n.result w l).map say = m.result s l := by
  have he := h.exact s w l hw
  unfold Machine.result
  cases hm : m.exec l s with
  | ok rt =>
    cases hn : n.exec l w with
    | ok rv =>
      rw [hm, hn] at he
      obtain ⟨hr, hv⟩ := Prod.mk.inj (Except.ok.inj he)
      rw [next_ok (r := rt.1) hm, next_ok (r := rv.1) hn]
      exact ⟨hv, congrArg Except.ok hr⟩
    | error e =>
      rw [hm, hn] at he
      cases he
  | error e =>
    cases hn : n.exec l w with
    | ok rv =>
      rw [hm, hn] at he
      cases he
    | error e' =>
      rw [hm, hn] at he
      obtain rfl := Except.error.inj he
      rw [next_error hm, next_error hn]
      exact ⟨hw, rfl⟩

/-- A run is seen as a run of the image, and nobody can tell them apart by their
answers. -/
theorem Image.run (h : Image m n image view say) (hw : view w = image s) (ls : List ℓ) :
    view (n.run w ls) = image (m.run s ls) ∧
      (n.outcomes w ls).map (Prod.map id (Except.map say)) = m.outcomes s ls := by
  induction ls generalizing s w with
  | nil => exact ⟨hw, rfl⟩
  | cons l ls ih =>
    obtain ⟨hnext, hresult⟩ := h.step hw l
    obtain ⟨hrun, houtcomes⟩ := ih hnext
    refine ⟨hrun, ?_⟩
    rw [outcomes, outcomes, List.map_cons, houtcomes]
    simp only [Prod.map, id_eq, hresult]

/-- Where all is seen as it is. -/
theorem Image.run_exact {n : Machine τ ℓ ρ ε} {image : σ → τ} (h : Image m n image id id)
    (hw : w = image s) (ls : List ℓ) :
    n.run w ls = image (m.run s ls) ∧ n.outcomes w ls = m.outcomes s ls := by
  obtain ⟨hrun, houtcomes⟩ := h.run hw ls
  exact ⟨hrun, by simpa using houtcomes⟩

end Image

section Behind
variable {m : Machine σ ℓ ρ ε} {result : ρ → ρ'} {fault : σ → ℓ → ε → ε'}
variable {read : κ → Option ℓ}

theorem translated_next (s : σ) (l : ℓ) : (m.translated result fault).next s l = m.next s l := by
  cases hm : m.exec l s <;> simp [Machine.next, translated, hm, Except.map, Except.mapError]

theorem translated_run (s : σ) (ls : List ℓ) :
    (m.translated result fault).run s ls = m.run s ls := by
  induction ls generalizing s with
  | nil => rfl
  | cons l ls ih => rw [run_cons, run_cons, translated_next, ih]

theorem behind_next (refusal : ε) (s : σ) (k : κ) :
    (m.behind read refusal).next s k =
      match read k with
      | some l => m.next s l
      | none => s := by
  cases hk : read k <;> simp [Machine.next, behind, hk]

/-- Behind a door the labels that can be read run as they would in the open. -/
theorem behind_run (refusal : ε) (s : σ) (ks : List κ) :
    (m.behind read refusal).run s ks = m.run s (ks.filterMap read) := by
  induction ks generalizing s with
  | nil => rfl
  | cons k ks ih =>
    rw [run_cons, ih, behind_next]
    cases hk : read k <;> simp [hk]

/-- Only how the labels of the run are read matters. -/
theorem behind_outcomes_congr {read' : κ → Option ℓ} (refusal : ε) (s : σ) {ks : List κ}
    (h : ∀ k ∈ ks, read k = read' k) :
    (m.behind read refusal).outcomes s ks = (m.behind read' refusal).outcomes s ks := by
  induction ks generalizing s with
  | nil => rfl
  | cons k ks ih =>
    have hexec : (m.behind read refusal).exec k = (m.behind read' refusal).exec k := by
      funext s
      simp only [behind, h k List.mem_cons_self]
    have hks := fun s => ih s fun j hj => h j (List.mem_cons_of_mem k hj)
    simp only [outcomes, result, Machine.next, hexec, hks]

end Behind
end Machine
end Stepwise
