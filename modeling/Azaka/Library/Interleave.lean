import Azaka.Library.Machine

namespace Stepwise
namespace Machine
variable {σ σ' ℓ ℓ' κ ρ ρ' ε ε' : Type*}

/-- Two machines side by side. Each label runs on its own side, and the other
side's state is out of reach. -/
def beside (m : Machine σ ℓ ρ ε) (n : Machine σ' ℓ' ρ' ε') :
    Machine (σ × σ') (ℓ ⊕ ℓ') (ρ ⊕ ρ') (ε ⊕ ε') where
  exec
    | .inl l, s =>
      match m.exec l s.1 with
      | .ok (r, t) => .ok (.inl r, (t, s.2))
      | .error e => .error (.inl e)
    | .inr l, s =>
      match n.exec l s.2 with
      | .ok (r, t) => .ok (.inr r, (s.1, t))
      | .error e => .error (.inr e)

/-- The same machine under other labels. -/
def relabel (m : Machine σ ℓ ρ ε) (f : κ → ℓ) : Machine σ κ ρ ε where
  exec k s := m.exec (f k) s

variable {m : Machine σ ℓ ρ ε} {n : Machine σ' ℓ' ρ' ε'}

theorem beside_inl_ok {s t : σ × σ'} {l : ℓ} {r : ρ ⊕ ρ'} :
    (m.beside n).exec (.inl l) s = .ok (r, t) ↔
      ∃ r', m.exec l s.1 = .ok (r', t.1) ∧ t.2 = s.2 ∧ r = .inl r' := by
  obtain ⟨t₁, t₂⟩ := t
  cases h : m.exec l s.1 with
  | ok rt =>
    obtain ⟨r', u⟩ := rt
    simp only [beside, h, Except.ok.injEq, Prod.mk.injEq]
    constructor
    · intro h
      obtain ⟨rfl, rfl, rfl⟩ := h
      exact ⟨r', ⟨rfl, rfl⟩, rfl, rfl⟩
    · intro h
      obtain ⟨_, ⟨rfl, rfl⟩, rfl, rfl⟩ := h
      exact ⟨rfl, rfl, rfl⟩
  | error e => simp [beside, h]

theorem beside_inr_ok {s t : σ × σ'} {l : ℓ'} {r : ρ ⊕ ρ'} :
    (m.beside n).exec (.inr l) s = .ok (r, t) ↔
      ∃ r', n.exec l s.2 = .ok (r', t.2) ∧ t.1 = s.1 ∧ r = .inr r' := by
  obtain ⟨t₁, t₂⟩ := t
  cases h : n.exec l s.2 with
  | ok rt =>
    obtain ⟨r', u⟩ := rt
    simp only [beside, h, Except.ok.injEq, Prod.mk.injEq]
    constructor
    · intro h
      obtain ⟨rfl, rfl, rfl⟩ := h
      exact ⟨r', ⟨rfl, rfl⟩, rfl, rfl⟩
    · intro h
      obtain ⟨_, ⟨rfl, rfl⟩, rfl, rfl⟩ := h
      exact ⟨rfl, rfl, rfl⟩
  | error e => simp [beside, h]

theorem beside_inl_fails {s : σ × σ'} {l : ℓ} {p : ε ⊕ ε' → Prop} :
    (∃ e, (m.beside n).exec (.inl l) s = .error e ∧ p e) ↔
      ∃ e, m.exec l s.1 = .error e ∧ p (.inl e) := by
  cases h : m.exec l s.1 <;> simp [beside, h]

theorem beside_inr_fails {s : σ × σ'} {l : ℓ'} {p : ε ⊕ ε' → Prop} :
    (∃ e, (m.beside n).exec (.inr l) s = .error e ∧ p e) ↔
      ∃ e, n.exec l s.2 = .error e ∧ p (.inr e) := by
  cases h : n.exec l s.2 <;> simp [beside, h]

theorem beside_inl_congr {s : σ × σ'} {l k : ℓ} (h : m.exec l s.1 = m.exec k s.1) :
    (m.beside n).exec (.inl l) s = (m.beside n).exec (.inl k) s := by
  simp only [beside, h]

theorem beside_inr_congr {s : σ × σ'} {l k : ℓ'} (h : n.exec l s.2 = n.exec k s.2) :
    (m.beside n).exec (.inr l) s = (m.beside n).exec (.inr k) s := by
  simp only [beside, h]

@[simp] theorem beside_next_inl (s : σ × σ') (l : ℓ) :
    (m.beside n).next s (.inl l) = (m.next s.1 l, s.2) := by
  cases h : m.exec l s.1 <;> simp [next, beside, h]

@[simp] theorem beside_next_inr (s : σ × σ') (l : ℓ') :
    (m.beside n).next s (.inr l) = (s.1, n.next s.2 l) := by
  cases h : n.exec l s.2 <;> simp [next, beside, h]

/-- Each side of an interleaved run is the run of its own labels. -/
theorem beside_run (s : σ × σ') (ls : List (ℓ ⊕ ℓ')) :
    (m.beside n).run s ls =
      (m.run s.1 (ls.filterMap Sum.getLeft?), n.run s.2 (ls.filterMap Sum.getRight?)) := by
  induction ls generalizing s with
  | nil => rfl
  | cons l ls ih =>
    rw [run_cons, ih]
    cases l with
    | inl l => simp [List.filterMap_cons]
    | inr l => simp [List.filterMap_cons]

/-- Each label meets the condition of its own side. -/
def Either (C : σ → ℓ → Prop) (D : σ' → ℓ' → Prop) (s : σ × σ') : ℓ ⊕ ℓ' → Prop
  | .inl l => C s.1 l
  | .inr l => D s.2 l

theorem beside_along {C : σ → ℓ → Prop} {D : σ' → ℓ' → Prop} {s : σ × σ'} {ls : List (ℓ ⊕ ℓ')}
    (h : (m.beside n).Along (Either C D) s ls) :
    m.Along C s.1 (ls.filterMap Sum.getLeft?) ∧ n.Along D s.2 (ls.filterMap Sum.getRight?) := by
  induction ls generalizing s with
  | nil => exact ⟨along_nil _ _, along_nil _ _⟩
  | cons l ls ih =>
    obtain ⟨hl, hls⟩ := along_cons.mp h
    obtain ⟨hleft, hright⟩ := ih hls
    cases l with
    | inl l =>
      rw [beside_next_inl] at hleft hright
      exact ⟨along_cons.mpr ⟨hl, hleft⟩, hright⟩
    | inr l =>
      rw [beside_next_inr] at hleft hright
      exact ⟨hleft, along_cons.mpr ⟨hl, hright⟩⟩

end Machine
end Stepwise
