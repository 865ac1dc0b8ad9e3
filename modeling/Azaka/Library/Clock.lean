import Azaka.Library.Machine

namespace Stepwise.Machine
variable {σ ℓ ρ ε τ : Type*} [LE τ] [DecidableLE τ]
variable (m : Machine σ ℓ ρ ε) (time : ℓ → τ)

/-- The machine with a clock, which never goes back. -/
def clocked : Machine (σ × τ) ℓ ρ (Option ε) where
  exec l s :=
    if s.2 ≤ time l then ((m.exec l s.1).map (Prod.map id (·, time l))).mapError some
    else .error none

variable {m time}

theorem clocked_ok {s t : σ} {now later : τ} {l : ℓ} {r : ρ} :
    (m.clocked time).exec l (s, now) = .ok (r, (t, later)) ↔
      now ≤ time l ∧ later = time l ∧ m.exec l s = .ok (r, t) := by
  by_cases hle : now ≤ time l
  · cases hexec : m.exec l s with
    | ok rt =>
      obtain ⟨r', t'⟩ := rt
      simp only [clocked, hle, hexec, if_true, Except.map, Except.mapError, Prod.map, id_eq,
        Except.ok.injEq, Prod.mk.injEq, true_and]
      exact ⟨fun h => ⟨h.2.2.symm, h.1, h.2.1⟩, fun h => ⟨h.2.1, h.2.2, h.1.symm⟩⟩
    | error e => simp [clocked, hle, hexec, Except.map, Except.mapError]
  · simp [clocked, hle]

/-- A run in the order of time is a run against the clock. -/
theorem run_clocked {s : σ} {now : τ} {ls : List ℓ}
    (ordered : (now :: ls.map time).Pairwise (· ≤ ·)) :
    ((m.clocked time).run (s, now) ls).1 = m.run s ls := by
  induction ls generalizing s now with
  | nil => rfl
  | cons l ls ih =>
    rw [List.map_cons, List.pairwise_cons] at ordered
    obtain ⟨hnow, hrest⟩ := ordered
    have hle : now ≤ time l := hnow _ List.mem_cons_self
    cases hexec : m.exec l s with
    | ok rt =>
      have hclocked : (m.clocked time).exec l (s, now) = .ok (rt.1, (rt.2, time l)) :=
        clocked_ok.mpr ⟨hle, rfl, hexec⟩
      rw [run_cons, run_cons, next_ok hclocked, next_ok hexec]
      exact ih hrest
    | error e =>
      have hclocked : (m.clocked time).exec l (s, now) = .error (some e) := by
        simp [clocked, hle, hexec, Except.map, Except.mapError]
      rw [run_cons, run_cons, next_error hclocked, next_error hexec]
      refine ih (List.pairwise_cons.mpr ⟨?_, (List.pairwise_cons.mp hrest).2⟩)
      exact fun t ht => hnow t (List.mem_cons_of_mem _ ht)

variable [Std.IsPreorder τ]

variable (m time) in
/-- Of a run against the clock, the labels that are executed are in the order of
time, and do the same. -/
theorem clocked_run (s : σ) (now : τ) (ls : List ℓ) :
    ∃ ks, (now :: ks.map time).Pairwise (· ≤ ·) ∧
      m.run s ks = ((m.clocked time).run (s, now) ls).1 := by
  induction ls generalizing s now with
  | nil => exact ⟨[], by simp, rfl⟩
  | cons l ls ih =>
    rcases (m.clocked time).next_cases (s, now) l with ⟨r, t, hexec, hnext⟩ | hsame
    · obtain ⟨t, later⟩ := t
      obtain ⟨hle, rfl, hrest⟩ := clocked_ok.mp hexec
      obtain ⟨ks, hordered, hrun⟩ := ih t (time l)
      refine ⟨l :: ks, ?_, ?_⟩
      · refine List.pairwise_cons.mpr ⟨?_, hordered⟩
        intro t' ht'
        rcases List.mem_cons.mp ht' with rfl | ht'
        · exact hle
        · exact Std.IsPreorder.le_trans _ _ _ hle ((List.pairwise_cons.mp hordered).1 t' ht')
      · rw [run_cons, run_cons, hnext, next_ok hrest, hrun]
    · obtain ⟨ks, hordered, hrun⟩ := ih s now
      exact ⟨ks, hordered, by rw [run_cons, hsame, hrun]⟩

variable (m time) in
/-- What runs in the order of time can come to is what runs against the clock
come to. -/
theorem exists_ordered_run (s : σ) (now : τ) (P : σ → Prop) :
    (∃ ls, (now :: ls.map time).Pairwise (· ≤ ·) ∧ P (m.run s ls)) ↔
      ∃ ls, P ((m.clocked time).run (s, now) ls).1 := by
  constructor
  · intro h
    obtain ⟨ls, ordered, hp⟩ := h
    exact ⟨ls, by rwa [run_clocked ordered]⟩
  · intro h
    obtain ⟨ls, hp⟩ := h
    obtain ⟨ks, ordered, hrun⟩ := clocked_run m time s now ls
    exact ⟨ks, ordered, by rwa [hrun]⟩

end Stepwise.Machine
