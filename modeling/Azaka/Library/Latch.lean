import Azaka.Library.Machine

namespace Stepwise

/-- A cell written once: a label that arms it is executed only while it is
empty, and no other label touches it. -/
structure Latch {σ ℓ ρ ε α : Type*} (m : Machine σ ℓ ρ ε) (cell : σ → Option α)
    (arms : ℓ → Option α) : Prop where
  set : ∀ s l r t a, m.exec l s = .ok (r, t) → arms l = some a → cell s = none ∧ cell t = some a
  keep : ∀ s l r t, m.exec l s = .ok (r, t) → arms l = none → cell t = cell s

namespace Latch
variable {σ ℓ ρ ε α : Type*} {m : Machine σ ℓ ρ ε} {cell : σ → Option α} {arms : ℓ → Option α}

/-- The values the executed labels of a log armed the cell with. -/
def armed (arms : ℓ → Option α) (log : List (Done σ ℓ ρ)) : List α :=
  log.filterMap fun d => arms d.label

theorem step_kept (latch : Latch m cell arms) {s t : σ} {l : ℓ} {r : ρ}
    (h : m.exec l s = .ok (r, t)) {a : α} (hs : cell s = some a) : cell t = some a := by
  cases hl : arms l with
  | none => rw [latch.keep s l r t h hl, hs]
  | some b =>
    have hempty := (latch.set s l r t b h hl).1
    rw [hs] at hempty
    cases hempty

theorem run_kept (latch : Latch m cell arms) {s : σ} (ls : List ℓ) {a : α}
    (hs : cell s = some a) : cell (m.run s ls) = some a :=
  Machine.run_invariant (P := fun t => cell t = some a)
    (fun _ _ _ _ ha he => latch.step_kept he ha) ls hs

/-- The cell holds what the only executed arming label put there. -/
theorem armed_run (latch : Latch m cell arms) {s : σ} (hs : cell s = none) (ls : List ℓ) :
    armed arms (m.log s ls) = (cell (m.run s ls)).toList := by
  refine Machine.log_invariant (m := m) (C := fun _ _ => True)
    (P := fun log t => armed arms log = (cell t).toList) ?_ (by simp [armed, hs])
    (fun _ _ _ _ => trivial)
  intro log a l r b ha _ he
  simp only [armed, List.filterMap_append] at ha ⊢
  cases hl : arms l with
  | none => simp [ha, hl, latch.keep a l r b he hl]
  | some v =>
    obtain ⟨hempty, hset⟩ := latch.set a l r b v he hl
    simp [ha, hl, hempty, hset]

/-- Whatever an executed label found in the cell is what the only arming label
of the whole run put there. -/
theorem armed_of_mem_log (latch : Latch m cell arms) {s : σ} (hs : cell s = none) {ls : List ℓ}
    {d : Done σ ℓ ρ} (hd : d ∈ m.log s ls) {a : α} (hbefore : cell d.before = some a) :
    armed arms (m.log s ls) = [a] := by
  obtain ⟨pre, post, t, rfl, hrun, hexec⟩ := Machine.log_mem hd
  have hkept := latch.run_kept (d.label :: post) (hrun ▸ hbefore)
  rw [latch.armed_run hs, Machine.run_append, hkept]
  rfl

/-- If nothing keeps an empty cell from being armed, the first arming label of
the run decides. -/
theorem first_decides (latch : Latch m cell arms) {P : σ → Prop}
    (closed : ∀ s l r t, P s → m.exec l s = .ok (r, t) → P t)
    (free : ∀ s l a, P s → cell s = none → arms l = some a → m.Accepts s l) {s : σ} (hP : P s)
    (hs : cell s = none) (ls : List ℓ) : cell (m.run s ls) = ls.findSome? arms := by
  induction ls generalizing s with
  | nil => exact hs
  | cons l ls ih =>
    rw [Machine.run_cons]
    cases hl : arms l with
    | none =>
      rw [List.findSome?_cons_of_isNone (by simp [hl])]
      rcases m.next_cases s l with ⟨r, t, hexec, hnext⟩ | hsame
      · rw [hnext]
        exact ih (closed s l r t hP hexec) ((latch.keep s l r t hexec hl).trans hs)
      · rw [hsame]
        exact ih hP hs
    | some a =>
      obtain ⟨r, t, hexec⟩ := free s l a hP hs hl
      rw [List.findSome?_cons_of_isSome (by simp [hl]), hl, Machine.next_ok hexec]
      exact latch.run_kept ls (latch.set s l r t a hexec hl).2

end Latch
end Stepwise
