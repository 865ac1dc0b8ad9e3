import Mathlib.Data.List.Induction
import Mathlib.Tactic.TypeStar

namespace Stepwise

/-- A deterministic machine. A label is either executed, with a result, or
refused; a refusal leaves no trace in the state. -/
structure Machine (σ ℓ ρ ε : Type*) where
  exec : ℓ → σ → Except ε (ρ × σ)

/-- An executed label together with the state it was executed in. -/
structure Done (σ ℓ ρ : Type*) where
  before : σ
  label : ℓ
  result : ρ

/-- The first entry of a list that meets a test. -/
theorem first_split {α : Type} (p : α → Bool) {xs : List α} (h : ∃ x ∈ xs, p x = true) :
    ∃ pre x post, xs = pre ++ x :: post ∧ p x = true ∧ ∀ y ∈ pre, p y = false := by
  obtain ⟨x, hx⟩ := Option.isSome_iff_exists.mp (List.find?_isSome.mpr h)
  obtain ⟨hp, pre, post, he, hpre⟩ := List.find?_eq_some_iff_append.mp hx
  exact ⟨pre, x, post, he, hp, fun y hy => by simpa using hpre y hy⟩

namespace Machine
variable {σ ℓ ρ ε : Type*} (m : Machine σ ℓ ρ ε)

def next (s : σ) (l : ℓ) : σ :=
  match m.exec l s with
  | .ok (_, t) => t
  | .error _ => s

def run (s : σ) (ls : List ℓ) : σ := ls.foldl m.next s

/-- The executed labels of a run, in order; refused ones are left out. -/
def log (s : σ) : List ℓ → List (Done σ ℓ ρ)
  | [] => []
  | l :: ls =>
    match m.exec l s with
    | .ok (r, t) => ⟨s, l, r⟩ :: log t ls
    | .error _ => log s ls

def Accepts (s : σ) (l : ℓ) : Prop := ∃ r t, m.exec l s = .ok (r, t)

/-- Every label of the run meets the condition in the state it arrives in. -/
def Along (C : σ → ℓ → Prop) (s : σ) (ls : List ℓ) : Prop :=
  ∀ pre l post, ls = pre ++ l :: post → C (m.run s pre) l

variable {m}

theorem next_ok {s t : σ} {l : ℓ} {r : ρ} (h : m.exec l s = .ok (r, t)) : m.next s l = t := by
  simp [next, h]

theorem next_error {s : σ} {l : ℓ} {e : ε} (h : m.exec l s = .error e) : m.next s l = s := by
  simp [next, h]

theorem next_cases (s : σ) (l : ℓ) :
    (∃ r t, m.exec l s = .ok (r, t) ∧ m.next s l = t) ∨ m.next s l = s := by
  cases h : m.exec l s with
  | ok rt => exact .inl ⟨rt.1, rt.2, rfl, next_ok h⟩
  | error e => exact .inr (next_error h)

@[simp] theorem run_nil (s : σ) : m.run s [] = s := rfl

@[simp] theorem run_cons (s : σ) (l : ℓ) (ls : List ℓ) :
    m.run s (l :: ls) = m.run (m.next s l) ls := rfl

@[simp] theorem run_append (s : σ) (xs ys : List ℓ) :
    m.run s (xs ++ ys) = m.run (m.run s xs) ys := List.foldl_append

theorem run_concat (s : σ) (ls : List ℓ) (l : ℓ) :
    m.run s (ls ++ [l]) = m.next (m.run s ls) l := by
  rw [run_append, run_cons, run_nil]

theorem run_split (s : σ) (xs ys : List ℓ) (l : ℓ) :
    m.run s (xs ++ l :: ys) = m.run (m.run s (xs ++ [l])) ys := by
  rw [← run_append, List.append_assoc, List.singleton_append]

theorem log_cons_ok {s t : σ} {l : ℓ} {r : ρ} (h : m.exec l s = .ok (r, t)) (ls : List ℓ) :
    m.log s (l :: ls) = ⟨s, l, r⟩ :: m.log t ls := by
  simp [log, h]

theorem log_cons_error {s : σ} {l : ℓ} {e : ε} (h : m.exec l s = .error e) (ls : List ℓ) :
    m.log s (l :: ls) = m.log s ls := by
  simp [log, h]

@[simp] theorem log_append (s : σ) (xs ys : List ℓ) :
    m.log s (xs ++ ys) = m.log s xs ++ m.log (m.run s xs) ys := by
  induction xs generalizing s with
  | nil => simp [log]
  | cons x xs ih =>
    cases h : m.exec x s with
    | ok rt => simp [log_cons_ok h, next_ok h, ih]
    | error e => simp [log_cons_error h, next_error h, ih]

/-- Where an executed label stands in the run. -/
theorem log_mem {s : σ} {ls : List ℓ} {d : Done σ ℓ ρ} (h : d ∈ m.log s ls) :
    ∃ pre post t, ls = pre ++ d.label :: post ∧ m.run s pre = d.before ∧
      m.exec d.label d.before = .ok (d.result, t) := by
  induction ls generalizing s with
  | nil => simp [log] at h
  | cons l ls ih =>
    cases he : m.exec l s with
    | ok rt =>
      rw [log_cons_ok he] at h
      rcases List.mem_cons.mp h with rfl | h
      · exact ⟨[], ls, rt.2, rfl, rfl, he⟩
      · obtain ⟨pre, post, t, rfl, hb, hd⟩ := ih h
        exact ⟨l :: pre, post, t, rfl, by simpa [next_ok he] using hb, hd⟩
    | error e =>
      rw [log_cons_error he] at h
      obtain ⟨pre, post, t, rfl, hb, hd⟩ := ih h
      exact ⟨l :: pre, post, t, rfl, by simpa [next_error he] using hb, hd⟩

/-- A split of the log comes from a split of the run. -/
theorem log_split {s : σ} {ls : List ℓ} {pre post : List (Done σ ℓ ρ)} {d : Done σ ℓ ρ}
    (h : m.log s ls = pre ++ d :: post) :
    ∃ xs ys t, ls = xs ++ d.label :: ys ∧ m.log s xs = pre ∧ m.run s xs = d.before ∧
      m.exec d.label d.before = .ok (d.result, t) ∧ m.log t ys = post := by
  induction ls generalizing s pre with
  | nil => simp [log] at h
  | cons l ls ih =>
    cases he : m.exec l s with
    | ok rt =>
      rw [log_cons_ok he] at h
      cases pre with
      | nil =>
        obtain ⟨rfl, rfl⟩ := List.cons.inj h
        exact ⟨[], ls, rt.2, rfl, rfl, rfl, he, rfl⟩
      | cons p pre =>
        rw [List.cons_append] at h
        obtain ⟨rfl, htail⟩ := List.cons.inj h
        obtain ⟨xs, ys, t, rfl, rfl, hrun, hexec, hpost⟩ := ih htail
        exact ⟨l :: xs, ys, t, rfl, log_cons_ok he xs, by simpa [next_ok he] using hrun, hexec,
          hpost⟩
    | error e =>
      rw [log_cons_error he] at h
      obtain ⟨xs, ys, t, rfl, rfl, hrun, hexec, hpost⟩ := ih h
      exact ⟨l :: xs, ys, t, rfl, log_cons_error he xs, by simpa [next_error he] using hrun, hexec,
        hpost⟩

theorem mem_log {s t : σ} {pre : List ℓ} (post : List ℓ) {l : ℓ} {r : ρ}
    (h : m.exec l (m.run s pre) = .ok (r, t)) :
    ⟨m.run s pre, l, r⟩ ∈ m.log s (pre ++ l :: post) := by
  simp [log_cons_ok h]

theorem along_nil (C : σ → ℓ → Prop) (s : σ) : m.Along C s [] := by
  intro pre l post h
  simp at h

theorem along_concat {C : σ → ℓ → Prop} {s : σ} {ls : List ℓ} {l : ℓ} :
    m.Along C s (ls ++ [l]) ↔ m.Along C s ls ∧ C (m.run s ls) l := by
  constructor
  · intro h
    exact ⟨fun pre k post he => h pre k (post ++ [l]) (by simp [he]), h ls l [] rfl⟩
  · intro h pre k post he
    obtain ⟨h, hl⟩ := h
    rcases List.eq_nil_or_concat post with rfl | ⟨init, last, rfl⟩
    · obtain ⟨rfl, hk⟩ := List.append_inj' he rfl
      obtain ⟨rfl, -⟩ := List.cons.inj hk
      exact hl
    · have he' : ls ++ [l] = (pre ++ k :: init) ++ [last] := by simpa using he
      exact h pre k init (List.append_inj' he' rfl).1

theorem along_cons {C : σ → ℓ → Prop} {s : σ} {l : ℓ} {ls : List ℓ} :
    m.Along C s (l :: ls) ↔ C s l ∧ m.Along C (m.next s l) ls := by
  constructor
  · intro h
    exact ⟨h [] l ls rfl, fun pre k post he => h (l :: pre) k post (by simp [he])⟩
  · intro h pre k post he
    obtain ⟨hl, hls⟩ := h
    cases pre with
    | nil =>
      obtain ⟨rfl, -⟩ := List.cons.inj he
      exact hl
    | cons p pre =>
      obtain ⟨rfl, rfl⟩ := List.cons.inj he
      exact hls pre k post rfl

theorem along_prefix {C : σ → ℓ → Prop} {s : σ} {xs ys : List ℓ}
    (h : m.Along C s (xs ++ ys)) : m.Along C s xs :=
  fun pre l post he => h pre l (post ++ ys) (by simp [he])

theorem along_suffix {C : σ → ℓ → Prop} {s : σ} {xs ys : List ℓ}
    (h : m.Along C s (xs ++ ys)) : m.Along C (m.run s xs) ys :=
  fun pre l post he => by simpa using h (xs ++ pre) l post (by simp [he])

theorem Along.mono {C D : σ → ℓ → Prop} {s : σ} {ls : List ℓ}
    (h : m.Along C s ls) (hcd : ∀ s l, C s l → D s l) : m.Along D s ls :=
  fun pre l post he => hcd _ _ (h pre l post he)

theorem along_of_mem {C : ℓ → Prop} (s : σ) {ls : List ℓ} (h : ∀ l ∈ ls, C l) :
    m.Along (fun _ l => C l) s ls :=
  fun _ l _ he => h l (by simp [he])

/-- History invariants: `P` speaks about the executed labels so far and the
state they led to, and may use the condition the run meets at each label. -/
theorem log_invariant {P : List (Done σ ℓ ρ) → σ → Prop} {C : σ → ℓ → Prop}
    (step : ∀ h s l r t, P h s → C s l → m.exec l s = .ok (r, t) → P (h ++ [⟨s, l, r⟩]) t)
    {s : σ} {ls : List ℓ} (start : P [] s) (along : m.Along C s ls) :
    P (m.log s ls) (m.run s ls) := by
  induction ls using List.reverseRecOn with
  | nil => exact start
  | append_singleton ls l ih =>
    obtain ⟨hls, hl⟩ := along_concat.mp along
    have hp := ih hls
    simp only [log_append, run_append, run_cons, run_nil]
    cases h : m.exec l (m.run s ls) with
    | ok rt =>
      rw [log_cons_ok h, next_ok h]
      exact step _ _ _ _ _ hp hl h
    | error e =>
      rw [log_cons_error h, next_error h]
      simpa [log] using hp

/-- State invariants of the runs whose labels all meet a condition. -/
theorem run_invariant_along {P : σ → Prop} {C : σ → ℓ → Prop}
    (step : ∀ s l r t, P s → C s l → m.exec l s = .ok (r, t) → P t)
    {s : σ} {ls : List ℓ} (start : P s) (along : m.Along C s ls) : P (m.run s ls) :=
  log_invariant (P := fun _ s => P s) (fun _ s l r t hp hc he => step s l r t hp hc he)
    start along

theorem run_invariant {P : σ → Prop}
    (step : ∀ s l r t, P s → m.exec l s = .ok (r, t) → P t)
    {s : σ} (ls : List ℓ) (start : P s) : P (m.run s ls) :=
  run_invariant_along (C := fun _ _ => True) (fun s l r t hp _ he => step s l r t hp he)
    start (fun _ _ _ _ => trivial)

end Machine
end Stepwise
