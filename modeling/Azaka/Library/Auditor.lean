import Azaka.Library.Machine

namespace Stepwise

/-- Somebody who reads a log of events from its beginning: which event may come
next, what is known after it, and whether the log may end there. -/
structure Auditor (α η : Type*) where
  admits : α → η → Bool
  apply : α → η → α
  closed : α → Bool

namespace Auditor
variable {α η : Type*} (A : Auditor α η)

def passes : α → List η → Bool
  | a, [] => A.closed a
  | a, e :: es => A.admits a e && passes (A.apply a e) es

variable {σ ℓ ρ ε : Type*} (m : Machine σ ℓ ρ ε) (events : σ → List η) (Knows : σ → α → Prop)

/-- Some labels produce a beginning of the log, and the rest passes after it. -/
def Begins (s : σ) (es : List η) : Prop :=
  ∃ ls batch rest a, es = batch ++ rest ∧ batch ≠ [] ∧ Knows (m.run s ls) a ∧
    events (m.run s ls) = events s ++ batch ∧ A.passes a rest = true

/-- What one label adds to the log passes, and what is known after it fits the
next state. -/
structure Sound : Prop where
  closed : ∀ s a, Knows s a → A.closed a = true
  step : ∀ s a l r t, m.exec l s = .ok (r, t) → Knows s a → ∃ b es, Knows t b ∧
    events t = events s ++ es ∧ ∀ rest, A.passes a (es ++ rest) = A.passes b rest

/-- Of a log that passes some labels produce a beginning. -/
structure Complete : Prop where
  next : ∀ s a e es, Knows s a → A.passes a (e :: es) = true →
    A.Begins m events Knows s (e :: es)

variable {A m events Knows}

/-- An event that is admitted is read, and the rest decides. -/
theorem passes_one {a b : α} {e : η} (hadmits : A.admits a e = true) (hb : b = A.apply a e)
    (rest : List η) : A.passes a ([e] ++ rest) = A.passes b rest := by
  simp [passes, hadmits, hb]

/-- One label produces the beginning of the log. -/
theorem begins {s t : σ} {l : ℓ} {r : ρ} {es batch rest : List η} {a : α}
    (hexec : m.exec l s = .ok (r, t)) (hsplit : es = batch ++ rest) (hne : batch ≠ [])
    (hknows : Knows t a) (hevents : events t = events s ++ batch)
    (hpass : A.passes a rest = true) : A.Begins m events Knows s es := by
  have hrun : m.run s [l] = t := Machine.next_ok hexec
  exact ⟨[l], batch, rest, a, hsplit, hne, hrun.symm ▸ hknows, hrun.symm ▸ hevents, hpass⟩

/-- One label publishes the next event. -/
theorem realised {s t : σ} {l : ℓ} {r : ρ} {a : α} {e : η} {es : List η}
    (hexec : m.exec l s = .ok (r, t)) (hknows : Knows t (A.apply a e))
    (hevents : events t = events s ++ [e]) (hpass : A.passes a (e :: es) = true) :
    A.Begins m events Knows s (e :: es) :=
  begins hexec (List.singleton_append).symm (by simp) hknows hevents
    (Bool.and_eq_true_iff.mp hpass).2

/-- A label that tells nothing may come first. -/
theorem Begins.after {s : σ} {l : ℓ} {es : List η} (hevents : events (m.next s l) = events s)
    (h : A.Begins m events Knows (m.next s l) es) : A.Begins m events Knows s es := by
  obtain ⟨ls, batch, rest, a, hsplit, hne, hknows, hbatch, hrest⟩ := h
  exact ⟨l :: ls, batch, rest, a, hsplit, hne, hknows, hbatch.trans (by rw [hevents]), hrest⟩

theorem Sound.run_passes (h : A.Sound m events Knows) {s : σ} {a : α} (hs : Knows s a)
    (ls : List ℓ) : ∃ b es, Knows (m.run s ls) b ∧ events (m.run s ls) = events s ++ es ∧
      ∀ rest, A.passes a (es ++ rest) = A.passes b rest := by
  refine Machine.run_invariant (P := fun t => ∃ b es, Knows t b ∧ events t = events s ++ es ∧
    ∀ rest, A.passes a (es ++ rest) = A.passes b rest) ?_ ls ⟨a, [], hs, by simp, fun _ => rfl⟩
  intro t l r u ht he
  obtain ⟨b, es, hknows, hevents, hpasses⟩ := ht
  obtain ⟨c, new, hknows', hnew, hnext⟩ := h.step t b l r u he hknows
  refine ⟨c, es ++ new, hknows', ?_, ?_⟩
  · rw [hnew, hevents, List.append_assoc]
  · intro rest
    rw [List.append_assoc, hpasses, hnext]

/-- Every log of a run passes. -/
theorem Sound.log_passes (h : A.Sound m events Knows) {s : σ} {a : α} (hs : Knows s a)
    {ls : List ℓ} {es : List η} (hlog : events (m.run s ls) = events s ++ es) :
    A.passes a es = true := by
  obtain ⟨b, es', hknows, hevents, hpasses⟩ := h.run_passes hs ls
  rw [hlog] at hevents
  obtain rfl := List.append_cancel_left hevents
  have hpass := hpasses []
  rw [List.append_nil] at hpass
  rw [hpass, passes, h.closed _ _ hknows]

/-- Every log that passes is the log of a run. The induction is on the length,
for one label may produce several events. -/
theorem Complete.run_realises (h : A.Complete m events Knows) (n : Nat) {s : σ} {a : α}
    (hs : Knows s a) {es : List η} (hn : es.length ≤ n) (hpass : A.passes a es = true) :
    ∃ ls, events (m.run s ls) = events s ++ es := by
  induction n generalizing s a es with
  | zero =>
    have hnil : es = [] := List.eq_nil_of_length_eq_zero (Nat.le_zero.mp hn)
    exact ⟨[], by simp [hnil]⟩
  | succ n ih =>
    cases es with
    | nil => exact ⟨[], by simp⟩
    | cons e es =>
      obtain ⟨ls, batch, rest, b, hsplit, hne, hknows, hevents, hrest⟩ := h.next s a e es hs hpass
      have hshort : rest.length ≤ n := by
        have hlength := congrArg List.length hsplit
        have hpos := List.length_pos_iff.mpr hne
        simp only [List.length_cons, List.length_append] at hlength hn
        omega
      obtain ⟨ks, hks⟩ := ih hknows hshort hrest
      refine ⟨ls ++ ks, ?_⟩
      rw [Machine.run_append, hks, hevents, List.append_assoc, hsplit]

/-- The logs of the runs are exactly the logs that pass. -/
theorem language {Knows' : σ → α → Prop} (sound : A.Sound m events Knows)
    (complete : A.Complete m events Knows') {s : σ} {a : α} (hs : Knows s a) (hs' : Knows' s a)
    (es : List η) : (∃ ls, events (m.run s ls) = events s ++ es) ↔ A.passes a es = true := by
  constructor
  · intro h
    obtain ⟨ls, hlog⟩ := h
    exact sound.log_passes hs hlog
  · exact complete.run_realises es.length hs' (Nat.le_refl _)

end Auditor
end Stepwise
