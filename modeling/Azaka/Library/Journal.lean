import Azaka.Library.Machine

namespace Stepwise

/-- A machine that keeps a journal of events from which its records can be
rebuilt: whatever one label does to the records, the events it adds say. -/
structure Journal {σ ℓ ρ ε η α : Type*} (m : Machine σ ℓ ρ ε) (events : σ → List η)
    (records : σ → α) (apply : α → η → α) (Inv : σ → Prop) : Prop where
  keep : ∀ s l r t, m.exec l s = .ok (r, t) → Inv s → Inv t
  told : ∀ s l r t, m.exec l s = .ok (r, t) → Inv s →
    ∃ es, events t = events s ++ es ∧ records t = es.foldl apply (records s)

/-- In the states reached the records are the replay of the events, and the same
events mean the same records. -/
structure Determined {σ η α : Type*} (events : σ → List η) (records : σ → α)
    (replay : List η → α) (Reached : σ → Prop) : Prop where
  replayed : ∀ s, Reached s → records s = replay (events s)
  same : ∀ s t, Reached s → Reached t → events s = events t → records s = records t

theorem determined_of_replayed {σ η α : Type*} {events : σ → List η} {records : σ → α}
    {replay : List η → α} {Reached : σ → Prop}
    (replayed : ∀ s, Reached s → records s = replay (events s)) :
    Determined events records replay Reached := by
  refine ⟨replayed, ?_⟩
  intro s t hs ht he
  rw [replayed s hs, replayed t ht, he]

namespace Journal
variable {σ ℓ ρ ε η α : Type*} {m : Machine σ ℓ ρ ε} {events : σ → List η} {records : σ → α}
  {apply : α → η → α} {Inv : σ → Prop}

/-- What a run did to the records is told by the events it added. -/
theorem run_told (journal : Journal m events records apply Inv) {s : σ} (hs : Inv s)
    (ls : List ℓ) :
    ∃ es, events (m.run s ls) = events s ++ es ∧
      records (m.run s ls) = es.foldl apply (records s) := by
  refine (Machine.run_invariant (P := fun t => Inv t ∧ ∃ es, events t = events s ++ es ∧
    records t = es.foldl apply (records s)) ?_ ls ⟨hs, [], by simp, rfl⟩).2
  intro a l r b ha he
  obtain ⟨hinv, es, hevents, hrecords⟩ := ha
  obtain ⟨new, hnew, htold⟩ := journal.told a l r b he hinv
  refine ⟨journal.keep a l r b he hinv, es ++ new, ?_, ?_⟩
  · rw [hnew, hevents, List.append_assoc]
  · rw [htold, hrecords, List.foldl_append]

/-- From an empty journal the records are the replay of the events. -/
theorem run_replayed (journal : Journal m events records apply Inv) {s : σ} (hs : Inv s)
    (hempty : events s = []) (ls : List ℓ) :
    records (m.run s ls) = (events (m.run s ls)).foldl apply (records s) := by
  obtain ⟨es, hevents, hrecords⟩ := journal.run_told hs ls
  rw [hevents, hempty, List.nil_append, hrecords]

end Journal
end Stepwise
