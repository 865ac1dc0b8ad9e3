import Azaka.Library.Machine
import Azaka.Library.Store
import Mathlib.Algebra.BigOperators.Group.Finset.Basic
import Mathlib.Algebra.Order.BigOperators.Group.Finset
import Mathlib.Data.Fintype.BigOperators

namespace Keyed
open Stepwise
variable {κ ν : Type*}

/-- What goes in and out of a vault with one slot for every key. -/
inductive Move (κ ν : Type*) where
  | put (k : κ) (v : ν)
  | take (k : κ) (v : ν)

variable [DecidableEq κ]

def Move.putAt (k : κ) : Move κ ν → Option ν
  | .put j v => if j = k then some v else none
  | .take _ _ => none

def Move.takenAt (k : κ) : Move κ ν → Option ν
  | .put _ _ => none
  | .take j v => if j = k then some v else none

def Move.value : Move κ ν → ν
  | .put _ v | .take _ v => v

/-- A slot is filled when it is empty, and emptied of what it holds. -/
def vault [DecidableEq ν] : Machine (Store κ ν) (Move κ ν) Unit Unit where
  exec
    | .put k v, s => if s k = none then .ok ((), s.set k v) else .error ()
    | .take k v, s => if s k = some v then .ok ((), s.remove k) else .error ()

/-- What was put under the key, in order. -/
def puts (k : κ) (ms : List (Move κ ν)) : List ν := ms.filterMap (Move.putAt k)

def takes (k : κ) (ms : List (Move κ ν)) : List ν := ms.filterMap (Move.takenAt k)

section History
variable [DecidableEq ν]

theorem vault_put_ok {s t : Store κ ν} {k : κ} {v : ν} {r : Unit} :
    vault.exec (.put k v) s = .ok (r, t) ↔ s k = none ∧ t = s.set k v := by
  by_cases h : s k = none <;> simp [vault, h, eq_comm]

theorem vault_take_ok {s t : Store κ ν} {k : κ} {v : ν} {r : Unit} :
    vault.exec (.take k v) s = .ok (r, t) ↔ s k = some v ∧ t = s.remove k := by
  by_cases h : s k = some v <;> simp [vault, h, eq_comm]

/-- One move keeps the account of every key: what was there and what comes in
is what goes out and what is left. -/
theorem vault_move {s t : Store κ ν} {m : Move κ ν} {r : Unit} (h : vault.exec m s = .ok (r, t))
    (k : κ) : (s k).toList ++ (m.putAt k).toList = (m.takenAt k).toList ++ (t k).toList := by
  cases m with
  | put j v =>
    obtain ⟨vacant, rfl⟩ := vault_put_ok.mp h
    by_cases hj : k = j
    · subst hj
      simp [Move.putAt, Move.takenAt, vacant]
    · simp [Move.putAt, Move.takenAt, hj, Ne.symm hj]
  | take j v =>
    obtain ⟨held, rfl⟩ := vault_take_ok.mp h
    by_cases hj : k = j
    · subst hj
      simp [Move.putAt, Move.takenAt, held]
    · simp [Move.putAt, Move.takenAt, hj, Ne.symm hj]

/-- Everything comes out of the vault in the order it went in, the current
content being what is still to come. -/
theorem vault_history {s : Store κ ν} {ms : List (Move κ ν)}
    (h : vault.Along vault.Accepts s ms) (k : κ) :
    (s k).toList ++ puts k ms = takes k ms ++ (vault.run s ms k).toList := by
  induction ms generalizing s with
  | nil => simp [puts, takes]
  | cons m ms ih =>
    obtain ⟨⟨r, t, hexec⟩, hrest⟩ := Machine.along_cons.mp h
    rw [Machine.next_ok hexec] at hrest
    have hmove := vault_move hexec k
    have hms := ih hrest
    have hputs : puts k (m :: ms) = (m.putAt k).toList ++ puts k ms := by
      cases hm : m.putAt k <;> simp [puts, hm]
    have htakes : takes k (m :: ms) = (m.takenAt k).toList ++ takes k ms := by
      cases hm : m.takenAt k <;> simp [takes, hm]
    calc (s k).toList ++ puts k (m :: ms)
        = ((s k).toList ++ (m.putAt k).toList) ++ puts k ms := by rw [hputs, List.append_assoc]
      _ = (m.takenAt k).toList ++ ((t k).toList ++ puts k ms) := by
          rw [hmove, List.append_assoc]
      _ = takes k (m :: ms) ++ (vault.run t ms k).toList := by
          rw [hms, htakes, List.append_assoc]
      _ = takes k (m :: ms) ++ (vault.run s (m :: ms) k).toList := by
          rw [Machine.run_cons, Machine.next_ok hexec]

end History

section Total
variable [Fintype κ]

/-- What the slots are worth together. -/
def total (worth : ν → ℤ) (s : Store κ ν) : ℤ := ∑ k, ((s k).map worth).getD 0

theorem total_set {s : Store κ ν} {k : κ} (worth : ν → ℤ) (v : ν) (vacant : s k = none) :
    total worth (s.set k v) = total worth s + worth v := by
  have hrest : ∑ j ∈ Finset.univ.erase k, (((s.set k v) j).map worth).getD 0 =
      ∑ j ∈ Finset.univ.erase k, ((s j).map worth).getD 0 := by
    apply Finset.sum_congr rfl
    intro j hj
    rw [Store.set_of_ne (Finset.ne_of_mem_erase hj)]
  unfold total
  rw [← Finset.add_sum_erase _ _ (Finset.mem_univ k), hrest,
    ← Finset.add_sum_erase Finset.univ (fun j => ((s j).map worth).getD 0) (Finset.mem_univ k)]
  simp [vacant, add_comm]

theorem total_remove {s : Store κ ν} {k : κ} (worth : ν → ℤ) {v : ν} (held : s k = some v) :
    total worth (s.remove k) = total worth s - worth v := by
  have hback : (s.remove k).set k v = s := by
    funext j
    by_cases hj : j = k
    · subst hj
      simp [held]
    · simp [hj]
  have hset := total_set worth v (Store.remove_same s k)
  rw [hback] at hset
  omega

omit [DecidableEq κ] in
theorem total_empty (worth : ν → ℤ) : total worth (Store.empty : Store κ ν) = 0 := by
  simp [total]

omit [DecidableEq κ] in
/-- No slot is worth more than all of them, if none is worth less than nothing. -/
theorem worth_le_total {worth : ν → ℤ} {s : Store κ ν} (h : ∀ k v, s k = some v → 0 ≤ worth v)
    {k : κ} {v : ν} (held : s k = some v) : worth v ≤ total worth s := by
  have hnonneg : ∀ j ∈ Finset.univ, 0 ≤ ((s j).map worth).getD 0 := by
    intro j _
    cases hj : s j with
    | none => simp
    | some w => simpa using h j w hj
  have hle := Finset.single_le_sum hnonneg (Finset.mem_univ k)
  unfold total
  simpa [held] using hle

end Total
end Keyed
