import Mathlib.Data.List.Perm.Basic

namespace Roster
variable {α : Type*} [DecidableEq α]

def join (xs : List α) (a : α) : List α := if a ∈ xs then xs else xs ++ [a]

/-- Those who are not on the list yet, in the order of their first call. -/
def newcomers (xs calls : List α) : List α := (calls.filter fun a => decide (a ∉ xs)).eraseDups

@[simp] theorem mem_newcomers {xs calls : List α} {a : α} :
    a ∈ newcomers xs calls ↔ a ∈ calls ∧ a ∉ xs := by
  simp [newcomers]

@[simp] theorem newcomers_nil (xs : List α) : newcomers xs [] = [] := rfl

/-- A call by somebody on the list changes nothing. -/
theorem newcomers_known {xs : List α} {a : α} (h : a ∈ xs) (calls : List α) :
    newcomers xs (a :: calls) = newcomers xs calls := by
  simp [newcomers, h]

/-- A call by anybody else puts the caller next in line. -/
theorem newcomers_fresh {xs : List α} {a : α} (h : a ∉ xs) (calls : List α) :
    newcomers xs (a :: calls) = a :: newcomers (xs ++ [a]) calls := by
  have hrest : (calls.filter fun b => decide (b ∉ xs)).filter (fun b => !b == a) =
      calls.filter fun b => decide (b ∉ xs ++ [a]) := by
    rw [List.filter_filter]
    apply List.filter_congr
    intro b _
    by_cases hb : b = a <;> simp [hb, h]
  simp only [newcomers]
  rw [List.filter_cons_of_pos (by simpa using h), List.eraseDups_cons, hrest]

theorem newcomers_nodup (xs calls : List α) : (newcomers xs calls).Nodup := by
  induction calls generalizing xs with
  | nil => exact List.nodup_nil
  | cons a calls ih =>
    by_cases h : a ∈ xs
    · rw [newcomers_known h]
      exact ih xs
    · rw [newcomers_fresh h, List.nodup_cons]
      exact ⟨by simp, ih _⟩

/-- Joining one after the other appends the newcomers. -/
theorem foldl_join (xs calls : List α) : calls.foldl join xs = xs ++ newcomers xs calls := by
  induction calls generalizing xs with
  | nil => simp
  | cons a calls ih =>
    rw [List.foldl_cons, ih]
    by_cases h : a ∈ xs
    · rw [newcomers_known h, join, if_pos h]
    · rw [newcomers_fresh h, join, if_neg h]
      simp

theorem mem_foldl_join {xs calls : List α} {a : α} :
    a ∈ calls.foldl join xs ↔ a ∈ xs ∨ a ∈ calls := by
  rw [foldl_join, List.mem_append, mem_newcomers]
  by_cases h : a ∈ xs <;> simp [h]

/-- The order of the calls decides the order of the newcomers only. -/
theorem newcomers_perm (xs : List α) {calls calls' : List α} (h : calls'.Perm calls) :
    (newcomers xs calls').Perm (newcomers xs calls) := by
  apply (List.perm_ext_iff_of_nodup (newcomers_nodup _ _) (newcomers_nodup _ _)).mpr
  intro a
  simp [h.mem_iff]

end Roster
