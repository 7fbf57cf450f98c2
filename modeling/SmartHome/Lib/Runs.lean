/-
  The final run of a list: its longest end in which a key keeps its value.
-/
import Mathlib.Data.List.Induction

namespace Verif

variable {α κ : Type} [DecidableEq κ] {key : α → κ} {xs : List α} {x y : α}

/-- The longest end of the list in which the key has one value. -/
def finalRun (key : α → κ) (xs : List α) : List α :=
  (xs.reverse.takeWhile fun x => xs.getLast?.map key = some (key x)).reverse

@[simp] theorem finalRun_nil : finalRun key [] = [] := rfl

/-- An element continues the final run or starts a new one. -/
theorem finalRun_concat (xs : List α) (x : α) : finalRun key (xs ++ [x]) =
    if xs.getLast?.map key = some (key x) then finalRun key xs ++ [x] else [x] := by
  have hlast : (xs ++ [x]).getLast? = some x := by simp
  unfold finalRun
  rw [hlast, List.reverse_append, List.reverse_singleton, List.singleton_append,
    List.takeWhile_cons_of_pos (by simp), List.reverse_cons]
  cases h : xs.getLast? with
  | none =>
    obtain rfl : xs = [] := List.getLast?_eq_none_iff.1 h
    simp
  | some y =>
    by_cases hk : key y = key x
    · simp [hk]
    · obtain ⟨ys, rfl⟩ := List.getLast?_eq_some_iff.1 h
      simp [hk, Ne.symm hk]

theorem finalRun_suffix (xs : List α) : finalRun key xs <:+ xs := by
  have h := List.takeWhile_prefix (l := xs.reverse) fun x => xs.getLast?.map key = some (key x)
  simpa [finalRun] using List.reverse_suffix.2 h

theorem finalRun_ne_nil (h : xs ≠ []) : finalRun key xs ≠ [] := by
  cases xs using List.reverseRecOn with
  | nil => exact absurd rfl h
  | append_singleton ys x =>
    rw [finalRun_concat]
    split <;> simp

/-- The keys of the final run are the key of the last element. -/
theorem finalRun_key (key : α → κ) (xs : List α) : ∀ y ∈ finalRun key xs, xs.getLast?.map key = some (key y) := by
  induction xs using List.reverseRecOn with
  | nil => simp
  | append_singleton xs x ih =>
    rw [finalRun_concat]
    split
    · rename_i h
      intro y hy
      rcases List.mem_append.1 hy with hy | hy
      · rw [← ih y hy, h]
        simp
      · rw [List.mem_singleton.1 hy]
        simp
    · intro y hy
      simp [List.mem_singleton.1 hy]

end Verif
