/-
  Three-way commits: a writer loads the entries, changes some of them and commits; what it did
  not change is taken from the entries at the commit.
-/
import Mathlib.Data.List.Induction
import Mathlib.Tactic.Common

namespace Verif

variable {κ α : Type*}

/-- What a writer loaded, and what it writes. -/
structure Commit (κ α : Type*) where
  loaded : κ → α
  written : κ → α

variable [DecidableEq α]

/-- The entries after the commit. -/
def Commit.merge (c : Commit κ α) (current : κ → α) : κ → α :=
  fun k => if c.written k = c.loaded k then current k else c.written k

/-- What the last commit that changed an entry wrote. -/
def lastWrite (base : κ → α) (commits : List (Commit κ α)) : κ → α :=
  commits.foldl (fun current c => c.merge current) base

variable {base : κ → α} {commits : List (Commit κ α)} {c : Commit κ α} {k : κ}

theorem merge_unchanged {current : κ → α} (h : c.written k = c.loaded k) : c.merge current k = current k :=
  if_pos h

theorem merge_changed {current : κ → α} (h : c.written k ≠ c.loaded k) : c.merge current k = c.written k :=
  if_neg h

theorem lastWrite_concat : lastWrite base (commits ++ [c]) = c.merge (lastWrite base commits) := by
  rw [lastWrite, List.foldl_append]
  rfl

/-- **Commits that leave an entry alone do not overwrite it.** -/
theorem lastWrite_unchanged (h : ∀ c ∈ commits, c.written k = c.loaded k) : lastWrite base commits k = base k := by
  induction commits using List.reverseRecOn with
  | nil => rfl
  | append_singleton commits c ih =>
    rw [lastWrite_concat, merge_unchanged (h c (List.mem_append_right _ (List.mem_singleton_self c)))]
    exact ih fun c hc => h c (List.mem_append_left _ hc)

/-- **The last commit that changed an entry wins.** -/
theorem lastWrite_changed {before after : List (Commit κ α)} (hc : c.written k ≠ c.loaded k)
    (hafter : ∀ c ∈ after, c.written k = c.loaded k) :
    lastWrite base (before ++ c :: after) k = c.written k := by
  have hsplit : lastWrite base (before ++ c :: after) = lastWrite (c.merge (lastWrite base before)) after := by
    rw [lastWrite, List.foldl_append, List.foldl_cons]
    rfl
  rw [hsplit, lastWrite_unchanged hafter, merge_changed hc]

end Verif
