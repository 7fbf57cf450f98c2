/-
  The current elements of a list: of those with one key only the last is current, and it takes
  the place of the first.
-/
import Mathlib.Data.List.Dedup
import Mathlib.Data.List.Induction

namespace Verif

variable {α κ : Type} [DecidableEq κ] {key : α → κ} {xs : List α} {x y : α} {k : κ}

/-- The keys in the order of their first elements. -/
def keysInOrder (key : α → κ) (xs : List α) : List κ := (xs.map key).reverse.dedup.reverse

/-- The last element with a key. -/
def lastWith (key : α → κ) (xs : List α) (k : κ) : Option α := xs.reverse.find? fun x => key x = k

/-- For each key its last element. -/
def current (key : α → κ) (xs : List α) : List α := (keysInOrder key xs).filterMap (lastWith key xs)

@[simp] theorem keysInOrder_nil : keysInOrder key [] = [] := rfl

@[simp] theorem current_nil : current key [] = [] := rfl

theorem mem_keysInOrder : k ∈ keysInOrder key xs ↔ ∃ x ∈ xs, key x = k := by
  simp [keysInOrder]

theorem nodup_keysInOrder (xs : List α) : (keysInOrder key xs).Nodup := by
  rw [keysInOrder, List.nodup_reverse]
  exact List.nodup_dedup _

theorem keysInOrder_concat (xs : List α) (x : α) : keysInOrder key (xs ++ [x]) =
    if key x ∈ keysInOrder key xs then keysInOrder key xs else keysInOrder key xs ++ [key x] := by
  have hiff : key x ∈ keysInOrder key xs ↔ key x ∈ (xs.map key).reverse := by
    simp [mem_keysInOrder]
  unfold keysInOrder at hiff ⊢
  rw [List.map_append, List.reverse_append, List.map_singleton, List.reverse_singleton,
    List.singleton_append]
  split
  · rename_i h
    rw [List.dedup_cons_of_mem (hiff.1 h)]
  · rename_i h
    rw [List.dedup_cons_of_notMem (fun hm => h (hiff.2 hm)), List.reverse_cons]

theorem lastWith_concat (xs : List α) (x : α) (k : κ) : lastWith key (xs ++ [x]) k =
    if key x = k then some x else lastWith key xs k := by
  unfold lastWith
  rw [List.reverse_append, List.reverse_singleton, List.singleton_append, List.find?_cons]
  split <;> rename_i h
  · rw [if_pos (by simpa using h)]
  · rw [if_neg (by simpa using h)]

theorem key_lastWith (h : lastWith key xs k = some x) : key x = k := by
  simpa using List.find?_some h

theorem isSome_lastWith (h : k ∈ keysInOrder key xs) : (lastWith key xs k).isSome := by
  obtain ⟨x, hx, hk⟩ := mem_keysInOrder.1 h
  rw [lastWith, List.find?_isSome]
  exact ⟨x, by simpa using hx, by simpa using hk⟩

/-- The keys of the current elements, in the order of the first elements. -/
theorem keys_current (xs : List α) : (current key xs).map key = keysInOrder key xs := by
  have h : ∀ ks : List κ, (∀ k ∈ ks, (lastWith key xs k).isSome) →
      (ks.filterMap (lastWith key xs)).map key = ks := by
    intro ks
    induction ks with
    | nil => simp
    | cons k ks ih =>
      intro hs
      obtain ⟨x, hx⟩ := Option.isSome_iff_exists.1 (hs k List.mem_cons_self)
      rw [List.filterMap_cons_some hx, List.map_cons, key_lastWith hx,
        ih fun k' hk' => hs k' (List.mem_cons_of_mem _ hk')]
  exact h _ fun k hk => isSome_lastWith hk

/-- An element with a new key is the last of the current ones. -/
theorem current_concat_new (h : key x ∉ keysInOrder key xs) :
    current key (xs ++ [x]) = current key xs ++ [x] := by
  unfold current
  rw [keysInOrder_concat, if_neg h, List.filterMap_append]
  congr 1
  · refine List.filterMap_congr fun k hk => ?_
    rw [lastWith_concat, if_neg]
    rintro rfl
    exact h hk
  · simp [lastWith_concat]

/-- An element with a known key takes the place of the one that had it. -/
theorem current_concat_known (h : key x ∈ keysInOrder key xs) :
    current key (xs ++ [x]) = (current key xs).set ((keysInOrder key xs).idxOf (key x)) x := by
  have hset : ∀ ks : List κ, ks.Nodup → key x ∈ ks → (∀ k ∈ ks, (lastWith key xs k).isSome) →
      ks.filterMap (lastWith key (xs ++ [x])) =
        (ks.filterMap (lastWith key xs)).set (ks.idxOf (key x)) x := by
    intro ks
    induction ks with
    | nil => simp
    | cons k ks ih =>
      intro hnd hmem hs
      obtain ⟨hk, hnd⟩ := List.nodup_cons.1 hnd
      obtain ⟨y, hy⟩ := Option.isSome_iff_exists.1 (hs k List.mem_cons_self)
      rw [List.filterMap_cons_some hy]
      by_cases hkx : k = key x
      · subst hkx
        rw [List.filterMap_cons_some (b := x) (by rw [lastWith_concat, if_pos rfl]), List.idxOf_cons_self,
          List.set_cons_zero]
        congr 1
        refine List.filterMap_congr fun k' hk' => ?_
        rw [lastWith_concat, if_neg]
        rintro rfl
        exact hk hk'
      · have hmem' : key x ∈ ks := (List.mem_cons.1 hmem).resolve_left fun he => hkx he.symm
        rw [List.filterMap_cons_some (b := y) (by rw [lastWith_concat, if_neg (Ne.symm hkx), hy]),
          List.idxOf_cons_ne _ hkx, List.set_cons_succ,
          ih hnd hmem' fun k' hk' => hs k' (List.mem_cons_of_mem _ hk')]
  unfold current
  rw [keysInOrder_concat, if_pos h]
  exact hset _ (nodup_keysInOrder xs) h fun k hk => isSome_lastWith hk

/-- **The current elements are those that none after them supersedes.** -/
theorem mem_current : x ∈ current key xs ↔ ∃ before after, xs = before ++ x :: after ∧
    ∀ y ∈ after, key y ≠ key x := by
  have hlast : x ∈ current key xs ↔ lastWith key xs (key x) = some x := by
    simp only [current, List.mem_filterMap]
    constructor
    · rintro ⟨k, -, hk⟩
      obtain rfl := key_lastWith hk
      exact hk
    · intro h
      refine ⟨key x, mem_keysInOrder.2 ⟨x, ?_, rfl⟩, h⟩
      simpa using List.mem_of_find?_eq_some h
  rw [hlast, lastWith, List.find?_eq_some_iff_append]
  constructor
  · rintro ⟨-, after, before, heq, h⟩
    refine ⟨before.reverse, after.reverse, ?_, fun y hy => ?_⟩
    · simpa using congrArg List.reverse heq
    · simpa using h y (List.mem_reverse.1 hy)
  · rintro ⟨before, after, rfl, h⟩
    refine ⟨by simp, after.reverse, before.reverse, by simp, fun y hy => ?_⟩
    simpa using h y (List.mem_reverse.1 hy)

end Verif
