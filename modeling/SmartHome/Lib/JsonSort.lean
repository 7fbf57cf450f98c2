/-
  An object with distinct keys, sorted, lists its members by their keys.
-/
import SmartHome.Lib.Json

namespace Verif.Json

@[simp] theorem sort_null : null.sort = null := by simp [sort]
@[simp] theorem sort_bool (b : Bool) : (bool b).sort = bool b := by simp [sort]
@[simp] theorem sort_int (n : ℤ) : (int n).sort = int n := by simp [sort]
@[simp] theorem sort_str (s : String) : (str s).sort = str s := by simp [sort]

theorem sortedElems_iff {xs : List Json} : SortedElems xs ↔ ∀ x ∈ xs, x.Sorted := by
  induction xs with
  | nil => simp [SortedElems]
  | cons x xs ih => rw [SortedElems, ih, List.forall_mem_cons]

theorem neat_arr {xs : List Json} (h : ∀ x ∈ xs, x.Neat) : (arr xs).Neat where
  sorted := by
    rw [Sorted, sortedElems_iff]
    exact fun x hx => (h x hx).sorted
  ascii := by
    rw [render, ascii_cons, ascii_append]
    exact ⟨by decide, ascii_renderElems fun x hx => (h x hx).ascii, by decide⟩

theorem insertKey_perm (k : String) (v : Json) (kvs : List (String × Json)) :
    (insertKey k v kvs).Perm ((k, v) :: kvs) := by
  induction kvs with
  | nil => exact List.Perm.refl _
  | cons m kvs ih =>
    obtain ⟨k', v'⟩ := m
    rw [insertKey]
    split_ifs
    · exact List.Perm.refl _
    · exact (ih.cons _).trans (List.Perm.swap _ _ _)

theorem pairwise_insertKey {k : String} (v : Json) {kvs : List (String × Json)} (hk : k ∉ kvs.map Prod.fst)
    (h : (kvs.map Prod.fst).Pairwise (· < ·)) : ((insertKey k v kvs).map Prod.fst).Pairwise (· < ·) := by
  induction kvs with
  | nil => simp [insertKey]
  | cons m kvs ih =>
    obtain ⟨k', v'⟩ := m
    rw [List.map_cons, List.mem_cons, not_or] at hk
    rw [List.map_cons, List.pairwise_cons] at h
    rw [insertKey]
    split_ifs with hlt
    · rw [List.map_cons, List.map_cons, List.pairwise_cons, List.forall_mem_cons, List.pairwise_cons]
      exact ⟨⟨hlt, fun x hx => String.lt_trans hlt (h.1 x hx)⟩, h⟩
    · have hgt : k' < k := by
        by_contra hle
        exact hk.1 (String.le_antisymm (String.not_lt.1 hle) (String.not_lt.1 hlt))
      rw [List.map_cons, List.pairwise_cons]
      refine ⟨fun x hx => ?_, ih hk.2 h.2⟩
      rcases List.mem_cons.1 (((insertKey_perm k v kvs).map Prod.fst).mem_iff.1 hx) with rfl | hx
      · exact hgt
      · exact h.1 x hx

theorem sortMembers_perm (kvs : List (String × Json)) :
    (sortMembers kvs).Perm (kvs.map fun m => (m.1, m.2.sort)) := by
  induction kvs with
  | nil => exact List.Perm.refl _
  | cons m kvs ih =>
    obtain ⟨k, v⟩ := m
    rw [sortMembers, List.map_cons]
    exact (insertKey_perm _ _ _).trans (ih.cons _)

theorem keys_sortMembers (kvs : List (String × Json)) : ((sortMembers kvs).map Prod.fst).Perm (kvs.map Prod.fst) := by
  have h := (sortMembers_perm kvs).map Prod.fst
  rwa [List.map_map] at h

theorem pairwise_sortMembers {kvs : List (String × Json)} (h : (kvs.map Prod.fst).Nodup) :
    ((sortMembers kvs).map Prod.fst).Pairwise (· < ·) := by
  induction kvs with
  | nil => simp [sortMembers]
  | cons m kvs ih =>
    obtain ⟨k, v⟩ := m
    rw [List.map_cons, List.nodup_cons] at h
    rw [sortMembers]
    refine pairwise_insertKey _ (fun hk => h.1 ?_) (ih h.2)
    exact (keys_sortMembers kvs).mem_iff.1 hk

/-- Where keys are distinct, every member is found by its key. -/
theorem get?_of_mem {kvs : List (String × Json)} (hnodup : (kvs.map Prod.fst).Nodup) {m : String × Json}
    (hm : m ∈ kvs) : (obj kvs).get? m.1 = some m.2 := by
  have hfind : ∃ p, kvs.reverse.find? (fun p => p.1 = m.1) = some p := by
    rw [← Option.isSome_iff_exists, List.find?_isSome]
    exact ⟨m, List.mem_reverse.2 hm, by simp⟩
  obtain ⟨p, hp⟩ := hfind
  have hkey : p.1 = m.1 := by simpa using List.find?_some hp
  have heq : p = m := List.inj_on_of_nodup_map hnodup (List.mem_reverse.1 (List.mem_of_find?_eq_some hp)) hm hkey
  rw [get?, hp, heq]
  rfl

theorem pairwise_lt_nodup {ks : List String} (h : ks.Pairwise (· < ·)) : ks.Nodup :=
  List.Pairwise.imp (fun {a b} (hlt : a < b) (heq : a = b) => String.lt_irrefl b (heq ▸ hlt)) h

/-- **A sorted object lists its members by their keys.** -/
theorem sort_obj {kvs : List (String × Json)} {ks : List String} (hks : ks.Pairwise (· < ·))
    (hperm : (kvs.map Prod.fst).Perm ks) :
    (obj kvs).sort = obj (ks.map fun k => (k, (((obj kvs).get? k).getD null).sort)) := by
  have hnodup : (kvs.map Prod.fst).Nodup := hperm.nodup_iff.2 (pairwise_lt_nodup hks)
  have hmembers : (kvs.map fun m => (m.1, m.2.sort)) =
      (kvs.map Prod.fst).map fun k => (k, (((obj kvs).get? k).getD null).sort) := by
    rw [List.map_map]
    refine List.map_congr_left fun m hm => ?_
    rw [Function.comp_apply, get?_of_mem hnodup hm]
    rfl
  rw [sort]
  congr 1
  -- both lists are in the strict order of their keys
  have hleft : (sortMembers kvs).Pairwise fun a b => a.1 < b.1 := List.pairwise_map.1 (pairwise_sortMembers hnodup)
  have hright : (ks.map fun k => (k, (((obj kvs).get? k).getD null).sort)).Pairwise fun a b => a.1 < b.1 := by
    rw [List.pairwise_map]
    exact hks
  refine List.Perm.eq_of_pairwise (fun a b _ _ hab hba => absurd hba (String.lt_asymm hab)) hleft hright ?_
  exact (sortMembers_perm kvs).trans (hmembers ▸ hperm.map _)

end Verif.Json
