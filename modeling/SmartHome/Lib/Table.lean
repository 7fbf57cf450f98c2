/-
  Tables: lists of rows with a key, of which no two are equal.  A row is found by its key, added
  when its key is new, and changed in place.
-/
import Mathlib.Algebra.GroupWithZero.Nat
import Mathlib.Data.List.Count
import Mathlib.Data.List.Nodup

namespace Verif

variable {α κ : Type} [DecidableEq κ] (key : α → κ)

/-- The row with a key. -/
def lookup (k : κ) (rows : List α) : Option α := rows.find? fun r => key r = k

/-- The rows after a change of the row with a key. -/
def amend (k : κ) (change : α → α) (rows : List α) : List α :=
  rows.map fun r => if key r = k then change r else r

/-- The rows with a row in the place of the one with its key. -/
def put (r : α) (rows : List α) : List α := r :: rows.filter fun r' => key r' ≠ key r

/-- The rows without the one with a key. -/
def remove (k : κ) (rows : List α) : List α := rows.filter fun r => key r ≠ k

/-- The rows with a row in the place of the one with its key, or at the end. -/
def upsert (r : α) (rows : List α) : List α :=
  if ∃ r' ∈ rows, key r' = key r then amend key (key r) (fun _ => r) rows else rows ++ [r]

variable {key} {k : κ} {change : α → α} {rows : List α} {r : α}

theorem mem_concat {a : α} : a ∈ rows ++ [r] ↔ a ∈ rows ∨ a = r := by
  rw [List.mem_append, List.mem_singleton]

theorem lookup_eq_none : lookup key k rows = none ↔ ∀ r ∈ rows, key r ≠ k := by
  simp [lookup]

theorem lookup_eq_some (h : lookup key k rows = some r) : r ∈ rows ∧ key r = k :=
  ⟨List.mem_of_find?_eq_some h, by simpa using List.find?_some h⟩

theorem mem_amend : r ∈ amend key k change rows ↔
    (r ∈ rows ∧ key r ≠ k) ∨ ∃ r' ∈ rows, key r' = k ∧ change r' = r := by
  simp only [amend, List.mem_map]
  constructor
  · rintro ⟨r', hr', rfl⟩
    by_cases hk : key r' = k
    · rw [if_pos hk]; exact Or.inr ⟨r', hr', hk, rfl⟩
    · rw [if_neg hk]; exact Or.inl ⟨hr', hk⟩
  · rintro (⟨hr, hk⟩ | ⟨r', hr', hk, rfl⟩)
    · exact ⟨r, hr, if_neg hk⟩
    · exact ⟨r', hr', if_pos hk⟩

theorem amend_amend {change' : α → α} (hkey : ∀ r, key (change r) = key r) :
    amend key k change' (amend key k change rows) = amend key k (change' ∘ change) rows := by
  simp only [amend, List.map_map]
  refine List.map_congr_left fun r _ => ?_
  by_cases hk : key r = k
  · simp only [Function.comp_apply, hk, if_true, (hkey r).trans hk]
  · simp only [Function.comp_apply, hk, if_false]

/-- A change that leaves the keys alone. -/
theorem map_key_amend (hkey : ∀ r ∈ rows, key r = k → key (change r) = key r) :
    (amend key k change rows).map key = rows.map key := by
  simp only [amend, List.map_map]
  refine List.map_congr_left fun r hr => ?_
  by_cases hk : key r = k
  · simp only [Function.comp_apply, if_pos hk, hkey r hr hk]
  · simp only [Function.comp_apply, if_neg hk]

/-- A change under which no row starts to satisfy `p`. -/
theorem countP_amend_le {p : α → Bool} (h : ∀ r ∈ rows, key r = k → p (change r) = true → p r = true) :
    (amend key k change rows).countP p ≤ rows.countP p := by
  simp only [amend, List.countP_map]
  refine List.countP_mono_left fun r hr => ?_
  by_cases hk : key r = k
  · simp only [Function.comp_apply, if_pos hk]
    exact h r hr hk
  · simp only [Function.comp_apply, if_neg hk]
    exact id

omit [DecidableEq κ] in
theorem nodup_keys_append (h : (rows.map key).Nodup) (hnew : ∀ r' ∈ rows, key r' ≠ key r) :
    ((rows ++ [r]).map key).Nodup := by
  rw [List.map_append, List.nodup_append]
  refine ⟨h, List.nodup_singleton _, ?_⟩
  rintro a ha b hb rfl
  obtain ⟨r', hr', rfl⟩ := List.mem_map.1 ha
  exact hnew r' hr' (List.mem_singleton.1 hb)

omit [DecidableEq κ] in
/-- Two rows with one key are one row. -/
theorem eq_of_key_eq (h : (rows.map key).Nodup) {r' : α} (hr : r ∈ rows) (hr' : r' ∈ rows)
    (hk : key r = key r') : r = r' := List.inj_on_of_nodup_map h hr hr' hk

theorem lookup_eq_some_iff (h : (rows.map key).Nodup) :
    lookup key k rows = some r ↔ r ∈ rows ∧ key r = k := by
  constructor
  · exact lookup_eq_some
  · rintro ⟨hr, hk⟩
    cases hl : lookup key k rows with
    | none => exact absurd hk (lookup_eq_none.1 hl r hr)
    | some r' =>
      obtain ⟨hr', hk'⟩ := lookup_eq_some hl
      rw [eq_of_key_eq h hr' hr (hk'.trans hk.symm)]

theorem lookup_remove_self : lookup key k (remove key k rows) = none := by
  simp [lookup_eq_none, remove]

/-- Removing a row leaves the rows with other keys alone. -/
theorem lookup_remove_ne {k' : κ} (h : k' ≠ k) : lookup key k' (remove key k rows) = lookup key k' rows := by
  simp only [lookup, remove, List.find?_filter]
  refine congrArg (fun p => rows.find? p) (funext fun r' => ?_)
  by_cases hk : key r' = k'
  · simp [hk, h]
  · simp [hk]

theorem lookup_filter_key (p : κ → Bool) :
    lookup key k (rows.filter fun r => p (key r)) = if p k then lookup key k rows else none := by
  induction rows with
  | nil => simp [lookup]
  | cons r rows ih =>
    unfold lookup at ih ⊢
    by_cases hr : key r = k
    · cases hp : p k <;> simp_all
    · cases hp : p (key r) <;> simp_all

theorem lookup_concat_self (h : lookup key (key r) rows = none) :
    lookup key (key r) (rows ++ [r]) = some r := by
  have hrows : rows.find? (fun r' => key r' = key r) = none := h
  simp [lookup, List.find?_append, hrows]

theorem lookup_concat_ne (h : k ≠ key r) : lookup key k (rows ++ [r]) = lookup key k rows := by
  have hr : ¬ key r = k := fun hk => h hk.symm
  simp [lookup, List.find?_append, hr]

theorem lookup_map {g : α → α} (h : ∀ r, key (g r) = key r) :
    lookup key k (rows.map g) = (lookup key k rows).map g := by
  simp [lookup, List.find?_map, Function.comp_def, h]

/-- Putting a row leaves the rows with other keys alone. -/
theorem lookup_put_ne (h : k ≠ key r) : lookup key k (put key r rows) = lookup key k rows := by
  have hhead : ¬ key r = k := fun hk => h hk.symm
  have hput : lookup key k (put key r rows) = lookup key k (remove key (key r) rows) := by
    simp only [lookup, put, remove, List.find?_cons, hhead, decide_false]
  rw [hput, lookup_remove_ne h]

theorem mem_keys_put (h : k ∈ rows.map key) : k ∈ (put key r rows).map key := by
  obtain ⟨r', hr', rfl⟩ := List.mem_map.1 h
  by_cases hk : key r' = key r
  · rw [hk]; exact List.mem_cons_self
  · exact List.mem_cons_of_mem _ (List.mem_map_of_mem (List.mem_filter.2 ⟨hr', by simpa using hk⟩))

theorem nodup_keys_put (h : (rows.map key).Nodup) : ((put key r rows).map key).Nodup := by
  rw [put, List.map_cons, List.nodup_cons]
  refine ⟨fun hmem => ?_, h.sublist (List.filter_sublist.map key)⟩
  obtain ⟨r', hr', hk⟩ := List.mem_map.1 hmem
  simpa [hk] using (List.mem_filter.1 hr').2

omit [DecidableEq κ] in
/-- A value that some row has, and no row has another one. -/
theorem findSome_eq {β : Type} {f : α → Option β} {b : β} (hr : r ∈ rows) (hb : f r = some b)
    (h : ∀ r' ∈ rows, ∀ b', f r' = some b' → b' = b) : rows.findSome? f = some b := by
  cases hf : rows.findSome? f with
  | none => rw [List.findSome?_eq_none_iff.1 hf r hr] at hb; cases hb
  | some b' =>
    obtain ⟨r', hr', hb'⟩ := List.exists_of_findSome?_eq_some hf
    rw [h r' hr' b' hb']

/-! ## Values of rows -/

theorem mem_upsert {r' : α} : r' ∈ upsert key r rows ↔ (r' ∈ rows ∧ key r' ≠ key r) ∨ r' = r := by
  unfold upsert
  split_ifs with hold
  · obtain ⟨r₀, hr₀, hk₀⟩ := hold
    rw [mem_amend]
    constructor
    · rintro (h | ⟨r₁, -, -, rfl⟩)
      · exact Or.inl h
      · exact Or.inr rfl
    · rintro (h | rfl)
      · exact Or.inl h
      · exact Or.inr ⟨r₀, hr₀, hk₀, rfl⟩
  · rw [List.mem_append, List.mem_singleton]
    constructor
    · rintro (h | rfl)
      · exact Or.inl ⟨h, fun hk => hold ⟨r', h, hk⟩⟩
      · exact Or.inr rfl
    · rintro (⟨h, -⟩ | rfl)
      · exact Or.inl h
      · exact Or.inr rfl

theorem nodup_keys_upsert (h : (rows.map key).Nodup) : ((upsert key r rows).map key).Nodup := by
  unfold upsert
  split_ifs with hold
  · rw [map_key_amend]
    · exact h
    · intro r' _ hk
      exact hk.symm
  · exact nodup_keys_append h fun r' hr' hk => hold ⟨r', hr', hk⟩

/-- The row that was in the place of the new one. -/
theorem upsert_eq_amend (hr : r ∈ rows) {r' : α} (hk : key r' = key r) :
    upsert key r' rows = amend key (key r) (fun _ => r') rows := by
  unfold upsert
  rw [if_pos ⟨r, hr, hk.symm⟩, hk]

theorem upsert_eq_append (h : ∀ r' ∈ rows, key r' ≠ key r) : upsert key r rows = rows ++ [r] := by
  unfold upsert
  rw [if_neg]
  rintro ⟨r', hr', hk⟩
  exact h r' hr' hk

theorem lookup_amend_ne {k' : κ} (hkey : ∀ r, key r = k → key (change r) = k) (h : k' ≠ k) :
    lookup key k' (amend key k change rows) = lookup key k' rows := by
  induction rows with
  | nil => rfl
  | cons x rows ih =>
    have hcons : amend key k change (x :: rows) =
        (if key x = k then change x else x) :: amend key k change rows := rfl
    unfold lookup at ih ⊢
    rw [hcons, List.find?_cons, List.find?_cons, ih]
    by_cases hx : key x = k
    · have hne : ¬ k = k' := fun hk => h hk.symm
      simp [hx, hkey x hx, hne]
    · simp [hx]

theorem lookup_upsert_self : lookup key (key r) (upsert key r rows) = some r := by
  unfold upsert
  split_ifs with hold
  · induction rows with
    | nil => obtain ⟨r', hr', -⟩ := hold; cases hr'
    | cons x rows ih =>
      have hcons : amend key (key r) (fun _ => r) (x :: rows) =
          (if key x = key r then r else x) :: amend key (key r) (fun _ => r) rows := rfl
      unfold lookup at ih ⊢
      rw [hcons, List.find?_cons]
      by_cases hx : key x = key r
      · simp [hx]
      · obtain ⟨r', hr', hk⟩ := hold
        rcases List.mem_cons.1 hr' with rfl | hr'
        · exact absurd hk hx
        · simpa [hx] using ih ⟨r', hr', hk⟩
  · exact lookup_concat_self (lookup_eq_none.2 fun r' hr' hk => hold ⟨r', hr', hk⟩)

theorem lookup_upsert_ne (h : k ≠ key r) : lookup key k (upsert key r rows) = lookup key k rows := by
  unfold upsert
  split_ifs
  · exact lookup_amend_ne (fun _ _ => rfl) h
  · exact lookup_concat_ne h

/-- The order of rows with keys of their own does not matter. -/
theorem lookup_perm {rows' : List α} (h : (rows.map key).Nodup) (hperm : rows.Perm rows') :
    lookup key k rows = lookup key k rows' := by
  have h' : (rows'.map key).Nodup := (hperm.map key).nodup_iff.1 h
  refine Option.ext fun r => ?_
  rw [lookup_eq_some_iff h, lookup_eq_some_iff h', hperm.mem_iff]

/-- Rows with keys of their own, put one after the other. -/
theorem foldl_upsert {rows' : List α} (h : ((rows ++ rows').map key).Nodup) :
    rows'.foldl (fun rs r => upsert key r rs) rows = rows ++ rows' := by
  induction rows' generalizing rows with
  | nil => rw [List.foldl_nil, List.append_nil]
  | cons r rows' ih =>
    have hnew : ∀ r' ∈ rows, key r' ≠ key r := by
      rw [List.map_append, List.nodup_append] at h
      exact fun r' hr' => h.2.2 _ (List.mem_map_of_mem hr') _ (List.mem_map_of_mem List.mem_cons_self)
    rw [List.append_cons] at h ⊢
    rw [List.foldl_cons, upsert_eq_append hnew, ih h]

omit [DecidableEq κ] in
/-- Rows of other types that some rows give rise to, under their keys. -/
theorem sublist_filterMap_keys {β : Type} {key' : β → κ} {g : α → Option β}
    (hg : ∀ r ∈ rows, ∀ b, g r = some b → key' b = key r) :
    ((rows.filterMap g).map key').Sublist (rows.map key) := by
  induction rows with
  | nil => exact List.Sublist.refl _
  | cons r rows ih =>
    have ih := ih fun r' hr' => hg r' (List.mem_cons_of_mem _ hr')
    rw [List.filterMap_cons, List.map_cons]
    cases hr : g r with
    | none => exact ih.cons _
    | some b =>
      rw [List.map_cons, hg r List.mem_cons_self b hr]
      exact ih.cons_cons _

section
variable {β : Type} {f : α → List β}

/-- A change that leaves the values of the row alone. -/
theorem flatMap_amend_eq (h : ∀ r ∈ rows, key r = k → f (change r) = f r) :
    (amend key k change rows).flatMap f = rows.flatMap f := by
  simp only [amend, List.flatMap_map]
  refine List.flatMap_congr fun r hr => ?_
  by_cases hk : key r = k
  · rw [if_pos hk, h r hr hk]
  · rw [if_neg hk]

/-- A change that adds values to one row. -/
theorem flatMap_amend_perm {extra : List β} (hn : (rows.map key).Nodup) (hr : r ∈ rows)
    (hk : key r = k) (h : f (change r) = f r ++ extra) :
    ((amend key k change rows).flatMap f).Perm (extra ++ rows.flatMap f) := by
  induction rows with
  | nil => cases hr
  | cons x rows ih =>
    rw [List.map_cons, List.nodup_cons] at hn
    have hcons : amend key k change (x :: rows) =
        (if key x = k then change x else x) :: amend key k change rows := rfl
    rw [hcons, List.flatMap_cons, List.flatMap_cons]
    rcases List.mem_cons.1 hr with rfl | hr
    · -- the row is the first one, and no other has its key
      have hrest : (amend key k change rows).flatMap f = rows.flatMap f := by
        refine flatMap_amend_eq fun r' hr' hk' => ?_
        exact absurd (List.mem_map.2 ⟨r', hr', hk'.trans hk.symm⟩) hn.1
      rw [if_pos hk, hrest, h]
      refine (List.Perm.append_right _ List.perm_append_comm).trans ?_
      rw [List.append_assoc]
    · have hx : ¬ key x = k := fun hxk => hn.1 (List.mem_map.2 ⟨r, hr, hk.trans hxk.symm⟩)
      rw [if_neg hx]
      refine (List.Perm.append_left _ (ih hn.2 hr)).trans ?_
      exact List.perm_append_comm_assoc _ _ _

end

/-! ## Weights of rows -/

section
variable {weight : α → ℕ} {rows' others : List α}

/-- Every row is found again, by its key and with no smaller weight. -/
def Covered (key : α → κ) (weight : α → ℕ) (rows rows' : List α) : Prop :=
  ∀ r ∈ rows, ∃ r' ∈ rows', key r' = key r ∧ weight r ≤ weight r'

omit [DecidableEq κ] in
theorem exists_perm_cons (hr : r ∈ rows) : ∃ rest, rows.Perm (r :: rest) := by
  obtain ⟨front, back, rfl⟩ := List.append_of_mem hr
  exact ⟨front ++ back, List.perm_middle⟩

omit [DecidableEq κ] in
/-- A row with another key is not needed. -/
theorem Covered.without (h : Covered key weight rows rows') (hperm : rows'.Perm (r :: others))
    (hne : ∀ r' ∈ rows, key r' ≠ key r) : Covered key weight rows others := by
  intro x hx
  obtain ⟨x', hx', hk, hw⟩ := h x hx
  rcases List.mem_cons.1 (hperm.mem_iff.1 hx') with rfl | hx'
  · exact absurd hk.symm (hne x hx)
  · exact ⟨x', hx', hk, hw⟩

omit [DecidableEq κ] in
theorem Covered.sum_le (h : Covered key weight rows rows') (hn : (rows.map key).Nodup) :
    (rows.map weight).sum ≤ (rows'.map weight).sum := by
  induction rows generalizing rows' with
  | nil => exact Nat.zero_le _
  | cons r rows ih =>
    rw [List.map_cons, List.nodup_cons] at hn
    obtain ⟨r', hr', hk, hw⟩ := h r List.mem_cons_self
    obtain ⟨rest, hperm⟩ := exists_perm_cons hr'
    have hrows : Covered key weight rows rows' := fun x hx => h x (List.mem_cons_of_mem _ hx)
    have hrest : Covered key weight rows rest := by
      refine hrows.without hperm fun x hx hkx => hn.1 ?_
      exact hk.symm.trans hkx.symm ▸ List.mem_map_of_mem hx
    rw [(hperm.map weight).sum_nat, List.map_cons, List.sum_cons, List.map_cons, List.sum_cons]
    exact Nat.add_le_add hw (ih hrest hn.2)

omit [DecidableEq κ] in
/-- A row that is new adds its weight. -/
theorem Covered.sum_add_le_of_new (h : Covered key weight rows rows') (hn : (rows.map key).Nodup)
    (hr : r ∈ rows') (hne : ∀ r' ∈ rows, key r' ≠ key r) :
    (rows.map weight).sum + weight r ≤ (rows'.map weight).sum := by
  obtain ⟨rest, hperm⟩ := exists_perm_cons hr
  have hsum := (h.without hperm hne).sum_le hn
  rw [(hperm.map weight).sum_nat, List.map_cons, List.sum_cons]
  omega

omit [DecidableEq κ] in
/-- No row grows by more than all of them together. -/
theorem Covered.sum_add_le (h : Covered key weight rows rows') (hn : (rows.map key).Nodup)
    {r' : α} (hr : r ∈ rows) (hr' : r' ∈ rows') (hk : key r' = key r) :
    (rows.map weight).sum + weight r' ≤ weight r + (rows'.map weight).sum := by
  obtain ⟨rest, hperm⟩ := exists_perm_cons hr
  have hrest : Covered key weight rest rows' :=
    fun x hx => h x (hperm.mem_iff.2 (List.mem_cons_of_mem _ hx))
  have hkeys : ((r :: rest).map key).Nodup := (hperm.map key).nodup_iff.1 hn
  rw [List.map_cons, List.nodup_cons] at hkeys
  have hne : ∀ x ∈ rest, key x ≠ key r' := fun x hx hkx =>
    hkeys.1 (hk ▸ hkx ▸ List.mem_map_of_mem hx)
  have hsum := hrest.sum_add_le_of_new hkeys.2 hr' hne
  rw [(hperm.map weight).sum_nat, List.map_cons, List.sum_cons]
  omega

end

end Verif
