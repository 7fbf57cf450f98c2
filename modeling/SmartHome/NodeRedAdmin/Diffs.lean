/-
  The reviewed diff of a plan is complete, where no edit gives a field a value that Python takes
  for the one before it.
-/
import SmartHome.NodeRedAdmin.Planning

namespace SmartHome.NodeRedAdmin.Planning

open Verif PyValue
open SmartHome.Mqtt (isHex)

/-! ## Nodes -/

section
variable {k k' : String} {v w : PyValue} {n fields : Node}

theorem getKey_upsert : getKey k (upsert Prod.fst (k', v) n) = if k = k' then some v else getKey k n := by
  unfold getKey
  split_ifs with hk
  · subst hk
    have h : lookup Prod.fst k (upsert Prod.fst (k, v) n) = some (k, v) := lookup_upsert_self (r := (k, v))
    rw [h]
    rfl
  · have h : lookup Prod.fst k (upsert Prod.fst (k', v) n) = lookup Prod.fst k n := lookup_upsert_ne hk
    rw [h]

theorem getKey_remove : getKey k (remove Prod.fst k' n) = if k = k' then none else getKey k n := by
  unfold getKey
  split_ifs with hk
  · subst hk
    have h : lookup Prod.fst k (remove Prod.fst k n) = none := lookup_remove_self
    rw [h]
    rfl
  · have h : lookup Prod.fst k (remove Prod.fst k' n) = lookup Prod.fst k n := lookup_remove_ne hk
    rw [h]

theorem distinct_iff : (dict n).Distinct ↔ (n.map Prod.fst).Nodup ∧ ∀ m ∈ n, m.2.Distinct := by
  rw [Distinct, distinctMembers_iff]

theorem distinct_upsert (hn : (dict n).Distinct) (hv : v.Distinct) : (dict (upsert Prod.fst (k, v) n)).Distinct := by
  rw [distinct_iff] at hn ⊢
  refine ⟨nodup_keys_upsert hn.1, fun m hm => ?_⟩
  rcases mem_upsert.1 hm with ⟨hm, -⟩ | rfl
  · exact hn.2 m hm
  · exact hv

theorem distinct_remove (hn : (dict n).Distinct) : (dict (remove Prod.fst k n)).Distinct := by
  rw [distinct_iff] at hn ⊢
  refine ⟨hn.1.sublist (List.filter_sublist.map _), fun m hm => hn.2 m (List.mem_of_mem_filter hm)⟩

theorem distinct_setFields (hn : (dict n).Distinct) (hfields : (dict fields).Distinct) :
    (dict (setFields fields n)).Distinct := by
  rw [distinct_iff] at hfields
  obtain ⟨-, hvalues⟩ := hfields
  unfold setFields
  induction fields generalizing n with
  | nil => exact hn
  | cons m fields ih =>
    rw [List.foldl_cons]
    exact ih (distinct_upsert hn (hvalues m List.mem_cons_self)) fun m' hm' => hvalues m' (List.mem_cons_of_mem _ hm')

/-- What a node holds after `update`. -/
theorem getKey_setFields (h : (fields.map Prod.fst).Nodup) :
    getKey k (setFields fields n) = (getKey k fields).or (getKey k n) := by
  unfold setFields
  induction fields generalizing n with
  | nil => rfl
  | cons m fields ih =>
    rw [List.map_cons, List.nodup_cons] at h
    rw [List.foldl_cons, ih h.2]
    by_cases hk : k = m.1
    · subst hk
      rw [getKey_eq_none.2 h.1, Option.none_or, getKey_upsert, if_pos rfl]
      simp [getKey, lookup]
    · have hcons : getKey k (m :: fields) = getKey k fields := by
        have hne : ¬m.1 = k := fun heq => hk heq.symm
        simp [getKey, lookup, hne]
      rw [getKey_upsert, if_neg hk, hcons]

theorem unsetFields_spec {keys : List String} {n n' : Node} (h : unsetFields keys n = .ok n') :
    (∀ k, getKey k n' = if k ∈ keys then none else getKey k n) ∧ ((dict n).Distinct → (dict n').Distinct) := by
  induction keys generalizing n with
  | nil =>
    obtain rfl := Except.ok.inj h
    exact ⟨fun k => by simp, fun hn => hn⟩
  | cons key keys ih =>
    simp only [unsetFields, bind_ok, need_eq_ok, exists_unit] at h
    obtain ⟨hget, hdistinct⟩ := ih h.2
    refine ⟨fun k => ?_, fun hn => hdistinct (distinct_remove hn)⟩
    rw [hget k, getKey_remove]
    by_cases hk : k = key <;> by_cases hks : k ∈ keys <;> simp [hk, hks]

theorem textAt_eq_some {s : String} : textAt k n = some s ↔ getKey k n = some (.str s) := by
  unfold textAt
  cases getKey k n with
  | none => simp
  | some v => cases v <;> simp [str?]

theorem id_of_textAt (h : (textAt "id" n).isSome) : textAt "id" n = some n.id := by
  obtain ⟨s, hs⟩ := Option.isSome_iff_exists.1 h
  rw [Node.id, hs]
  rfl

end

/-! ## Snapshots -/

/-- A node that `snapshot` accepts. -/
structure Node.Checked (n : Node) : Prop where
  id : textAt "id" n = some n.id
  nodeId : isNodeId n.id = true
  type : textAt "type" n = some n.type
  credentials : "credentials" ∉ n.map Prod.fst

instance (n : Node) : Decidable n.Checked :=
  decidable_of_iff (textAt "id" n = some n.id ∧ isNodeId n.id = true ∧ textAt "type" n = some n.type ∧
    "credentials" ∉ n.map Prod.fst) ⟨fun h => ⟨h.1, h.2.1, h.2.2.1, h.2.2.2⟩, fun h => ⟨h.1, h.2, h.3, h.4⟩⟩

section
variable {seen : List String} {values : List PyValue} {nodes : List Node}

theorem checkNodes_ok : checkNodes seen values = .ok nodes ↔
    values = nodes.map dict ∧ (nodes.map Node.id).Nodup ∧ ∀ n ∈ nodes, n.Checked ∧ n.id ∉ seen := by
  induction values generalizing seen nodes with
  | nil =>
    rw [checkNodes, Except.ok.injEq]
    constructor
    · rintro rfl
      exact ⟨rfl, List.nodup_nil, fun n hn => absurd hn List.not_mem_nil⟩
    · rintro ⟨hvalues, -⟩
      exact (List.map_eq_nil_iff.1 hvalues.symm).symm
  | cons value values ih =>
    simp only [checkNodes, bind_ok, orFail_eq_ok, need_eq_ok, exists_unit, pure_ok, Option.filter_eq_some_iff]
    constructor
    · rintro ⟨node, hnode, id, ⟨hid, hvalid⟩, ⟨htype, hnew⟩, hcredentials, rest, hrest, rfl⟩
      obtain ⟨rfl, hnodup, hchecked⟩ := ih.1 hrest
      have hdict : value = dict node := by
        cases value <;> first | (cases hnode; rfl) | cases hnode
      have hnodeId : Node.id node = id := by rw [Node.id, hid]; rfl
      obtain ⟨type, htype⟩ := Option.isSome_iff_exists.1 htype
      have hnodeType : Node.type node = type := by rw [Node.type, htype]; rfl
      refine ⟨by rw [hdict, List.map_cons], ?_, List.forall_mem_cons.2 ⟨⟨⟨?_, ?_, ?_, hcredentials⟩, ?_⟩, ?_⟩⟩
      · rw [List.map_cons, List.nodup_cons]
        refine ⟨fun hmem => ?_, hnodup⟩
        obtain ⟨n, hn, hsame⟩ := List.mem_map.1 hmem
        exact (hchecked n hn).2 (by rw [hsame, hnodeId]; exact List.mem_cons_self)
      · rw [hid, hnodeId]
      · rw [hnodeId]
        exact hvalid
      · rw [htype, hnodeType]
      · rw [hnodeId]
        exact hnew
      · exact fun n hn => ⟨(hchecked n hn).1, fun hseen => (hchecked n hn).2 (List.mem_cons_of_mem _ hseen)⟩
    · rintro ⟨hvalues, hnodup, hchecked⟩
      cases nodes with
      | nil => cases hvalues
      | cons node nodes =>
        rw [List.map_cons, List.cons.injEq] at hvalues
        obtain ⟨rfl, rfl⟩ := hvalues
        rw [List.map_cons, List.nodup_cons] at hnodup
        obtain ⟨⟨hnode, hnew⟩, hrest⟩ := List.forall_mem_cons.1 hchecked
        refine ⟨node, rfl, node.id, ⟨hnode.id, hnode.nodeId⟩, ⟨by rw [hnode.type]; rfl, hnew⟩, hnode.credentials,
          nodes, ih.2 ⟨rfl, hnodup.2, fun n hn => ⟨(hrest n hn).1, ?_⟩⟩, rfl⟩
        rw [List.mem_cons, not_or]
        refine ⟨fun hsame => hnodup.1 (hsame ▸ List.mem_map_of_mem hn), (hrest n hn).2⟩

end

theorem exact_ok {value : PyValue} {fields : List String} {kvs : Node} (h : exact value fields = .ok kvs) :
    value = dict kvs := by
  simp only [exact, bind_ok, orFail_eq_ok, need_eq_ok, exists_unit, pure_ok] at h
  obtain ⟨kvs', hvalue, -, rfl⟩ := h
  cases value <;> first | (cases hvalue; rfl) | cases hvalue

section
variable [FloatText] {value : PyValue} {s : Snapshot} {rev : String} {flows : List Node}

/-- What `snapshot` accepts. -/
structure Snapshot.Checked (s : Snapshot) : Prop where
  rev : isRevision s.rev = true
  length : s.flows.length ≤ 10000
  size : size (.list (s.flows.map dict)) ≤ 8 * 1024 * 1024
  nodup : (s.flows.map Node.id).Nodup
  nodes : ∀ n ∈ s.flows, n.Checked

theorem snapshot_ok (h : snapshot value = .ok s) : s.Checked ∧ ∃ kvs, value = dict kvs ∧
    textAt "rev" kvs = some s.rev ∧ getKey "flows" kvs = some (.list (s.flows.map dict)) := by
  simp only [snapshot, bind_ok, orFail_eq_ok, need_eq_ok, exists_unit, pure_ok, Option.filter_eq_some_iff] at h
  obtain ⟨kvs, hkvs, rev, ⟨hrev, hrevision⟩, values, hvalues, ⟨hlength, hsize⟩, flows, hflows, rfl⟩ := h
  obtain ⟨rfl, hnodup, hchecked⟩ := checkNodes_ok.1 hflows
  have hexact : exact value ["rev", "flows"] = .ok kvs := by
    cases he : exact value ["rev", "flows"] with
    | error e => rw [he] at hkvs; cases hkvs
    | ok kvs' => rw [he] at hkvs; exact hkvs
  have hget : getKey "flows" kvs = some (.list (flows.map dict)) := by
    cases hg : getKey "flows" kvs with
    | none => rw [hg] at hvalues; cases hvalues
    | some v =>
      rw [hg] at hvalues
      cases v <;> first | (cases hvalues; rfl) | cases hvalues
  exact ⟨⟨hrevision, by simpa using hlength, hsize, hnodup, fun n hn => (hchecked n hn).1⟩, kvs, exact_ok hexact,
    hrev, hget⟩

theorem snapshotOf_ok : snapshotOf rev flows = .ok s ↔ s = ⟨rev, flows⟩ ∧ Snapshot.Checked ⟨rev, flows⟩ := by
  have hinj : Function.Injective (List.map dict) := List.map_injective_iff.2 fun a b h => by cases h; rfl
  constructor
  · intro h
    obtain ⟨hchecked, kvs, hkvs, hrev, hflows⟩ := snapshot_ok h
    obtain rfl := dict.inj hkvs
    have hrev' : s.rev = rev := (Option.some.inj hrev).symm
    have hflows' : s.flows = flows := (hinj (list.inj (Option.some.inj hflows))).symm
    obtain rfl : s = ⟨rev, flows⟩ := by
      cases s
      cases hrev'
      cases hflows'
      rfl
    exact ⟨rfl, hchecked⟩
  · rintro ⟨rfl, h⟩
    have hexact : exact (.dict [("rev", .str rev), ("flows", .list (flows.map dict))]) ["rev", "flows"] =
        .ok [("rev", .str rev), ("flows", .list (flows.map dict))] := by
      simp [exact, bind_ok, orFail]
    simp only [snapshotOf, snapshot, bind_ok, orFail_eq_ok, need_eq_ok, exists_unit, pure_ok,
      Option.filter_eq_some_iff, hexact]
    exact ⟨_, rfl, rev, ⟨rfl, h.rev⟩, flows.map dict, rfl, ⟨by simpa using h.length, h.size⟩, flows,
      checkNodes_ok.2 ⟨rfl, h.nodup, fun n hn => ⟨h.nodes n hn, List.not_mem_nil⟩⟩, rfl⟩

end

/-! ## One edit -/

/-- What an edit makes of a node. -/
inductive Changes (edit : PyValue) (a b : Node) : Prop
  | patch (kvs fields removed : Node) (keys : List String) : edit = dict kvs → textAt "node_id" kvs = some a.id →
      textAt "kind" kvs = some "patch" → getKey "set_fields" kvs = some (.dict fields) →
      (∀ key ∈ fields.map Prod.fst ++ keys, key ≠ "id" ∧ key ≠ "type") → unsetFields keys a = .ok removed →
      b = setFields fields removed → Changes edit a b
  | delete (kvs : Node) : edit = dict kvs → textAt "node_id" kvs = some a.id →
      textAt "kind" kvs = some "delete" → b = disable a → Changes edit a b

/-- The edit patches or deletes the node. -/
def Names (edit : PyValue) (n : Node) : Prop :=
  ∃ kvs, edit = dict kvs ∧ textAt "node_id" kvs = some n.id ∧
    (textAt "kind" kvs = some "patch" ∨ textAt "kind" kvs = some "delete")

section
variable {edit : PyValue} {a b n : Node} {k : String}

theorem Changes.names (h : Changes edit a b) : Names edit a := by
  cases h with
  | patch kvs _ _ _ hedit hid hkind => exact ⟨kvs, hedit, hid, Or.inl hkind⟩
  | delete kvs hedit hid hkind => exact ⟨kvs, hedit, hid, Or.inr hkind⟩

theorem Names.id_eq (h : Names edit a) (h' : Names edit n) : n.id = a.id := by
  obtain ⟨kvs, rfl, hid, -⟩ := h
  obtain ⟨kvs', hkvs', hid', -⟩ := h'
  obtain rfl := dict.inj hkvs'
  exact Option.some.inj (hid'.symm.trans hid)

theorem flag_ne (n : Node) : flag n ≠ "id" ∧ flag n ≠ "type" := by
  unfold flag
  split_ifs <;> decide

theorem getKey_disable : getKey k (disable a) = if k = flag a then some (.bool true) else getKey k a :=
  getKey_upsert

/-- An edit leaves the identifier and the type alone. -/
theorem Changes.getKey_eq (h : Changes edit a b) (hedit : edit.Distinct) (hk : k = "id" ∨ k = "type") :
    getKey k b = getKey k a := by
  cases h with
  | patch kvs fields removed keys hkvs _ _ hfields hallowed hremoved hb =>
    subst hkvs hb
    have hdistinct : (dict fields).Distinct := hedit.getKey hfields
    have hnot : k ∉ fields.map Prod.fst ++ keys := by
      intro hmem
      rcases hk with rfl | rfl
      · exact (hallowed _ hmem).1 rfl
      · exact (hallowed _ hmem).2 rfl
    rw [List.mem_append, not_or] at hnot
    rw [getKey_setFields (distinct_iff.1 hdistinct).1, getKey_eq_none.2 hnot.1, Option.none_or,
      (unsetFields_spec hremoved).1, if_neg hnot.2]
  | delete kvs _ _ _ hb =>
    subst hb
    rw [getKey_disable, if_neg]
    rintro rfl
    rcases hk with hk | hk
    · exact (flag_ne a).1 hk
    · exact (flag_ne a).2 hk

theorem Changes.id_eq (h : Changes edit a b) (hedit : edit.Distinct) : b.id = a.id := by
  rw [Node.id, Node.id, textAt, textAt, h.getKey_eq hedit (Or.inl rfl)]

theorem Changes.type_eq (h : Changes edit a b) (hedit : edit.Distinct) : b.type = a.type := by
  rw [Node.type, Node.type, textAt, textAt, h.getKey_eq hedit (Or.inr rfl)]

theorem Changes.distinct (h : Changes edit a b) (hedit : edit.Distinct) (ha : (dict a).Distinct) :
    (dict b).Distinct := by
  cases h with
  | patch kvs fields removed keys hkvs _ _ hfields _ hremoved hb =>
    subst hkvs hb
    exact distinct_setFields ((unsetFields_spec hremoved).2 ha) (hedit.getKey hfields)
  | delete kvs _ _ _ hb =>
    subst hb
    exact distinct_upsert ha distinct_bool

end

section
variable [FloatText] {out : Outside} {rev : String} {st st' : Editing} {edit : PyValue}

omit [FloatText] in
theorem touch_ok {id : String} (h : touch st id = .ok st') :
    id ∉ st.touched ∧ st' = { st with touched := st.touched ++ [id] } := by
  simp only [touch, bind_ok, need_eq_ok, exists_unit, pure_ok] at h
  exact ⟨h.1, h.2.symm⟩

theorem createNode_ok {value : PyValue} (h : createNode rev st value = .ok st') :
    ∃ node : Node, value = dict node ∧ node.Checked ∧ node.id ∉ st.flows.map Node.id ∧ node.id ∉ st.touched ∧
      st'.flows = st.flows ++ [node] ∧ st'.touched = st.touched ++ [node.id] := by
  simp only [createNode, bind_ok, need_eq_ok, exists_unit] at h
  obtain ⟨checked, hchecked, hnew, -, -, -, htouch⟩ := h
  obtain ⟨hvalid, kvs, hkvs, -, hflows⟩ := snapshot_ok hchecked
  obtain rfl := dict.inj hkvs
  have hvalues : [value] = checked.flows.map dict := list.inj (Option.some.inj hflows)
  obtain ⟨node, hnode⟩ : ∃ node, checked.flows = [node] := by
    have hlength := congrArg List.length hvalues
    rw [List.length_map] at hlength
    exact List.length_eq_one_iff.1 hlength.symm
  rw [hnode, List.headD_cons] at hnew htouch
  rw [hnode, List.map_singleton, List.singleton_inj] at hvalues
  obtain ⟨huntouched, rfl⟩ := touch_ok htouch
  exact ⟨node, hvalues, hvalid.nodes node (hnode ▸ List.mem_singleton_self node), hnew, huntouched, rfl, rfl⟩

theorem target_ok {kvs a : Node} (h : target out st kvs = .ok a) :
    a ∈ st.flows ∧ textAt "node_id" kvs = some a.id := by
  simp only [target, bind_ok, orFail_eq_ok, need_eq_ok, exists_unit, pure_ok] at h
  obtain ⟨id, hid, node, hnode, -, -, -, -, rfl⟩ := h
  obtain ⟨hmem, rfl⟩ := lookup_eq_some hnode
  refine ⟨hmem, ?_⟩
  unfold validId at hid
  exact (Option.filter_eq_some_iff.1 hid).1

omit [FloatText] in
theorem patched_ok {kvs a b : Node} (h : patched kvs a = .ok b) : ∃ fields removed keys,
    getKey "set_fields" kvs = some (.dict fields) ∧
      (∀ key ∈ fields.map Prod.fst ++ keys, key ≠ "id" ∧ key ≠ "type") ∧ unsetFields keys a = .ok removed ∧
      b = setFields fields removed := by
  simp only [patched, bind_ok, orFail_eq_ok, need_eq_ok, exists_unit, pure_ok] at h
  obtain ⟨fields, hfields, keys, -, -, -, ⟨-, hallowed⟩, -, removed, hremoved, rfl⟩ := h
  have hget : getKey "set_fields" kvs = some (.dict fields) := by
    cases hg : getKey "set_fields" kvs with
    | none => rw [hg] at hfields; cases hfields
    | some v =>
      rw [hg] at hfields
      cases v <;> first | (cases hfields; rfl) | cases hfields
  exact ⟨fields, removed, keys, hget, fun key hkey => ⟨(hallowed key hkey).1, (hallowed key hkey).2.1⟩, hremoved, rfl⟩

/-- **What an edit does to the flows**: it appends a node, or it changes one in place. -/
theorem applyEdit_ok (h : applyEdit out rev st edit = .ok st') :
    (∃ kvs node : Node, edit = dict kvs ∧ textAt "kind" kvs = some "create" ∧ getKey "node" kvs = some (.dict node) ∧
      node.Checked ∧ node.id ∉ st.flows.map Node.id ∧ node.id ∉ st.touched ∧ st'.flows = st.flows ++ [node] ∧
      st'.touched = st.touched ++ [node.id]) ∨
    ∃ a b : Node, a ∈ st.flows ∧ a.id ∉ st.touched ∧ Changes edit a b ∧
      st'.flows = amend Node.id a.id (fun _ => b) st.flows ∧ st'.touched = st.touched ++ [a.id] := by
  simp only [applyEdit, bind_ok, orFail_eq_ok] at h
  obtain ⟨kvs, hkvs, h⟩ := h
  obtain rfl : edit = dict kvs := by
    cases edit <;> first | (cases hkvs; rfl) | cases hkvs
  split at h
  · rename_i hkind
    simp only [bind_ok] at h
    obtain ⟨kvs', hexact, h⟩ := h
    obtain rfl := dict.inj (exact_ok hexact)
    obtain ⟨node, hvalue, hchecked, hnew, huntouched, hflows, htouched⟩ := createNode_ok h
    have hget : getKey "node" kvs = some (.dict node) := by
      cases hg : getKey "node" kvs with
      | none => rw [hg] at hvalue; cases hvalue
      | some v => rw [hg] at hvalue; exact congrArg some hvalue
    exact Or.inl ⟨kvs, node, rfl, hkind, hget, hchecked, hnew, huntouched, hflows, htouched⟩
  · rename_i hkind
    simp only [bind_ok] at h
    obtain ⟨kvs', hexact, a, ha, b, hb, htouch⟩ := h
    obtain rfl := dict.inj (exact_ok hexact)
    obtain ⟨hmem, hid⟩ := target_ok ha
    obtain ⟨fields, removed, keys, hfields, hallowed, hremoved, hb⟩ := patched_ok hb
    obtain ⟨huntouched, rfl⟩ := touch_ok htouch
    exact Or.inr ⟨a, b, hmem, huntouched,
      .patch kvs fields removed keys rfl hid hkind hfields hallowed hremoved hb, rfl, rfl⟩
  · rename_i hkind
    simp only [bind_ok, need_eq_ok, exists_unit] at h
    obtain ⟨kvs', hexact, a, ha, -, htouch⟩ := h
    obtain rfl := dict.inj (exact_ok hexact)
    obtain ⟨hmem, hid⟩ := target_ok ha
    obtain ⟨huntouched, rfl⟩ := touch_ok htouch
    exact Or.inr ⟨a, disable a, hmem, huntouched, .delete kvs rfl hid hkind rfl, rfl, rfl⟩
  · cases h

end

/-! ## All edits -/

/-- What the edits so far made of the flows: `g` is what became of a node, and the created nodes
    follow. -/
structure Edited (base : List Node) (done : List PyValue) (st : Editing) (g : Node → Node) (created : List Node) :
    Prop where
  flows : st.flows = base.map g ++ created
  nodup : (st.flows.map Node.id).Nodup
  edits : ∀ e ∈ done, e.Distinct
  created : ∀ c ∈ created, c.id ∈ st.touched ∧ (dict c).Distinct
  kept : ∀ n ∈ base, n.id ∉ st.touched → g n = n ∧ ∀ e ∈ done, ¬Names e n
  changed : ∀ n ∈ base, n.id ∈ st.touched →
    (∃ e ∈ done, Changes e n (g n)) ∧ ∀ e ∈ done, Names e n → Changes e n (g n)

section
variable {base created : List Node} {done : List PyValue} {st st' : Editing} {g : Node → Node} {n : Node}

/-- A node is as it was, or one edit changed it. -/
theorem Edited.cases (h : Edited base done st g created) (hn : n ∈ base) :
    g n = n ∨ ∃ e ∈ done, Changes e n (g n) := by
  by_cases ht : n.id ∈ st.touched
  · exact Or.inr (h.changed n hn ht).1
  · exact Or.inl (h.kept n hn ht).1

theorem Edited.id_eq (h : Edited base done st g created) (hn : n ∈ base) : (g n).id = n.id := by
  rcases h.cases hn with hsame | ⟨e, he, hchanges⟩
  · rw [hsame]
  · exact hchanges.id_eq (h.edits e he)

theorem Edited.type_eq (h : Edited base done st g created) (hn : n ∈ base) : (g n).type = n.type := by
  rcases h.cases hn with hsame | ⟨e, he, hchanges⟩
  · rw [hsame]
  · exact hchanges.type_eq (h.edits e he)

/-- The created nodes are new, and the others keep their place. -/
theorem Edited.order (h : Edited base done st g created) :
    st.flows.map Node.id = base.map Node.id ++ created.map Node.id ∧ ∀ c ∈ created, c.id ∉ base.map Node.id := by
  have hids : (base.map g).map Node.id = base.map Node.id := by
    rw [List.map_map]
    exact List.map_congr_left fun n hn => h.id_eq hn
  have horder : st.flows.map Node.id = base.map Node.id ++ created.map Node.id := by
    rw [h.flows, List.map_append, hids]
  refine ⟨horder, fun c hc hmem => ?_⟩
  have hnodup := h.nodup
  rw [horder] at hnodup
  exact (List.nodup_append.1 hnodup).2.2 c.id hmem c.id (List.mem_map_of_mem hc) rfl

theorem Edited.distinct (h : Edited base done st g created) (hbase : ∀ n ∈ base, (dict n).Distinct) :
    ∀ n ∈ st.flows, (dict n).Distinct := by
  intro n hn
  rw [h.flows] at hn
  rcases List.mem_append.1 hn with hn | hn
  · obtain ⟨a, ha, rfl⟩ := List.mem_map.1 hn
    rcases h.cases ha with hsame | ⟨e, he, hchanges⟩
    · rw [hsame]
      exact hbase a ha
    · exact hchanges.distinct (h.edits e he) (hbase a ha)
  · exact (h.created n hn).2

variable [FloatText] {out : Outside} {rev : String} {edit : PyValue}

omit [FloatText] in
theorem Edited.create (h : Edited base done st g created) (hedit : edit.Distinct) {kvs node : Node}
    (hkvs : edit = dict kvs) (hkind : textAt "kind" kvs = some "create")
    (hnode : getKey "node" kvs = some (.dict node)) (hnew : node.id ∉ st.flows.map Node.id)
    (hflows : st'.flows = st.flows ++ [node]) (htouched : st'.touched = st.touched ++ [node.id]) :
    Edited base (done ++ [edit]) st' g (created ++ [node]) := by
  have hnames : ∀ n, ¬Names edit n := by
    rintro n ⟨kvs', hkvs', -, hkind'⟩
    obtain rfl := dict.inj (hkvs.symm.trans hkvs')
    rcases hkind' with hkind' | hkind' <;>
    · rw [hkind] at hkind'
      exact absurd (Option.some.inj hkind') (by decide)
  have htouch : ∀ n ∈ base, (n.id ∈ st'.touched ↔ n.id ∈ st.touched) := by
    intro n hn
    rw [htouched, List.mem_append, List.mem_singleton, or_iff_left]
    intro hsame
    refine hnew (hsame ▸ ?_)
    rw [← h.id_eq hn, h.flows, List.map_append]
    exact List.mem_append_left _ (List.mem_map_of_mem (List.mem_map_of_mem hn))
  refine ⟨?_, ?_, ?_, ?_, fun n hn ht => ?_, fun n hn ht => ?_⟩
  · rw [hflows, h.flows, List.append_assoc]
  · rw [hflows, List.map_append]
    refine List.nodup_append.2 ⟨h.nodup, List.nodup_singleton _, ?_⟩
    rintro a ha b hb rfl
    exact hnew (List.mem_singleton.1 hb ▸ ha)
  · intro e he
    rcases List.mem_append.1 he with he | he
    · exact h.edits e he
    · exact List.mem_singleton.1 he ▸ hedit
  · intro c hc
    rw [htouched]
    rcases List.mem_append.1 hc with hc | hc
    · exact ⟨List.mem_append_left _ (h.created c hc).1, (h.created c hc).2⟩
    · obtain rfl := List.mem_singleton.1 hc
      subst hkvs
      exact ⟨List.mem_append_right _ (List.mem_singleton_self _), hedit.getKey hnode⟩
  · obtain ⟨hsame, hnone⟩ := h.kept n hn fun hmem => ht ((htouch n hn).2 hmem)
    refine ⟨hsame, fun e he => ?_⟩
    rcases List.mem_append.1 he with he | he
    · exact hnone e he
    · exact List.mem_singleton.1 he ▸ hnames n
  · obtain ⟨⟨e, he, hchanges⟩, hall⟩ := h.changed n hn ((htouch n hn).1 ht)
    refine ⟨⟨e, List.mem_append_left _ he, hchanges⟩, fun e' he' hn' => ?_⟩
    rcases List.mem_append.1 he' with he' | he'
    · exact hall e' he' hn'
    · exact absurd (List.mem_singleton.1 he' ▸ hn') (hnames n)

omit [FloatText] in
theorem Edited.change (h : Edited base done st g created) (hnodup : (base.map Node.id).Nodup)
    (hedit : edit.Distinct) {a b : Node} (ha : a ∈ st.flows) (huntouched : a.id ∉ st.touched)
    (hchanges : Changes edit a b) (hflows : st'.flows = amend Node.id a.id (fun _ => b) st.flows)
    (htouched : st'.touched = st.touched ++ [a.id]) :
    Edited base (done ++ [edit]) st' (fun n => if n.id = a.id then b else g n) created := by
  -- a node that was not touched is one of the base, as it was
  have hbase : a ∈ base := by
    rw [h.flows] at ha
    rcases List.mem_append.1 ha with ha | ha
    · obtain ⟨n, hn, rfl⟩ := List.mem_map.1 ha
      rw [h.id_eq hn] at huntouched
      rw [(h.kept n hn huntouched).1]
      exact hn
    · exact absurd (h.created a ha).1 huntouched
  have hb := hchanges.id_eq hedit
  have hnone : ∀ e ∈ done, ¬Names e a := (h.kept a hbase huntouched).2
  refine ⟨?_, ?_, ?_, fun c hc => ?_, fun n hn ht => ?_, fun n hn ht => ?_⟩
  · rw [hflows, h.flows, amend, List.map_append, List.map_map]
    refine congrArg₂ _ (List.map_congr_left fun n hn => ?_) ?_
    · simp only [Function.comp, h.id_eq hn]
    · refine (List.map_congr_left fun c hc => if_neg fun hsame => ?_).trans (List.map_id _)
      exact huntouched (hsame ▸ (h.created c hc).1)
  · rw [hflows, map_key_amend fun _ _ hk => hb.trans hk.symm]
    exact h.nodup
  · intro e he
    rcases List.mem_append.1 he with he | he
    · exact h.edits e he
    · exact List.mem_singleton.1 he ▸ hedit
  · rw [htouched]
    exact ⟨List.mem_append_left _ (h.created c hc).1, (h.created c hc).2⟩
  · rw [htouched, List.mem_append, not_or, List.mem_singleton] at ht
    obtain ⟨hsame, hall⟩ := h.kept n hn ht.1
    refine ⟨by rw [if_neg ht.2, hsame], fun e he => ?_⟩
    rcases List.mem_append.1 he with he | he
    · exact hall e he
    · obtain rfl := List.mem_singleton.1 he
      exact fun hnames => ht.2 (hchanges.names.id_eq hnames)
  · by_cases hsame : n.id = a.id
    · obtain rfl := eq_of_key_eq hnodup hn hbase hsame
      rw [if_pos rfl]
      refine ⟨⟨edit, List.mem_append_right _ (List.mem_singleton_self _), hchanges⟩, fun e he hnames => ?_⟩
      rcases List.mem_append.1 he with he | he
      · exact absurd hnames (hnone e he)
      · exact List.mem_singleton.1 he ▸ hchanges
    · rw [htouched, List.mem_append, List.mem_singleton, or_iff_left hsame] at ht
      rw [if_neg hsame]
      obtain ⟨⟨e, he, hch⟩, hall⟩ := h.changed n hn ht
      refine ⟨⟨e, List.mem_append_left _ he, hch⟩, fun e' he' hnames => ?_⟩
      rcases List.mem_append.1 he' with he' | he'
      · exact hall e' he' hnames
      · obtain rfl := List.mem_singleton.1 he'
        exact absurd (hchanges.names.id_eq hnames) hsame

/-- **What the edits do to the flows**, one after the other. -/
theorem Edited.run {edits : List PyValue} (h : Edited base done st g created)
    (hnodup : (base.map Node.id).Nodup) (hedits : ∀ e ∈ edits, e.Distinct)
    (hrun : applyEdits out rev edits st = .ok st') : ∃ g' created', Edited base (done ++ edits) st' g' created' := by
  induction edits generalizing done st g created with
  | nil =>
    obtain rfl := Except.ok.inj hrun
    rw [List.append_nil]
    exact ⟨g, created, h⟩
  | cons edit edits ih =>
    simp only [applyEdits, bind_ok] at hrun
    obtain ⟨st₁, hstep, hrun⟩ := hrun
    have hedit := hedits edit List.mem_cons_self
    have hrest : ∀ e ∈ edits, e.Distinct := fun e he => hedits e (List.mem_cons_of_mem _ he)
    rw [List.append_cons]
    rcases applyEdit_ok hstep with ⟨kvs, node, hkvs, hkind, hnode, -, hnew, -, hflows, htouched⟩ |
      ⟨a, b, ha, huntouched, hchanges, hflows, htouched⟩
    · exact ih (h.create hedit hkvs hkind hnode hnew hflows htouched) hrest hrun
    · exact ih (h.change hnodup hedit ha huntouched hchanges hflows htouched) hrest hrun

end

/-! ## The diff -/

/-- The nodes are dictionaries with different identifiers. -/
structure Proper (flows : List Node) : Prop where
  nodup : (flows.map Node.id).Nodup
  distinct : ∀ n ∈ flows, (dict n).Distinct

theorem mem_sortedSet {x : String} {xs : List String} : x ∈ sortedSet xs ↔ x ∈ xs := by
  rw [sortedSet, (List.perm_insertionSort _ _).mem_iff, List.mem_dedup]

section
variable {flows : List Node} {n : Node} {id : String}

theorem nodeAt_eq_some (h : (flows.map Node.id).Nodup) : nodeAt id flows = some n ↔ n ∈ flows ∧ n.id = id :=
  lookup_eq_some_iff h

theorem nodeAt_eq_none : nodeAt id flows = none ↔ id ∉ flows.map Node.id := by
  rw [nodeAt, lookup_eq_none, List.mem_map]
  constructor
  · rintro h ⟨n, hn, hid⟩
    exact h n hn hid
  · exact fun h n hn hid => h ⟨n, hn, hid⟩

theorem Proper.nodeAt (h : Proper flows) (hn : nodeAt id flows = some n) : (dict n).Distinct :=
  h.distinct n ((nodeAt_eq_some h.nodup).1 hn).1

end

section
variable [FloatText]

/-- The canonical text of the node with an identifier. -/
def rawAt (id : String) (flows : List Node) : Option (List Char) :=
  (nodeAt id flows).map fun n => (PyValue.dict n).raw

/-- The canonical text of a field. -/
def rawField (k : String) (n : Option Node) : Option (List Char) := (n.bind fun n => getKey k n).map raw

/-- A node with the listed fields as they were. -/
def undoNode (a b : Node) (fields : List FieldChange) : Node :=
  fields.foldl (fun n f => (getKey f.field a).elim (remove Prod.fst f.field n) fun v =>
    upsert Prod.fst (f.field, v) n) b

/-- The flows with the listed fields as they were, and without the created nodes. -/
def undo (before : List Node) (diff : List Change) (after : List Node) : List Node :=
  after.filterMap fun b => (nodeAt b.id before).map fun a =>
    (lookup Change.nodeId b.id diff).elim b fun c => undoNode a b c.fields

/-- No field has values that are equal in Python and have different texts. -/
def Sharp (before after : List Node) : Prop :=
  ∀ id k v w, (nodeAt id before).bind (fun n => getKey k n) = some v →
    (nodeAt id after).bind (fun n => getKey k n) = some w → eqv v w = true → v.raw = w.raw

/-- Two values that are compared with `==`, and by their texts. -/
theorem eqvOption_iff {x y : Option PyValue} (hx : ∀ v ∈ x, v.Distinct) (hy : ∀ w ∈ y, w.Distinct)
    (hsharp : ∀ v w, x = some v → y = some w → eqv v w = true → v.raw = w.raw) :
    eqvOption x y = true ↔ x.map raw = y.map raw := by
  cases x with
  | none => cases y <;> simp [eqvOption]
  | some v =>
    cases y with
    | none => simp [eqvOption]
    | some w =>
      simp only [eqvOption, Option.map_some, Option.some_inj]
      refine ⟨hsharp v w rfl rfl, fun h => ?_⟩
      exact eqv_of_canon v w (hx v rfl) (hy w rfl) (raw_inj.1 h)

variable {before after : List Node} {out : Outside} {id k : String} {c : Change}

/-- Dictionaries with one text have the same texts at all keys. -/
theorem raw_dict {a b : Node} (ha : (dict a).Distinct) (hb : (dict b).Distinct) :
    (PyValue.dict a).raw = (PyValue.dict b).raw ↔ ∀ k, (getKey k a).map raw = (getKey k b).map raw := by
  rw [raw_inj, canon_dict (distinct_iff.1 ha).1 (distinct_iff.1 hb).1]
  refine forall_congr' fun k => ?_
  cases getKey k a <;> cases getKey k b <;> simp [raw_inj]

theorem mem_fields_changeset (hc : c ∈ changeset out before after) :
    k ∈ c.fields.map FieldChange.field ↔ eqvOption (getKey k ((nodeAt c.nodeId before).getD []))
      (getKey k ((nodeAt c.nodeId after).getD [])) = false := by
  obtain ⟨id, -, rfl⟩ := List.mem_map.1 hc
  simp only [fieldChanges, List.map_map]
  have hfield : (FieldChange.field ∘ fun key => fieldChange out id key (getKey key ((nodeAt id before).getD []))
      (getKey key ((nodeAt id after).getD []))) = fun key => key := rfl
  rw [hfield, List.map_id', List.mem_filter, mem_sortedSet, List.mem_append, Bool.not_eq_true']
  refine and_iff_right_of_imp fun h => ?_
  by_contra hnot
  rw [not_or, ← getKey_eq_none, ← getKey_eq_none] at hnot
  rw [hnot.1, hnot.2] at h
  cases h

theorem mem_changeset : id ∈ (changeset out before after).map Change.nodeId ↔
    eqvOption ((nodeAt id before).map dict) ((nodeAt id after).map dict) = false := by
  simp only [changeset, List.map_map]
  have hid : (Change.nodeId ∘ fun id =>
      ({ nodeId := id
         beforeSha256 := (nodeAt id before).map fun n => digestOf out (.dict n)
         afterSha256 := (nodeAt id after).map fun n => digestOf out (.dict n)
         fields := fieldChanges out id ((nodeAt id before).getD []) ((nodeAt id after).getD []) } : Change)) =
      fun id => id := rfl
  rw [hid, List.map_id', List.mem_filter, mem_sortedSet, Bool.not_eq_true']
  refine and_iff_right_of_imp fun h => ?_
  by_contra hnot
  rw [List.map_append, List.mem_append, not_or, ← nodeAt_eq_none, ← nodeAt_eq_none] at hnot
  rw [hnot.1, hnot.2] at h
  cases h

/-- The fields of the nodes with an identifier, by their texts. -/
theorem rawAt_eq_iff (hbefore : Proper before) (hafter : Proper after) :
    rawAt id before = rawAt id after ↔ ((nodeAt id before).isSome = (nodeAt id after).isSome ∧
      ∀ k, rawField k (nodeAt id before) = rawField k (nodeAt id after)) := by
  unfold rawAt rawField
  cases ha : nodeAt id before with
  | none => cases nodeAt id after <;> simp
  | some a =>
    cases hb : nodeAt id after with
    | none => simp
    | some b =>
      simp only [Option.map_some, Option.some_inj, Option.isSome_some, true_and, Option.bind_some]
      exact raw_dict (hbefore.nodeAt ha) (hafter.nodeAt hb)

variable (out) in
/-- **The diff is complete**, where the change is sharp. -/
theorem Sharp.changeset (h : Sharp before after) (hbefore : Proper before) (hafter : Proper after) :
    (∀ id, id ∈ (changeset out before after).map Change.nodeId ↔ rawAt id before ≠ rawAt id after) ∧
    ∀ c ∈ changeset out before after, ∀ k, k ∈ c.fields.map FieldChange.field ↔
      rawField k (nodeAt c.nodeId before) ≠ rawField k (nodeAt c.nodeId after) := by
  have hfield : ∀ id k, eqvOption (getKey k ((nodeAt id before).getD [])) (getKey k ((nodeAt id after).getD [])) =
      true ↔ rawField k (nodeAt id before) = rawField k (nodeAt id after) := by
    intro id k
    have hget : ∀ n : Option Node, getKey k (n.getD []) = n.bind fun n => getKey k n := by
      intro n
      cases n <;> rfl
    rw [hget, hget]
    refine eqvOption_iff (fun v hv => ?_) (fun w hw => ?_) (h id k)
    · obtain ⟨a, ha, hv⟩ := Option.bind_eq_some_iff.1 hv
      exact (hbefore.nodeAt ha).getKey hv
    · obtain ⟨b, hb, hw⟩ := Option.bind_eq_some_iff.1 hw
      exact (hafter.nodeAt hb).getKey hw
  refine ⟨fun id => ?_, fun c hc k => ?_⟩
  · rw [mem_changeset, ← Bool.not_eq_true, not_iff_not, rawAt_eq_iff hbefore hafter]
    cases ha : nodeAt id before with
    | none => cases nodeAt id after <;> simp [eqvOption, rawField]
    | some a =>
      cases hb : nodeAt id after with
      | none => simp [eqvOption]
      | some b =>
        have hnodes := hfield id
        rw [ha, hb] at hnodes
        simp only [Option.map_some, Option.isSome_some, true_and, eqvOption]
        rw [eqv_dict (distinct_iff.1 (hbefore.nodeAt ha)).1 (distinct_iff.1 (hafter.nodeAt hb)).1]
        exact forall_congr' hnodes
  · rw [mem_fields_changeset hc, ← Bool.not_eq_true, not_iff_not]
    exact hfield c.nodeId k

variable (out) in
/-- Where the diff is complete, the change is sharp. -/
theorem sharp_of_changeset (hbefore : Proper before) (hafter : Proper after)
    (hnodes : ∀ id, id ∈ (changeset out before after).map Change.nodeId ↔ rawAt id before ≠ rawAt id after)
    (hfields : ∀ c ∈ changeset out before after, ∀ k, k ∈ c.fields.map FieldChange.field ↔
      rawField k (nodeAt c.nodeId before) ≠ rawField k (nodeAt c.nodeId after)) : Sharp before after := by
  intro id k v w hv hw heq
  by_contra hne
  have hdiffer : rawField k (nodeAt id before) ≠ rawField k (nodeAt id after) := by
    rw [rawField, rawField, hv, hw]
    exact fun h => hne (Option.some.inj h)
  -- the node is listed, and so is the field
  have hlisted : id ∈ (changeset out before after).map Change.nodeId :=
    (hnodes id).2 fun h => hdiffer (((rawAt_eq_iff hbefore hafter).1 h).2 k)
  obtain ⟨c, hc, rfl⟩ := List.mem_map.1 hlisted
  have hfield := (mem_fields_changeset hc).1 ((hfields c hc k).2 hdiffer)
  obtain ⟨a, ha, hv⟩ := Option.bind_eq_some_iff.1 hv
  obtain ⟨b, hb, hw⟩ := Option.bind_eq_some_iff.1 hw
  rw [ha, hb, Option.getD_some, Option.getD_some, hv, hw, eqvOption, heq] at hfield
  cases hfield

/-! ## Undoing the diff -/

omit [FloatText] in
theorem getKey_undoNode {a b : Node} {fields : List FieldChange} : getKey k (undoNode a b fields) =
    if k ∈ fields.map FieldChange.field then getKey k a else getKey k b := by
  unfold undoNode
  induction fields generalizing b with
  | nil => simp
  | cons f fields ih =>
    rw [List.foldl_cons, ih]
    simp only [List.map_cons, List.mem_cons]
    by_cases hks : k ∈ fields.map FieldChange.field
    · rw [if_pos hks, if_pos (Or.inr hks)]
    · rw [if_neg hks]
      by_cases hk : k = f.field
      · subst hk
        rw [if_pos (Or.inl rfl)]
        cases hget : getKey f.field a with
        | none => rw [Option.elim_none, getKey_remove, if_pos rfl]
        | some v => rw [Option.elim_some, getKey_upsert, if_pos rfl]
      · rw [if_neg (by simp [hk, hks])]
        cases hget : getKey f.field a with
        | none => rw [Option.elim_none, getKey_remove, if_neg hk]
        | some v => rw [Option.elim_some, getKey_upsert, if_neg hk]

omit [FloatText] in
theorem distinct_undoNode {a b : Node} {fields : List FieldChange} (ha : (dict a).Distinct) (hb : (dict b).Distinct) :
    (dict (undoNode a b fields)).Distinct := by
  unfold undoNode
  induction fields generalizing b with
  | nil => exact hb
  | cons f fields ih =>
    rw [List.foldl_cons]
    refine ih ?_
    cases hget : getKey f.field a with
    | none => exact distinct_remove hb
    | some v => exact distinct_upsert hb (ha.getKey hget)

/-- **Undoing the listed fields of a node gives the node before.** -/
theorem raw_undone {a b : Node} (hbefore : Proper before) (hafter : Proper after)
    (ha : nodeAt id before = some a) (hb : nodeAt id after = some b)
    (hnodes : ∀ id, id ∈ (changeset out before after).map Change.nodeId ↔ rawAt id before ≠ rawAt id after)
    (hfields : ∀ c ∈ changeset out before after, ∀ k, k ∈ c.fields.map FieldChange.field ↔
      rawField k (nodeAt c.nodeId before) ≠ rawField k (nodeAt c.nodeId after)) :
    (PyValue.dict ((lookup Change.nodeId id (changeset out before after)).elim b fun c =>
      undoNode a b c.fields)).raw = (PyValue.dict a).raw := by
  cases hc : lookup Change.nodeId id (changeset out before after) with
  | none =>
    have hnot : id ∉ (changeset out before after).map Change.nodeId := by
      rw [List.mem_map]
      rintro ⟨c, hmem, hid⟩
      exact lookup_eq_none.1 hc c hmem hid
    have hsame : rawAt id before = rawAt id after := not_not.1 fun h => hnot ((hnodes id).2 h)
    rw [rawAt, rawAt, ha, hb] at hsame
    exact (Option.some.inj hsame).symm
  | some c =>
    obtain ⟨hmem, rfl⟩ := lookup_eq_some hc
    have hda := hbefore.nodeAt ha
    rw [Option.elim_some, raw_dict (distinct_undoNode hda (hafter.nodeAt hb)) hda]
    intro k
    rw [getKey_undoNode]
    split_ifs with hk
    · rfl
    · have hsame : rawField k (nodeAt c.nodeId before) = rawField k (nodeAt c.nodeId after) :=
        not_not.1 fun h => hk ((hfields c hmem k).2 h)
      rw [ha, hb] at hsame
      exact hsame.symm

/-! ## The plan -/

/-- An edit gives no field a value that is equal to the one before in Python and has another text. -/
def SharpEdit (flows : List Node) (edit : PyValue) : Prop :=
  ∀ kvs, edit = .dict kvs → ∀ n ∈ flows, textAt "node_id" kvs = some n.id →
    (textAt "kind" kvs = some "patch" → ∀ fields, getKey "set_fields" kvs = some (.dict fields) →
      ∀ k v w, getKey k n = some v → getKey k fields = some w → eqv v w = true → v.raw = w.raw) ∧
    (textAt "kind" kvs = some "delete" → ∀ v, getKey (flag n) n = some v → eqv v (.bool true) = true →
      v.raw = (PyValue.bool true).raw)

/-- What a reviewer relies on in a diff. -/
structure Reviewed (edits : List PyValue) (before after : List Node) (diff : List Change) (risk : Risk) : Prop where
  nodes : ∀ id, id ∈ diff.map Change.nodeId ↔ rawAt id before ≠ rawAt id after
  fields : ∀ c ∈ diff, ∀ k, k ∈ c.fields.map FieldChange.field ↔
    rawField k (nodeAt c.nodeId before) ≠ rawField k (nodeAt c.nodeId after)
  risk : ∀ id, id ∈ risk.changedNodeIds ↔ rawAt id before ≠ rawAt id after
  undone : (undo before diff after).map (fun n => (PyValue.dict n).raw) =
    before.map fun n => (PyValue.dict n).raw
  /-- The nodes keep their order, and the created ones follow. -/
  order : ∃ kept created, after = kept ++ created ∧ kept.map Node.id = before.map Node.id ∧
    ∀ c ∈ created, c.id ∉ before.map Node.id
  untouched : ∀ n ∈ before, (∀ e ∈ edits, ¬Names e n) → nodeAt n.id after = some n
  types : ∀ n ∈ before, ∀ b ∈ after, b.id = n.id → b.type = n.type

omit [FloatText] in
/-- The node that an identifier names afterwards. -/
theorem Edited.nodeAt {base created : List Node} {done : List PyValue} {st : Editing} {g : Node → Node} {n : Node}
    (h : Edited base done st g created) (hn : n ∈ base) : nodeAt n.id st.flows = some (g n) := by
  rw [nodeAt_eq_some h.nodup, h.flows]
  exact ⟨List.mem_append_left _ (List.mem_map_of_mem hn), h.id_eq hn⟩

section
variable {base created : List Node} {edits : List PyValue} {st : Editing} {g : Node → Node} {n : Node}

/-- What an edit gives a field that the node had before. -/
theorem Changes.sharp {edit : PyValue} {a b : Node} {v w : PyValue} (h : Changes edit a b) (hedit : edit.Distinct)
    (ha : a ∈ base) (hsharp : SharpEdit base edit) (hv : getKey k a = some v) (hw : getKey k b = some w)
    (heq : eqv v w = true) : v.raw = w.raw := by
  cases h with
  | patch kvs fields removed keys hkvs hid hkind hfields _ hremoved hb =>
    subst hkvs hb
    rw [getKey_setFields (distinct_iff.1 (hedit.getKey hfields)).1, (unsetFields_spec hremoved).1] at hw
    cases hset : getKey k fields with
    | some w' =>
      rw [hset] at hw
      obtain rfl := Option.some.inj hw
      exact (hsharp kvs rfl a ha hid).1 hkind fields hfields k v w' hv hset heq
    | none =>
      rw [hset, Option.none_or] at hw
      split_ifs at hw
      rw [Option.some.inj (hv.symm.trans hw)]
  | delete kvs hkvs hid hkind hb =>
    subst hkvs hb
    rw [getKey_disable] at hw
    split_ifs at hw with hk
    · subst hk
      obtain rfl := Option.some.inj hw
      exact (hsharp kvs rfl a ha hid).2 hkind v hv heq
    · rw [Option.some.inj (hv.symm.trans hw)]

theorem Edited.sharp (h : Edited base edits st g created) (hbase : Proper base)
    (hsharp : ∀ e ∈ edits, SharpEdit base e) : Sharp base st.flows := by
  intro id k v w hv hw heq
  obtain ⟨n, hn, hget⟩ := Option.bind_eq_some_iff.1 hv
  obtain ⟨hmem, rfl⟩ := (nodeAt_eq_some hbase.nodup).1 hn
  rw [h.nodeAt hmem, Option.bind_some] at hw
  rcases h.cases hmem with hsame | ⟨e, he, hchanges⟩
  · rw [hsame, hget] at hw
    rw [Option.some.inj hw]
  · exact hchanges.sharp (h.edits e he) hmem (hsharp e he) hget hw heq

theorem Edited.sharpEdit (h : Edited base edits st g created) (hbase : Proper base) (hsharp : Sharp base st.flows) :
    ∀ e ∈ edits, SharpEdit base e := by
  intro e he kvs hkvs n hn hid
  have hchanges : Names e n → Changes e n (g n) := by
    intro hnames
    by_cases ht : n.id ∈ st.touched
    · exact (h.changed n hn ht).2 e he hnames
    · exact absurd hnames ((h.kept n hn ht).2 e he)
  have hvalues : ∀ k v w, getKey k n = some v → getKey k (g n) = some w → eqv v w = true → v.raw = w.raw := by
    intro k v w hv hw
    refine hsharp n.id k v w ?_ ?_
    · rw [(nodeAt_eq_some hbase.nodup).2 ⟨hn, rfl⟩]
      exact hv
    · rw [h.nodeAt hn]
      exact hw
  subst hkvs
  refine ⟨fun hkind fields hfields k v w hv hw => hvalues k v w hv ?_, fun hkind v hv => hvalues (flag n) v _ hv ?_⟩
  · cases hchanges ⟨kvs, rfl, hid, Or.inl hkind⟩ with
    | patch kvs' fields' removed keys hkvs' _ _ hfields' _ _ hb =>
      obtain rfl := dict.inj hkvs'
      obtain rfl := dict.inj (Option.some.inj (hfields.symm.trans hfields'))
      have hdistinct := (h.edits _ he).getKey hfields
      rw [hb, getKey_setFields (distinct_iff.1 hdistinct).1, hw]
      rfl
    | delete kvs' hkvs' _ hkind' =>
      obtain rfl := dict.inj hkvs'
      exact absurd (Option.some.inj (hkind.symm.trans hkind')) (by decide)
  · cases hchanges ⟨kvs, rfl, hid, Or.inr hkind⟩ with
    | patch kvs' _ _ _ hkvs' _ hkind' =>
      obtain rfl := dict.inj hkvs'
      exact absurd (Option.some.inj (hkind.symm.trans hkind')) (by decide)
    | delete kvs' _ _ _ hb =>
      rw [hb, getKey_disable, if_pos rfl]

end

/-- A Python value that JSON can write: the keys of a dictionary are different. -/
abbrev PyData := {v : PyValue // v.Distinct}

/-- The elements of a list. -/
def elements : PyValue → List PyValue
  | .list xs => xs
  | _ => []

omit [FloatText] in
theorem distinct_elements {v e : PyValue} (h : v.Distinct) (he : e ∈ elements v) : e.Distinct := by
  cases v with
  | list xs =>
    rw [Distinct] at h
    exact distinctElems_iff.1 h e he
  | _ => cases he

/-- What the flows of a snapshot are, where it was read from a value. -/
theorem snapshot_proper {value : PyValue} {s : Snapshot} (h : snapshot value = .ok s) (hvalue : value.Distinct) :
    Proper s.flows := by
  obtain ⟨hchecked, kvs, rfl, -, hflows⟩ := snapshot_ok h
  refine ⟨hchecked.nodup, fun n hn => ?_⟩
  have hlist := hvalue.getKey hflows
  rw [Distinct] at hlist
  exact distinctElems_iff.1 hlist _ (List.mem_map_of_mem hn)

/-- What `build_plan` accepts. -/
theorem buildPlan_ok {operationId policySha256 : String} {base edits : PyData} {now : ℚ} {ttl : ℤ} {plan : Plan}
    (h : buildPlan out operationId base.1 edits.1 policySha256 now ttl = .ok plan) :
    snapshot base.1 = .ok ⟨plan.beforeRevision, plan.beforeFlows⟩ ∧ Proper plan.beforeFlows ∧
    Snapshot.Checked ⟨plan.beforeRevision, plan.afterFlows⟩ ∧
    (∃ st g created, Edited plan.beforeFlows (elements edits.1) st g created ∧ plan.afterFlows = st.flows) ∧
    plan.diff = changeset out plan.beforeFlows plan.afterFlows ∧
    plan.risk = effectInventory plan.beforeFlows plan.afterFlows plan.diff ∧
    plan.action = .apply ∧ plan.afterSha256 = flowsDigest out plan.afterFlows := by
  simp only [buildPlan, bind_ok, need_eq_ok, exists_unit, orFail_eq_ok, pure_ok] at h
  obtain ⟨-, before, hbefore, es, hes, -, -, st, hrun, after, hafter, -, rfl⟩ := h
  obtain ⟨rfl, hchecked⟩ := snapshotOf_ok.1 hafter
  have hproper := snapshot_proper hbefore base.2
  have helements : elements edits.1 = es := by
    cases hvalue : edits.1 <;> rw [hvalue] at hes <;> first | exact Option.some.inj hes | cases hes
  have hstart : Edited before.flows [] ⟨before.flows, [], []⟩ id [] :=
    ⟨by simp, hproper.nodup, fun e he => absurd he List.not_mem_nil, fun c hc => absurd hc List.not_mem_nil,
      fun n _ _ => ⟨rfl, fun e he => absurd he List.not_mem_nil⟩, fun n _ ht => absurd ht List.not_mem_nil⟩
  obtain ⟨g, created, hedited⟩ := hstart.run hproper.nodup
    (fun e he => distinct_elements edits.2 (helements ▸ he)) hrun
  rw [List.nil_append, ← helements] at hedited
  exact ⟨hbefore, hproper, hchecked, ⟨st, g, created, hedited, rfl⟩, rfl, rfl, rfl, rfl⟩

/-- **The reviewed diff of a plan is complete exactly where the edits are sharp.** -/
theorem diff_reviewed_iff {operationId policySha256 : String} {base edits : PyData} {now : ℚ} {ttl : ℤ}
    {plan : Plan} (h : buildPlan out operationId base.1 edits.1 policySha256 now ttl = .ok plan) :
    Reviewed (elements edits.1) plan.beforeFlows plan.afterFlows plan.diff plan.risk ↔
      ∀ e ∈ elements edits.1, SharpEdit plan.beforeFlows e := by
  obtain ⟨-, hbefore, hchecked, ⟨st, g, created, hedited, hafterFlows⟩, hdiff, hrisk, -⟩ := buildPlan_ok h
  have hafter : Proper plan.afterFlows :=
    ⟨hchecked.nodup, fun n hn => hedited.distinct hbefore.distinct n (hafterFlows ▸ hn)⟩
  constructor
  · intro hreviewed
    refine hedited.sharpEdit hbefore ?_
    rw [← hafterFlows]
    refine sharp_of_changeset out hbefore hafter ?_ ?_
    · rw [← hdiff]
      exact hreviewed.nodes
    · rw [← hdiff]
      exact hreviewed.fields
  · intro hsharp
    have hflows : Sharp plan.beforeFlows plan.afterFlows := by
      rw [hafterFlows]
      exact hedited.sharp hbefore hsharp
    obtain ⟨hnodes, hfields⟩ := hflows.changeset out hbefore hafter
    -- the created nodes are new
    have hcreated := hedited.order.2
    have hids : (plan.beforeFlows.map g).map Node.id = plan.beforeFlows.map Node.id := by
      rw [List.map_map]
      exact List.map_congr_left fun n hn => hedited.id_eq hn
    refine ⟨by rw [hdiff]; exact hnodes, by rw [hdiff]; exact hfields, fun id => ?_, ?_,
      ⟨plan.beforeFlows.map g, created, by rw [hafterFlows, hedited.flows], hids, hcreated⟩, fun n hn hnone => ?_,
      fun n hn b hb hid => ?_⟩
    · rw [hrisk, effectInventory, mem_sortedSet, hdiff]
      exact hnodes id
    · have hsplit : undo plan.beforeFlows plan.diff plan.afterFlows = plan.beforeFlows.map fun n =>
          (lookup Change.nodeId n.id plan.diff).elim (g n) fun c => undoNode n (g n) c.fields := by
        have hnew : (created.filterMap fun b => (nodeAt b.id plan.beforeFlows).map fun a =>
            (lookup Change.nodeId b.id plan.diff).elim b fun c => undoNode a b c.fields) = [] := by
          refine List.filterMap_eq_nil_iff.2 fun c hc => ?_
          rw [nodeAt_eq_none.2 (hcreated c hc)]
          rfl
        rw [undo, hafterFlows, hedited.flows, List.filterMap_append, hnew, List.append_nil, List.filterMap_map]
        refine (List.filterMap_congr fun n hn => ?_).trans (congrFun List.filterMap_eq_map' _)
        simp only [Function.comp, hedited.id_eq hn, (nodeAt_eq_some hbefore.nodup).2 ⟨hn, rfl⟩]
        rfl
      rw [hsplit, List.map_map]
      refine List.map_congr_left fun n hn => ?_
      have hat : nodeAt n.id plan.afterFlows = some (g n) := hafterFlows ▸ hedited.nodeAt hn
      simp only [Function.comp, hdiff]
      exact raw_undone hbefore hafter ((nodeAt_eq_some hbefore.nodup).2 ⟨hn, rfl⟩) hat hnodes hfields
    · rw [hafterFlows, hedited.nodeAt hn]
      rcases hedited.cases hn with hsame | ⟨e, he, hchanges⟩
      · rw [hsame]
      · exact absurd hchanges.names (hnone e he)
    · have hat : nodeAt n.id plan.afterFlows = some (g n) := hafterFlows ▸ hedited.nodeAt hn
      have hsame := (nodeAt_eq_some hafter.nodup).2 ⟨hb, hid⟩
      rw [Option.some.inj (hsame.symm.trans hat)]
      exact hedited.type_eq hn

end

/-! ## Plans of a configuration -/

section

local instance : FloatText := wholeText

/-- The digests of the two nodes below. -/
def debugSha256 : String := "58a135b740adab4e5851eb98e96bd0322ea99c503b7a944e77fd26cd08b3896e"

def commentSha256 : String := "6fb3fc8933ce0ea6b766720b860c46ffe65622508b0b798e343b87caa36e6275"

/-- The digests of the two nodes are those of SHA-256; other digests and the diffs are not looked at. -/
def sampleOutside : Outside where
  sha256 t :=
    if String.ofList t = "\x7b\"active\":1,\"id\":\"a\",\"type\":\"debug\"\x7d" then debugSha256
    else if String.ofList t = "\x7b\"id\":\"b\",\"name\":\"old\",\"type\":\"comment\"\x7d" then commentSha256
    else ""
  unifiedDiff _ _ := ""
  projector := none

/-- A debug node that is active, as a number, and a comment. -/
def activeBase : PyData :=
  ⟨.dict [("rev", .str "1"), ("flows", .list [
    .dict [("id", .str "a"), ("type", .str "debug"), ("active", .int 1)],
    .dict [("id", .str "b"), ("type", .str "comment"), ("name", .str "old")]])],
    by simp [Distinct, DistinctElems, DistinctMembers]⟩

def patchOf (id sha256 key : String) (value : PyValue) : PyValue :=
  .dict [("kind", .str "patch"), ("node_id", .str id), ("expected_node_sha256", .str sha256),
    ("set_fields", .dict [(key, value)]), ("unset_fields", .list [])]

/-- The comment is renamed. -/
def renameEdits : PyData :=
  ⟨.list [patchOf "b" commentSha256 "name" (.str "new")],
    by simp [patchOf, Distinct, DistinctElems, DistinctMembers]⟩

/-- The number becomes a truth value, and the comment is renamed. -/
def activeEdits : PyData :=
  ⟨.list [patchOf "a" debugSha256 "active" (.bool true), patchOf "b" commentSha256 "name" (.str "new")],
    by simp [patchOf, Distinct, DistinctElems, DistinctMembers]⟩

def samplePlan (edits : PyData) : Except String Plan :=
  buildPlan sampleOutside (String.ofList (List.replicate 32 'b')) activeBase.1 edits.1 (String.ofList (List.replicate 64 'a')) 0 900

theorem plan_of_isSome (edits : PyData) (h : (samplePlan edits).toOption.isSome = true) :
    ∃ plan, samplePlan edits = .ok plan := by
  cases hplan : samplePlan edits with
  | error e => rw [hplan] at h; cases h
  | ok plan => exact ⟨plan, rfl⟩

/-- The diff of the renamed comment is complete. -/
theorem diff_reviewed_rename : ∃ plan, samplePlan renameEdits = .ok plan ∧
    Reviewed (elements renameEdits.1) plan.beforeFlows plan.afterFlows plan.diff plan.risk := by
  obtain ⟨plan, hplan⟩ := plan_of_isSome renameEdits (by decide +kernel)
  refine ⟨plan, hplan, (diff_reviewed_iff hplan).2 fun e he kvs hkvs n hn hid => ?_⟩
  obtain ⟨-, kvs', hbase, -, hflows⟩ := snapshot_ok (buildPlan_ok hplan).1
  obtain rfl := dict.inj hbase
  have hnodes : plan.beforeFlows.map PyValue.dict = [
      .dict [("id", .str "a"), ("type", .str "debug"), ("active", .int 1)],
      .dict [("id", .str "b"), ("type", .str "comment"), ("name", .str "old")]] :=
    (list.inj (Option.some.inj hflows)).symm
  obtain rfl := List.mem_singleton.1 he
  obtain rfl := dict.inj hkvs
  have hmem : PyValue.dict n ∈ plan.beforeFlows.map PyValue.dict := List.mem_map_of_mem hn
  rw [hnodes, List.mem_cons, List.mem_singleton] at hmem
  rcases hmem with hmem | hmem
  · obtain rfl := dict.inj hmem
    exact absurd (Option.some.inj hid) (by decide +kernel)
  · obtain rfl := dict.inj hmem
    refine ⟨fun _ fields hfields k v w hv hw heq => ?_, fun hkind => absurd (Option.some.inj hkind) (by decide +kernel)⟩
    obtain rfl := dict.inj (Option.some.inj hfields)
    -- the only field that is set is the name
    obtain ⟨rfl, rfl⟩ := Prod.mk.inj (List.mem_singleton.1 (mem_of_getKey hw))
    obtain rfl : PyValue.str "old" = v := Option.some.inj hv
    exact absurd heq (by decide +kernel)

/-- The diff of the other edits does not name the debug node, whose text changed. -/
theorem diff_not_reviewed : ¬∀ edits plan, samplePlan edits = .ok plan →
    Reviewed (elements edits.1) plan.beforeFlows plan.afterFlows plan.diff plan.risk := by
  intro h
  have hrun : (samplePlan activeEdits).toOption.map (fun p => (p.diff.map Change.nodeId,
      decide (rawAt "a" p.beforeFlows = rawAt "a" p.afterFlows))) = some (["b"], false) := by decide +kernel
  cases hplan : samplePlan activeEdits with
  | error e => rw [hplan] at hrun; cases hrun
  | ok plan =>
    rw [hplan] at hrun
    obtain ⟨honly, hraw⟩ := Prod.mk.inj (Option.some.inj hrun)
    have hnodes := (h activeEdits plan hplan).nodes "a"
    have hlisted : "a" ∈ plan.diff.map Change.nodeId := hnodes.2 (of_decide_eq_false hraw)
    rw [honly] at hlisted
    exact absurd hlisted (by decide)

end

end SmartHome.NodeRedAdmin.Planning
