/-
  What the writes of the journal do to sound files: they stay sound, and what is known stays known.
-/
import SmartHome.Maintenance.Known

namespace SmartHome.Maintenance

open Verif Mqtt

section
variable [Sha256] {f : Files} {op : Operation} {r : IndexRow} {s : Snapshot} {ix : Index}

namespace Files.Sound
variable (hf : f.Sound)
include hf

/-- The copy of an operation that is to be retired. -/
theorem withArchived (hop : op ∈ f.active) (hphase : ∃ phase ∈ op.lastPhase, phase ∈ terminal)
    (hnone : f.archived op.operationId = none) :
    (f.withArchived op).Sound ∧ ∀ id, (f.withArchived op).known id = f.known id := by
  have hrow : ∀ r ∈ f.rows, r.operationId ≠ op.operationId := by
    intro r hr hid
    obtain ⟨o, ho, -⟩ := hf.stored r hr
    rw [hid, hnone] at ho
    cases ho
  have hold : ∀ r ∈ f.rows, (f.withArchived op).archived r.operationId = f.archived r.operationId := fun r hr =>
    Function.update_of_ne (hrow r hr) _ _
  refine ⟨⟨hf.snapshot, hf.index, fun r hr => (hold r hr).symm ▸ hf.stored r hr, hf.counted, hf.anchored,
    fun r hr o ho hid => (hold r hr).trans (hf.same r hr o ho hid), hf.tail, fun id o ho hid => ?_⟩, fun id => ?_⟩
  · by_cases hself : id = op.operationId
    · subst hself
      have hupdate : (f.withArchived op).archived op.operationId = some op := Function.update_self ..
      obtain rfl := Option.some.inj (hupdate.symm.trans ho)
      exact ⟨rfl, hop, hphase⟩
    · have hupdate : (f.withArchived op).archived id = f.archived id := Function.update_of_ne hself _ _
      exact hf.orphan id o (hupdate.symm.trans ho) hid
  · show (operationOf f.active id).or ((rowOf f.rows id).bind fun _ => (f.withArchived op).archived id) = _
    cases hr : rowOf f.rows id with
    | none => rw [known, hr]; rfl
    | some r =>
      obtain ⟨hmem, rfl⟩ := lookup_eq_some hr
      rw [known, hr, Option.bind_some, hold r hmem, Option.bind_some]

/-- The row of an operation that is to be retired. -/
theorem withIndex (hop : op ∈ f.active) (harchived : f.archived op.operationId = some op)
    (hsize : fileBytes op.file ≤ maxOperationBytes) (hrow : op.row = some r)
    (hnew : ∀ r ∈ f.rows, r.operationId ≠ op.operationId) (hrows : ix.operations = f.rows ++ [r]) (hix : ix.Valid) :
    (f.withIndex ix).Sound ∧ ∀ id, (f.withIndex ix).known id = f.known id := by
  have hid := (Operation.row_eq_some hrow).1
  have hrows' : (f.withIndex ix).rows = f.rows ++ [r] := hrows
  refine ⟨⟨hf.snapshot, ?_, ?_, ?_, ?_, ?_, ?_, ?_⟩, fun id => ?_⟩
  · rintro ix' hix'
    obtain rfl := Option.some.inj hix'
    exact hix
  · intro r' hr'
    rw [hrows', mem_concat] at hr'
    rcases hr' with hr' | rfl
    · exact hf.stored r' hr'
    · exact ⟨op, hid ▸ harchived, hf.valid_active hop, hsize, hrow⟩
  · rw [hrows', List.length_append]
    exact Nat.le_add_right_of_le hf.counted
  · intro s hs a ha hne
    have hcounted : a.count ≤ f.rows.length := by
      have hcount := hf.counted
      rw [count, show f.snapshot = some s from hs, Option.bind_some, show s.archive = some a from ha] at hcount
      exact hcount
    rw [hrows', List.take_append_of_le_length hcounted]
    exact hf.anchored s hs a ha hne
  · intro r' hr' o ho ho'
    rw [hrows', mem_concat] at hr'
    rcases hr' with hr' | rfl
    · exact hf.same r' hr' o ho ho'
    · obtain rfl := eq_of_key_eq hf.nodup_active ho hop (ho'.trans hid)
      exact hid ▸ harchived
  · intro r' hr'
    rw [hrows', show (f.withIndex ix).count = f.count from rfl, List.drop_append_of_le_length hf.counted, mem_concat] at hr'
    rcases hr' with hr' | rfl
    · exact hf.tail r' hr'
    · exact ⟨op, hop, hid.symm⟩
  · intro id o ho hids
    refine hf.orphan id o ho fun r' hr' => hids r' ?_
    rw [hrows', mem_concat]
    exact Or.inl hr'
  · by_cases hactive : ∃ o ∈ f.active, o.operationId = id
    · obtain ⟨o, ho, rfl⟩ := hactive
      have hlookup : operationOf f.active o.operationId = some o := (lookup_eq_some_iff hf.nodup_active).2 ⟨ho, rfl⟩
      rw [known, known, show (f.withIndex ix).active = f.active from rfl, hlookup]
      rfl
    · have hne : id ≠ r.operationId := by
        rintro rfl
        exact hactive ⟨op, hop, hid.symm⟩
      have hlookup : rowOf (f.rows ++ [r]) id = rowOf f.rows id := lookup_concat_ne hne
      rw [known, hrows', hlookup]
      rfl

/-- The snapshot without an operation that is archived. -/
theorem retired (hs : f.snapshot = some s) (hix : f.index = some ix) (hop : op ∈ s.operations)
    (harchived : f.archived op.operationId = some op) (hr : ∃ r ∈ f.rows, r.operationId = op.operationId)
    {s' : Snapshot} (hvalid : s'.Valid) (hops : s'.operations = s.operations.erase op)
    (hanchor : s'.archive = some ⟨ix.operations.length, some (digest ix.json)⟩) :
    (f.withSnapshot s').Sound ∧ ∀ id, (f.withSnapshot s').known id = f.known id := by
  have hactive : f.active = s.operations := mem_operations hs
  have hactive' : (f.withSnapshot s').active = s.operations.erase op := hops
  have hcount : (f.withSnapshot s').count = f.rows.length := by
    rw [count, withSnapshot, Option.bind_some, hanchor, rows, hix]
    rfl
  have hsub : ∀ o ∈ (f.withSnapshot s').active, o ∈ f.active := fun o ho => by
    rw [hactive'] at ho
    exact hactive ▸ List.mem_of_mem_erase ho
  -- only the operation itself leaves
  have hkept : ∀ o ∈ f.active, o.operationId ≠ op.operationId → o ∈ (f.withSnapshot s').active := fun o ho hne => by
    rw [hactive'] at *
    refine (List.mem_erase_of_ne ?_).2 (hactive ▸ ho)
    rintro rfl
    exact hne rfl
  have hsound : (f.withSnapshot s').Sound := by
    refine ⟨?_, hf.index, hf.stored, hcount.le, ?_, fun r hr o ho => hf.same r hr o (hsub o ho), ?_, ?_⟩
    · rintro s₁ hs₁
      obtain rfl := Option.some.inj hs₁
      exact hvalid
    · rintro s₁ hs₁ a ha hne
      obtain rfl := Option.some.inj hs₁
      obtain rfl := Option.some.inj (hanchor.symm.trans ha)
      have hrevision := (hf.index ix hix).2.2.1
      have hrows : (f.withSnapshot s').rows = ix.operations := by
        show f.rows = _
        rw [rows, hix]
        rfl
      show some (digest ix.json) = _
      rw [hrows, List.take_length, ← hrevision]
    · intro r hr
      rw [hcount, show (f.withSnapshot s').rows = f.rows from rfl, List.drop_length] at hr
      cases hr
    · intro id o ho hids
      obtain ⟨hid, hmem, hphase⟩ := hf.orphan id o ho hids
      refine ⟨hid, hkept o hmem fun hsame => ?_, hphase⟩
      obtain ⟨r, hr, hrid⟩ := hr
      exact hids r hr (hrid.trans (hsame.symm.trans hid))
  refine ⟨hsound, fun id => ?_⟩
  by_cases hmem : ∃ o ∈ (f.withSnapshot s').active, o.operationId = id
  · obtain ⟨o, ho, rfl⟩ := hmem
    rw [hsound.known_of_active ho, hf.known_of_active (hsub o ho)]
  · have hnone : ∀ o ∈ (f.withSnapshot s').active, o.operationId ≠ id := fun o ho hid => hmem ⟨o, ho, hid⟩
    by_cases hself : id = op.operationId
    · subst hself
      obtain ⟨r, hr, hrid⟩ := hr
      have hknown := hsound.known_of_row (r := r) hr
      rw [hrid] at hknown
      rw [hknown, hf.known_of_active (hactive ▸ hop)]
      exact harchived
    · rw [known_of_not_active hnone, known_of_not_active fun o ho hid => ?_]
      · rfl
      · exact hnone o (hkept o ho (hid.symm ▸ hself)) hid

/-- An identity that nothing is known of. -/
theorem unknown {id : Hex 32} (h : f.known id = none) : (∀ op ∈ f.active, op.operationId ≠ id) ∧
    f.archived id = none ∧ ∀ r ∈ f.rows, r.operationId ≠ id := by
  have hactive : ∀ op ∈ f.active, op.operationId ≠ id := by
    rintro op hop rfl
    rw [hf.known_of_active hop] at h
    cases h
  have hrows : ∀ r ∈ f.rows, r.operationId ≠ id := by
    rintro r hr rfl
    obtain ⟨op, hop, -⟩ := hf.stored r hr
    rw [hf.known_of_row hr, hop] at h
    cases h
  refine ⟨hactive, ?_, hrows⟩
  cases harchived : f.archived id with
  | none => rfl
  | some op =>
    obtain ⟨hid, hop, -⟩ := hf.orphan id op harchived hrows
    exact absurd hid (hactive op hop)

/-- A new or longer operation. -/
theorem withOperation (harchived : f.archived op.operationId = none)
    (hrows : ∀ r ∈ f.rows, r.operationId ≠ op.operationId) {s' : Snapshot}
    (hs' : s' = (f.snapshot.getD .empty).withOperation op) (hvalid : s'.Valid) :
    (f.withSnapshot s').Sound ∧
      ∀ id, (f.withSnapshot s').known id = if id = op.operationId then some op else f.known id := by
  have hactive : (f.withSnapshot s').active = upsert Operation.operationId op f.active := by
    subst hs'
    cases hs : f.snapshot with
    | none => rw [Files.active, Files.active, hs]; rfl
    | some s => rw [Files.active, Files.active, hs]; rfl
  have harchive : s'.archive = f.snapshot.bind Snapshot.archive := by
    subst hs'
    cases f.snapshot <;> rfl
  have hcount : (f.withSnapshot s').count = f.count := by
    rw [count, count, withSnapshot, Option.bind_some, harchive]
  have hkept : ∀ o ∈ f.active, o.operationId ≠ op.operationId → o ∈ (f.withSnapshot s').active := fun o ho hne => by
    rw [hactive, mem_upsert]
    exact Or.inl ⟨ho, hne⟩
  refine ⟨⟨?_, hf.index, hf.stored, hcount ▸ hf.counted, ?_, ?_, ?_, ?_⟩, fun id => ?_⟩
  · rintro s₁ hs₁
    obtain rfl := Option.some.inj hs₁
    exact hvalid
  · rintro s₁ hs₁ a ha hne
    obtain rfl := Option.some.inj hs₁
    obtain ⟨s, hs, has⟩ := Option.bind_eq_some_iff.1 (harchive.symm.trans ha)
    exact hf.anchored s hs a has hne
  · intro r hr o ho hid
    rw [hactive, mem_upsert] at ho
    rcases ho with ⟨ho, -⟩ | rfl
    · exact hf.same r hr o ho hid
    · exact absurd hid.symm (hrows r hr)
  · intro r hr
    rw [hcount] at hr
    obtain ⟨o, ho, hid⟩ := hf.tail r hr
    exact ⟨o, hkept o ho (hid ▸ hrows r (List.mem_of_mem_drop hr)), hid⟩
  · intro id o ho hids
    obtain ⟨hid, hmem, hphase⟩ := hf.orphan id o ho hids
    refine ⟨hid, hkept o hmem ?_, hphase⟩
    rintro hsame
    rw [← hid, hsame] at ho
    exact absurd (harchived.symm.trans ho) (Option.some_ne_none o).symm
  · rw [known, hactive]
    split_ifs with hid
    · subst hid
      have hlookup : operationOf (upsert Operation.operationId op f.active) op.operationId = some op := lookup_upsert_self
      rw [hlookup]
      rfl
    · have hlookup : operationOf (upsert Operation.operationId op f.active) id = operationOf f.active id :=
        lookup_upsert_ne hid
      rw [hlookup]
      rfl

end Files.Sound
end
end SmartHome.Maintenance
