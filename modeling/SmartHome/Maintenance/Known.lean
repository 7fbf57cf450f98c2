/-
  What the files of the journal know of an operation, whether it is active or archived, and that no
  write makes them forget it.
-/
import SmartHome.Maintenance.Journal

namespace SmartHome.Maintenance

open Verif Mqtt

/-! ## What is known -/

namespace Files
variable (f : Files)

/-- The operation with an identity, active or archived. -/
def known (id : Hex 32) : Option Operation :=
  (operationOf f.active id).or ((rowOf f.rows id).bind fun _ => f.archived id)

/-- How many rows of the index the snapshot counts. -/
def count : ℕ := ((f.snapshot.bind Snapshot.archive).elim 0 Anchor.count)

/-- Nothing is forgotten: what was known is continued. -/
def Extends (f g : Files) : Prop :=
  ∀ id op, f.known id = some op → ∃ op', g.known id = some op' ∧ op'.operationId = op.operationId ∧
    op'.approval = op.approval ∧ op.records <+: op'.records

variable {f} {g h : Files}

theorem Extends.refl (f : Files) : f.Extends f := fun _ op hop => ⟨op, hop, rfl, rfl, List.prefix_refl _⟩

theorem Extends.trans (hfg : f.Extends g) (hgh : g.Extends h) : f.Extends h := by
  intro id op hop
  obtain ⟨op₁, hop₁, hid₁, happroval₁, hrecords₁⟩ := hfg id op hop
  obtain ⟨op₂, hop₂, hid₂, happroval₂, hrecords₂⟩ := hgh id op₁ hop₁
  exact ⟨op₂, hop₂, hid₂.trans hid₁, happroval₂.trans happroval₁, hrecords₁.trans hrecords₂⟩

theorem extends_of_known (hk : ∀ id, g.known id = f.known id) : f.Extends g := fun id op hop =>
  ⟨op, (hk id).trans hop, rfl, rfl, List.prefix_refl _⟩

end Files

section
variable [Sha256]

/-! ## Operations -/

section
variable {op : Operation} {first row : Row} {rows rest : List Row} {i : ℕ} {previous : Option Row}

theorem Operation.RowValid.previous_running {last : Bool} (h : op.RowValid first i previous last row) :
    ∀ r ∈ previous, r.body.phase ∉ ended := h.2.2.2.2.2.2.2

/-- A record that another one follows is not the end. -/
theorem Operation.RowsValid.running (h : op.RowsValid first i previous (rows ++ row :: rest)) :
    ∀ r ∈ rows.getLast?, r.body.phase ∉ ended := by
  induction rows generalizing i previous with
  | nil => exact fun r hr => absurd hr (by simp)
  | cons r rows ih =>
    cases rows with
    | nil =>
      rintro r' hr'
      obtain rfl : r = r' := by simpa using hr'
      exact h.2.1.previous_running r rfl
    | cons r' rows =>
      rw [List.getLast?_cons_cons]
      exact ih h.2

/-- An operation that is longer had not ended. -/
theorem Operation.Valid.running {longer : Operation} (h : longer.Valid)
    (hrecords : longer.records = op.records ++ row :: rest) : ∀ phase ∈ op.lastPhase, phase ∉ ended := by
  obtain ⟨-, first, -, hrows⟩ := h
  intro phase hphase
  rw [Operation.lastPhase, Operation.phaseList, List.getLast?_map] at hphase
  obtain ⟨r, hr, rfl⟩ := Option.mem_map.1 hphase
  rw [hrecords] at hrows
  exact hrows.running r hr

/-- An operation that has ended does not continue. -/
theorem Operation.Valid.eq_of_ended {longer : Operation} (h : longer.Valid) (hlonger : op.records <+: longer.records)
    (hid : longer.operationId = op.operationId) (happroval : longer.approval = op.approval)
    (hended : ∃ phase ∈ op.lastPhase, phase ∈ ended) : longer = op := by
  obtain ⟨rest, hrest⟩ := hlonger
  obtain ⟨phase, hphase, hmem⟩ := hended
  cases rest with
  | nil =>
    rw [List.append_nil] at hrest
    cases op
    cases longer
    simp_all
  | cons row rest => exact absurd hmem (h.running hrest.symm phase hphase)

omit [Sha256] in
theorem terminal_ended {phase : Phase} (h : phase ∈ terminal) : phase ∈ ended := by
  revert h
  cases phase <;> decide

end

/-! ## Sound files -/

namespace Files

/-- Files as the journal makes them. -/
structure Sound (f : Files) : Prop where
  snapshot : ∀ s ∈ f.snapshot, s.Valid
  index : ∀ ix ∈ f.index, ix.Valid
  stored : ∀ r ∈ f.rows, ∃ op, f.archived r.operationId = some op ∧ op.Valid ∧
    fileBytes op.file ≤ maxOperationBytes ∧ op.row = some r
  counted : f.count ≤ f.rows.length
  anchored : ∀ s ∈ f.snapshot, ∀ a ∈ s.archive, a.count ≠ 0 →
    a.sha256 = some (digest (Index.mk a.count (f.rows.take a.count)).json)
  /-- An operation in both places is the same. -/
  same : ∀ r ∈ f.rows, ∀ op ∈ f.active, op.operationId = r.operationId → f.archived r.operationId = some op
  tail : ∀ r ∈ f.rows.drop f.count, ∃ op ∈ f.active, op.operationId = r.operationId
  /-- A file that the index does not name is a copy of an active operation. -/
  orphan : ∀ id op, f.archived id = some op → (∀ r ∈ f.rows, r.operationId ≠ id) →
    op.operationId = id ∧ op ∈ f.active ∧ ∃ phase ∈ op.lastPhase, phase ∈ terminal

variable {f : Files}

namespace Sound

omit [Sha256] in
theorem mem_operations {s : Snapshot} (hs : f.snapshot = some s) : f.active = s.operations := by rw [active, hs]; rfl

theorem valid_active (hf : f.Sound) {op : Operation} (hop : op ∈ f.active) : op.Valid := by
  cases hs : f.snapshot with
  | none => rw [active, hs] at hop; cases hop
  | some s =>
    rw [mem_operations hs] at hop
    exact (hf.snapshot s hs).2.2.2.2 op hop

theorem nodup_active (hf : f.Sound) : (f.active.map Operation.operationId).Nodup := by
  cases hs : f.snapshot with
  | none => rw [active, hs]; exact List.nodup_nil
  | some s =>
    rw [mem_operations hs]
    exact (hf.snapshot s hs).2.2.2.1

theorem nodup_rows (hf : f.Sound) : (f.rows.map IndexRow.operationId).Nodup := by
  cases hix : f.index with
  | none => rw [rows, hix]; exact List.nodup_nil
  | some ix =>
    rw [rows, hix]
    exact (hf.index ix hix).2.2.2.1

theorem rows_terminal (hf : f.Sound) {r : IndexRow} (hr : r ∈ f.rows) : r.phase ∈ terminal := by
  cases hix : f.index with
  | none => rw [rows, hix] at hr; cases hr
  | some ix =>
    rw [rows, hix] at hr
    exact (hf.index ix hix).2.2.2.2 r hr

end Sound

end Files

theorem Operation.row_eq_some {op : Operation} {r : IndexRow} (h : op.row = some r) :
    r.operationId = op.operationId ∧ op.lastPhase = some r.phase := by
  obtain ⟨last, hlast, rfl⟩ := Option.map_eq_some_iff.1 h
  refine ⟨rfl, ?_⟩
  rw [Operation.lastPhase, Operation.phaseList, List.getLast?_map, hlast]
  rfl

namespace Files.Sound
variable {f : Files} (hf : f.Sound)
include hf

theorem known_of_active {op : Operation} (hop : op ∈ f.active) : f.known op.operationId = some op := by
  have hlookup : operationOf f.active op.operationId = some op := (lookup_eq_some_iff hf.nodup_active).2 ⟨hop, rfl⟩
  rw [known, hlookup]
  rfl

omit [Sha256] hf in
theorem known_of_not_active {id : Hex 32} (h : ∀ op ∈ f.active, op.operationId ≠ id) :
    f.known id = (rowOf f.rows id).bind fun _ => f.archived id := by
  have hlookup : operationOf f.active id = none := lookup_eq_none.2 h
  rw [known, hlookup]
  rfl

theorem known_of_row {r : IndexRow} (hr : r ∈ f.rows) : f.known r.operationId = f.archived r.operationId := by
  by_cases h : ∃ op ∈ f.active, op.operationId = r.operationId
  · obtain ⟨op, hop, hid⟩ := h
    rw [hf.same r hr op hop hid, ← hid]
    exact hf.known_of_active hop
  · rw [known_of_not_active fun op hop hid => h ⟨op, hop, hid⟩]
    have hrow : rowOf f.rows r.operationId = some r := (lookup_eq_some_iff hf.nodup_rows).2 ⟨hr, rfl⟩
    rw [hrow]
    rfl

/-- What is known is an operation. -/
theorem of_known {id : Hex 32} {op : Operation} (h : f.known id = some op) : op.operationId = id ∧ op.Valid := by
  by_cases hactive : ∃ o ∈ f.active, o.operationId = id
  · obtain ⟨o, ho, rfl⟩ := hactive
    obtain rfl := Option.some.inj ((hf.known_of_active ho).symm.trans h)
    exact ⟨rfl, hf.valid_active ho⟩
  · rw [known_of_not_active fun o ho hid => hactive ⟨o, ho, hid⟩] at h
    obtain ⟨r, hr, harchived⟩ := Option.bind_eq_some_iff.1 h
    obtain ⟨hmem, rfl⟩ := lookup_eq_some hr
    obtain ⟨op', hop', hvalid, -, hrow⟩ := hf.stored r hmem
    obtain rfl := Option.some.inj (hop'.symm.trans harchived)
    exact ⟨(Operation.row_eq_some hrow).1.symm, hvalid⟩

/-- An active operation that has not ended is not archived. -/
theorem not_archived {op : Operation} (hop : op ∈ f.active) (hrunning : ∀ phase ∈ op.lastPhase, phase ∉ ended) :
    f.archived op.operationId = none ∧ ∀ r ∈ f.rows, r.operationId ≠ op.operationId := by
  have hrow : ∀ r ∈ f.rows, r.operationId ≠ op.operationId := by
    intro r hr hid
    obtain ⟨op', hop', -, -, hrow⟩ := hf.stored r hr
    obtain rfl := Option.some.inj (hop'.symm.trans (hf.same r hr op hop hid.symm))
    exact hrunning r.phase (Operation.row_eq_some hrow).2 (terminal_ended (hf.rows_terminal hr))
  refine ⟨?_, hrow⟩
  cases harchived : f.archived op.operationId with
  | none => rfl
  | some o =>
    obtain ⟨hid, ho, phase, hphase, hterminal⟩ := hf.orphan _ o harchived hrow
    obtain rfl := eq_of_key_eq hf.nodup_active ho hop hid
    exact absurd (terminal_ended hterminal) (hrunning phase hphase)

end Files.Sound
end
end SmartHome.Maintenance
