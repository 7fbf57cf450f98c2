/-
  Sound files can be read, whatever a crash left: every identity gives what is known of it.
-/
import SmartHome.Maintenance.Writes

namespace SmartHome.Maintenance

open Verif Mqtt

section
variable [Sha256] {f : Files}

namespace Files.Sound
variable (hf : f.Sound)
include hf

theorem read_eq : f.read = .ok f.snapshot := by
  unfold Files.read
  cases hs : f.snapshot with
  | none => rfl
  | some s => exact if_pos (hf.snapshot s hs)

theorem indexed_eq : f.indexed = .ok f.index := by
  unfold Files.indexed
  cases hix : f.index with
  | none => rfl
  | some ix => exact if_pos (hf.index ix hix)

theorem load_eq {r : IndexRow} (hr : r ∈ f.rows) :
    ∃ op, f.archived r.operationId = some op ∧ op.row = some r ∧ f.load r = .ok op := by
  obtain ⟨op, hop, hvalid, hsize, hrow⟩ := hf.stored r hr
  refine ⟨op, hop, hrow, ?_⟩
  rw [load, hop]
  exact if_pos ⟨hvalid, hsize, hrow⟩

theorem findArchived_eq (id : Hex 32) :
    f.findArchived id = .ok ((rowOf f.rows id).bind fun _ => f.archived id) := by
  have hrows : f.index.elim [] Index.operations = f.rows := rfl
  simp only [findArchived, hf.indexed_eq, bind, Except.bind, hrows]
  cases hr : rowOf f.rows id with
  | none => rfl
  | some r =>
    obtain ⟨hmem, rfl⟩ := lookup_eq_some hr
    obtain ⟨op, hop, -, hload⟩ := hf.load_eq hmem
    simp only [hload, Option.bind_some, hop]
    rfl

theorem findArchived_row {r : IndexRow} (hr : r ∈ f.rows) :
    f.findArchived r.operationId = .ok (f.archived r.operationId) := by
  have hrow : rowOf f.rows r.operationId = some r := (lookup_eq_some_iff hf.nodup_rows).2 ⟨hr, rfl⟩
  rw [hf.findArchived_eq, hrow]
  rfl

theorem tailChecked_eq {rows : List IndexRow}
    (hrows : ∀ r ∈ rows, r ∈ f.rows ∧ ∃ op ∈ f.active, op.operationId = r.operationId) : f.tailChecked f.active rows = .ok () := by
  induction rows with
  | nil => rfl
  | cons r rows ih =>
    obtain ⟨hr, op, hop, hid⟩ := hrows r List.mem_cons_self
    have hactive : operationOf f.active r.operationId = some op := (lookup_eq_some_iff hf.nodup_active).2 ⟨hop, hid⟩
    have hsame := hf.same r hr op hop hid
    obtain ⟨op', hop', hrow, -⟩ := hf.load_eq hr
    obtain rfl := Option.some.inj (hop'.symm.trans hsame)
    rw [tailChecked, hactive]
    simp only [hrow, if_true, hf.findArchived_row hr, hsame, bind, Except.bind]
    exact ih fun r' hr' => hrows r' (List.mem_cons_of_mem _ hr')

theorem fits : ((f.snapshot.bind Snapshot.archive).getD ⟨0, none⟩).Fits f.rows := by
  have hcounted := hf.counted
  rw [count] at hcounted
  cases hs : f.snapshot.bind Snapshot.archive with
  | none => exact ⟨Nat.zero_le _, fun _ => rfl, fun hne => absurd rfl hne⟩
  | some a =>
    obtain ⟨s, hsnapshot, ha⟩ := Option.bind_eq_some_iff.1 hs
    rw [hs] at hcounted
    exact ⟨hcounted, ((hf.snapshot s hsnapshot).2.1 a ha).2.1, fun hne => (hf.anchored s hsnapshot a ha hne).symm⟩

theorem checked_eq : f.checked f.snapshot = .ok f.index := by
  have htail : f.tailChecked f.active (f.rows.drop ((f.snapshot.bind Snapshot.archive).getD ⟨0, none⟩).count) = .ok () := by
    refine hf.tailChecked_eq fun r hr => ⟨List.mem_of_mem_drop hr, hf.tail r ?_⟩
    rw [count]
    cases hs : f.snapshot.bind Snapshot.archive <;> rw [hs] at hr <;> exact hr
  have hfits := hf.fits
  rw [active, rows] at htail
  rw [rows] at hfits
  rw [checked, hf.indexed_eq]
  simp only [bind, Except.bind, if_pos hfits, htail]
  rfl

/-- **What is known is found.** -/
theorem find_eq (id : Hex 32) : f.find id = .ok (f.known id) := by
  have hactive : f.snapshot.elim [] Snapshot.operations = f.active := rfl
  simp only [find, hf.read_eq, bind, Except.bind, hactive]
  cases hop : operationOf f.active id with
  | some op =>
    rw [known, hop]
    rfl
  | none =>
    rw [hf.checked_eq, known, hop]
    exact hf.findArchived_eq id

end Files.Sound
end
end SmartHome.Maintenance
