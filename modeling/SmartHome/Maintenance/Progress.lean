/-
  The journal does not get stuck: whatever stopped it before, an entry that continues an operation is
  recorded if the disk does not fail.  A full snapshot makes room by retiring an operation that has ended.
-/
import SmartHome.Lib.Stays
import SmartHome.Maintenance.Runs
import SmartHome.Maintenance.Sizes

namespace SmartHome.Maintenance

open Verif Program Mqtt

/-! ## Steps -/

section
variable {α β : Type} {answer : ∀ q, Reply q} {d : Dir} {post : β → Dir → Prop}

theorem ends_fallible {k : Unit → Prog β} (hdisk : answer .disk = true) (h : (k ()).Ends answer post d) :
    (fallible >>= k).Ends answer post d := by
  rw [fallible, bind_assoc]
  exact ends_ask (ends_require hdisk h)

theorem ends_reading {read : Files → Except String α} {a : α} {k : α → Prog β} (hdisk : answer .disk = true)
    (hread : read d.now = .ok a) (h : (k a).Ends answer post d) : (reading read >>= k).Ends answer post d := by
  rw [reading, bind_assoc]
  refine ends_fallible hdisk ?_
  rw [bind_assoc]
  exact ends_get (ends_lift hread h)

theorem ends_atomicWrite {write : Files → Files} {k : Unit → Prog β} (hdisk : answer .disk = true)
    (h : (k ()).Ends answer post (d.rename write).sync) : (atomicWrite write >>= k).Ends answer post d := by
  rw [atomicWrite, bind_assoc]
  have hsync : Ends answer post (.atomic Dir.sync fun _ => k ()) (d.rename write) := h
  have hrest : Ends answer post
      ((fallible >>= fun _ => .atomic Dir.sync fun _ => (pure () : Prog Unit)) >>= k) (d.rename write) := by
    rw [bind_assoc]
    exact ends_fallible hdisk hsync
  have hrename : Ends answer post (.atomic (·.rename write) fun _ =>
      (fallible >>= fun _ => .atomic Dir.sync fun _ => (pure () : Prog Unit)) >>= k) d := hrest
  exact ends_fallible hdisk hrename

end

section
variable [Sha256] {β : Type} {answer : ∀ q, Reply q} {d : Dir} {op : Operation}

/-! ## Retirement -/

section
variable {post : β → Dir → Prop}

theorem ends_storeFile {k : Unit → Prog β} (hdisk : answer .disk = true) (hd : d.Sound) (hop : op ∈ d.now.active)
    (hphase : ∃ phase ∈ op.lastPhase, phase ∈ terminal) (hnew : ∀ r ∈ d.now.rows, r.operationId ≠ op.operationId)
    (h : ∀ d', Kept d d' → d'.now.index = d.now.index → d'.now.archived op.operationId = some op →
      (k ()).Ends answer post d') : (storeFile op >>= k).Ends answer post d := by
  rw [storeFile, bind_assoc]
  refine ends_reading hdisk rfl ?_
  cases ho : d.now.archived op.operationId with
  | some orphan =>
    -- a crash left the file, and the operation has ended since
    obtain ⟨hid, horphan, -⟩ := hd.now.orphan _ orphan ho hnew
    obtain rfl := eq_of_key_eq hd.now.nodup_active horphan hop hid
    exact ends_require rfl (h d ⟨hd, rfl, fun _ => rfl⟩ rfl ho)
  | none =>
    have hstored := hd.now.withArchived hop hphase ho
    exact ends_atomicWrite hdisk (h _ ⟨sound_synced hstored.1, rfl, hstored.2⟩ rfl (Function.update_self ..))

theorem ends_preserve {k : Unit → Prog β} (hdisk : answer .disk = true) (hd : d.Sound) (hop : op ∈ d.now.active)
    (hphase : ∃ phase ∈ op.lastPhase, phase ∈ terminal) (hlt : d.now.rows.length < maxArchivedOperations)
    (h : ∀ d', Kept d d' → (∃ r ∈ d'.now.rows, r.operationId = op.operationId) →
      d'.now.archived op.operationId = some op → (k ()).Ends answer post d') :
    (preserve op >>= k).Ends answer post d := by
  simp only [preserve, bind_assoc]
  have hvalid := hd.now.valid_active hop
  refine ends_require hvalid (ends_require hphase (ends_reading hdisk hd.now.indexed_eq
    (ends_reading hdisk (hd.now.findArchived_eq _) ?_)))
  cases hrow : rowOf d.now.rows op.operationId with
  | some r =>
    obtain ⟨hr, hid⟩ := lookup_eq_some hrow
    have hsame : d.now.archived op.operationId = some op := hid ▸ hd.now.same r hr op hop hid.symm
    rw [Option.bind_some, hsame]
    exact ends_require rfl (h d ⟨hd, rfl, fun _ => rfl⟩ ⟨r, hr, hid⟩ hsame)
  | none =>
    have hnew : ∀ r ∈ d.now.rows, r.operationId ≠ op.operationId := lookup_eq_none.1 hrow
    simp only [Option.bind_none, bind_assoc]
    refine ends_require hlt (ends_require hvalid.file_fits ?_)
    refine ends_storeFile hdisk hd hop hphase hnew fun d₁ hd₁ hix₁ harchived₁ => ?_
    refine ends_reading hdisk hd₁.sound.now.indexed_eq (ends_require hix₁ ?_)
    obtain ⟨r, hr, hixvalid, hsound, hknown⟩ := hd₁.withIndex hix₁ hd hop hphase hlt hnew hvalid.file_fits harchived₁
    have hid := (Operation.row_eq_some hr).1
    have hix : (⟨d.now.index.elim 0 Index.revision + 1, d.now.index.elim [] Index.operations ++ op.row.toList⟩ : Index) =
        ⟨d.now.index.elim 0 Index.revision + 1, d.now.rows ++ [r]⟩ := by rw [hr]; rfl
    rw [hix]
    have hmem : r ∈ d.now.rows ++ [r] := mem_concat.2 (Or.inr rfl)
    have hfound := hsound.findArchived_row (r := r) hmem
    rw [hid] at hfound
    refine ends_require hixvalid.fits (ends_atomicWrite hdisk (ends_reading hdisk hfound (ends_require harchived₁ ?_)))
    exact h _ ⟨sound_synced hsound, hd₁.snapshot, fun id => (hknown id).trans (hd₁.known id)⟩ ⟨r, hmem, hid⟩ harchived₁

/-- A snapshot without an operation that is archived. -/
theorem Snapshot.Valid.retire {s : Snapshot} {ix : Index} (h : s.Valid) (op : Operation) (hix : ix.Valid) (hne : ix.operations ≠ [])
    (hrevision : s.revision + 1 < 2 ^ 64) :
    (Snapshot.mk (s.revision + 1) (s.operations.erase op) (some ⟨ix.operations.length, some (digest ix.json)⟩)).Valid := by
  obtain ⟨-, -, hlen, hnodup, hops⟩ := h
  refine ⟨hrevision, ?_, (List.length_erase_le).trans hlen, hnodup.sublist (List.erase_sublist.map _), fun o ho =>
    hops o (List.mem_of_mem_erase ho)⟩
  intro a ha
  obtain rfl := Option.some.inj ha
  exact ⟨hix.2.2.1 ▸ hix.2.1, by simp [hne]⟩

theorem ends_retireOne {old : Snapshot} {k : Option Snapshot → Prog β} (hdisk : answer .disk = true) (hd : d.Sound)
    (hold : d.now.snapshot = some old) (hended : ∃ op ∈ old.operations, ∃ phase ∈ op.lastPhase, phase ∈ terminal)
    (hlt : d.now.rows.length < maxArchivedOperations) (hrevision : old.revision + 1 < 2 ^ 64)
    (h : ∀ d' s, d'.Sound → d'.now.snapshot = some s → (∀ id, d'.now.known id = d.now.known id) →
      s.revision = old.revision + 1 → s.operations.length + 1 = old.operations.length →
      (k (some s)).Ends answer post d') : (retireOne old >>= k).Ends answer post d := by
  unfold retireOne
  cases hfind : old.operations.find? fun op => decide (∃ phase ∈ op.lastPhase, phase ∈ terminal) with
  | none =>
    obtain ⟨op, hop, hphase⟩ := hended
    exact absurd hphase (by simpa using List.find?_eq_none.1 hfind op hop)
  | some op =>
    have hmem := List.mem_of_find?_eq_some hfind
    have hphase : ∃ phase ∈ op.lastPhase, phase ∈ terminal := by simpa using List.find?_some hfind
    have hop : op ∈ d.now.active := by
      rw [Files.Sound.mem_operations hold]
      exact hmem
    simp only [bind_assoc]
    refine ends_reading hdisk (hold ▸ hd.now.checked_eq) (ends_preserve hdisk hd hop hphase hlt
      fun d₁ hd₁ hrow₁ harchived₁ => ?_)
    refine ends_reading hdisk hd₁.sound.now.indexed_eq ?_
    cases hix : d₁.now.index with
    | none =>
      obtain ⟨r, hr, -⟩ := hrow₁
      rw [Files.rows, hix] at hr
      cases hr
    | some ix =>
      have hne : ix.operations ≠ [] := by
        obtain ⟨r, hr, -⟩ := hrow₁
        rw [Files.rows, hix] at hr
        exact List.ne_nil_of_mem hr
      have hsnapshot : d₁.now.snapshot = some old := hd₁.snapshot.trans hold
      have hvalid := (hd.now.snapshot old hold).retire op (hd₁.sound.now.index ix hix) hne hrevision
      have hretired := hd₁.sound.now.retired hsnapshot hix hmem harchived₁ hrow₁ hvalid rfl rfl
      simp only [bind_assoc]
      refine ends_require hvalid (ends_reading hdisk hd₁.sound.now.read_eq (ends_require hsnapshot
        (ends_atomicWrite hdisk (ends_reading hdisk hretired.1.read_eq ?_))))
      refine h _ _ (sound_synced hretired.1) rfl (fun id => (hretired.2 id).trans (hd₁.known id)) rfl ?_
      rw [List.length_erase_of_mem hmem]
      exact Nat.sub_add_cancel (List.length_pos_of_mem hmem)

end

/-! ## Append -/

/-- The record of an entry after an operation. -/
def Entry.row (e : Entry) (op : Operation) : Row :=
  let body : Body := ⟨e.operationId, op.approval, e.phase, e.facts, e.atNs, e.clockDomain, op.records.length + 1, head op⟩
  ⟨body, digest body.json⟩

/-- The operation with the record of an entry. -/
def Entry.longer (e : Entry) (op : Operation) : Operation := ⟨op.operationId, op.approval, op.records ++ [e.row op]⟩

/-- An entry that goes on with an operation, where its phase is not recorded yet. -/
structure Entry.Continues (e : Entry) (op : Operation) : Prop where
  operationId : op.operationId = e.operationId
  fresh : op.record e.phase = none
  parent : head op = e.expected
  valid : (e.longer op).Valid

/-- The directory after an entry: nothing else changed that is known. -/
structure Recorded (e : Entry) (op : Operation) (d d' : Dir) : Prop where
  durable : d'.since = []
  known : ∀ id, d'.now.known id = if id = e.operationId then some (e.longer op) else d.now.known id

/-- Room for an operation: it is there, or there is a place for it, or one that has ended can make way. -/
structure Files.Room (f : Files) (id : Hex 32) : Prop where
  revision : f.snapshot.elim 0 Snapshot.revision + 2 < 2 ^ 64
  place : (f.known id).isSome ∨ f.active.length < maxOperations ∨
    f.rows.length < maxArchivedOperations ∧ ∃ op ∈ f.active, ∃ phase ∈ op.lastPhase, phase ∈ terminal

section
variable {e : Entry}

theorem Entry.Continues.rowValid (h : e.Continues op) :
    ∃ first i previous last, (e.longer op).RowValid first i previous last (e.row op) := by
  obtain ⟨-, first, -, hrows⟩ := h.valid
  obtain ⟨j, previous, last, -, hvalid⟩ := hrows.mem (mem_concat.2 (Or.inr rfl))
  exact ⟨first, j, previous, last, hvalid⟩

theorem Entry.Continues.recordBody_eq (h : e.Continues op) :
    recordBody e.operationId op.approval e.phase e.facts e.atNs e.clockDomain (op.records.length + 1) (head op) =
      .ok (e.row op).body := by
  obtain ⟨-, -, -, -, ⟨-, -, hfacts, hat, -, -⟩, -⟩ := h.rowValid
  exact if_pos ⟨hfacts, hat⟩

/-- A new operation begins with a beginning. -/
theorem Entry.Continues.beginning (h : e.Continues op) (hnew : op.records = []) : e.phase ∈ beginnings := by
  obtain ⟨-, first, -, hrows⟩ := h.valid
  have hrecords : (e.longer op).records = [e.row op] := by rw [Entry.longer, hnew]; rfl
  have hphases : (e.longer op).phaseList = [e.phase] := by rw [Operation.phaseList, hrecords]; rfl
  rw [hrecords] at hrows
  obtain ⟨-, -, -, -, hexit, hpath, -, -⟩ := hrows.1
  rw [hphases] at hpath
  have hnotExit : e.phase ∉ exits := fun hmem => Nat.lt_irrefl _ (hexit hmem).1
  have hfirst : (path [e.phase])[0]? = some e.phase := hpath hnotExit
  revert hnotExit hfirst
  cases e.phase <;> decide

/-- What is archived does not continue. -/
theorem Entry.Continues.unknown (h : e.Continues op) (hd : d.Sound)
    (hop : op = (d.now.known e.operationId).getD ⟨e.operationId, op.approval, []⟩)
    (hactive : ∀ o ∈ d.now.active, o.operationId ≠ e.operationId) : d.now.known e.operationId = none := by
  have hrow := Files.Sound.known_of_not_active hactive
  cases hk : rowOf d.now.rows e.operationId with
  | none => rw [hrow, hk, Option.bind_none]
  | some r =>
    obtain ⟨hr, hid⟩ := lookup_eq_some hk
    obtain ⟨o, ho, -, -, hlast⟩ := hd.now.stored r hr
    rw [hrow, hk, Option.bind_some, ← hid, ho, Option.getD_some] at hop
    subst hop
    exact absurd (terminal_ended (hd.now.rows_terminal hr)) (h.valid.running rfl _ (Operation.row_eq_some hlast).2)

omit [Sha256] in
/-- A snapshot that an operation is added to. -/
theorem length_withOperation {s : Snapshot} (h : (∃ o ∈ s.operations, o.operationId = op.operationId) ∧
    s.operations.length ≤ maxOperations ∨ s.operations.length < maxOperations) :
    (s.withOperation op).operations.length ≤ maxOperations := by
  rw [Snapshot.withOperation]
  by_cases hold : ∃ o ∈ s.operations, o.operationId = op.operationId
  · rw [upsert, if_pos hold, amend, List.length_map]
    rcases h with ⟨-, hle⟩ | hlt
    · exact hle
    · exact hlt.le
  · rw [upsert, if_neg hold, List.length_append]
    exact h.resolve_left fun hin => hold hin.1

theorem Snapshot.Valid.withOperation {s : Snapshot} (h : s.Valid) (hop : op.Valid) (hrevision : s.revision + 1 < 2 ^ 64)
    (hroom : (∃ o ∈ s.operations, o.operationId = op.operationId) ∨ s.operations.length < maxOperations) :
    (s.withOperation op).Valid := by
  obtain ⟨-, harchive, hlen, hnodup, hops⟩ := h
  refine ⟨hrevision, harchive, length_withOperation (hroom.imp_left fun hin => ⟨hin, hlen⟩), nodup_keys_upsert hnodup,
    fun o ho => ?_⟩
  rcases mem_upsert.1 ho with ⟨ho, -⟩ | rfl
  · exact hops o ho
  · exact hop

theorem valid_empty : Snapshot.empty.Valid := ⟨by decide, by simp [Snapshot.empty], Nat.zero_le _, List.nodup_nil,
  fun o ho => absurd ho List.not_mem_nil⟩

variable {post : Receipt → Dir → Prop}

theorem ends_extend (hdisk : answer .disk = true) (hd : d.Sound) (h : e.Continues op)
    (hfound : op ∈ d.now.active ∨ d.now.known e.operationId = none)
    (hrevision : d.now.snapshot.elim 0 Snapshot.revision + 1 < 2 ^ 64)
    (hroom : op ∈ d.now.active ∨ d.now.active.length < maxOperations)
    (hrecorded : ∀ d', d'.Sound → Recorded e op d d' →
      d'.now.snapshot.elim 0 Snapshot.revision = d.now.snapshot.elim 0 Snapshot.revision + 1 → post ⟨false, e.row op⟩ d') :
    (extend op.approval e d.now.snapshot op).Ends answer post d := by
  have hid := h.operationId
  have hold : (d.now.snapshot.getD .empty).Valid := by
    cases hs : d.now.snapshot with
    | none => exact valid_empty
    | some s => exact hd.now.snapshot s hs
  have hactive : (d.now.snapshot.getD .empty).operations = d.now.active := by
    rw [Files.active]
    cases d.now.snapshot <;> rfl
  have hrevision' : (d.now.snapshot.getD .empty).revision + 1 < 2 ^ 64 := by
    cases hs : d.now.snapshot with
    | none => decide
    | some s => rw [hs] at hrevision; exact hrevision
  have hnext : ((d.now.snapshot.getD .empty).withOperation (e.longer op)).Valid := by
    refine hold.withOperation h.valid hrevision' ?_
    rw [hactive]
    exact hroom.imp_left fun hop => ⟨op, hop, rfl⟩
  have hfree : d.now.archived op.operationId = none ∧ ∀ r ∈ d.now.rows, r.operationId ≠ op.operationId := by
    rcases hfound with hop | hnone
    · exact hd.now.not_archived hop (h.valid.running rfl)
    · rw [hid]
      exact (hd.now.unknown hnone).2
  have hwritten := @Files.Sound.withOperation _ d.now (e.longer op) hd.now hfree.1 hfree.2 _ rfl hnext
  unfold extend
  refine ends_require rfl ?_
  rw [h.fresh]
  refine ends_require h.parent (ends_lift h.recordBody_eq (ends_require h.valid (ends_require hnext
    (ends_require hnext.fits (ends_reading hdisk hd.now.read_eq (ends_require rfl (ends_atomicWrite hdisk
    (ends_pure (hrecorded _ (sound_synced hwritten.1) ⟨rfl, fun id => hid ▸ hwritten.2 id⟩ ?_)))))))))
  show (d.now.snapshot.getD .empty).revision + 1 = _
  cases d.now.snapshot <;> rfl

theorem ends_append (hdisk : answer .disk = true) (hd : d.Sound)
    (hop : op = (d.now.known e.operationId).getD ⟨e.operationId, op.approval, []⟩) (hcontinues : e.Continues op)
    (hroom : d.now.Room e.operationId) (hrecorded : ∀ d', d'.Sound → Recorded e op d d' →
      d'.now.snapshot.elim 0 Snapshot.revision ≤ d.now.snapshot.elim 0 Snapshot.revision + 2 → post ⟨false, e.row op⟩ d') :
    (append op.approval e).Ends answer post d := by
  have hrevision := hroom.revision
  unfold append
  refine ends_reading hdisk hd.now.read_eq ?_
  cases hlookup : operationOf (d.now.snapshot.elim [] Snapshot.operations) e.operationId with
  | some o =>
    obtain ⟨hactive, hid⟩ := lookup_eq_some hlookup
    have hknown : d.now.known e.operationId = some o := hid ▸ hd.now.known_of_active hactive
    obtain rfl : op = o := by rw [hop, hknown, Option.getD_some]
    exact ends_extend hdisk hd hcontinues (Or.inl hactive) (by omega) (Or.inl hactive)
      fun d' hd' h' hrev => hrecorded d' hd' h' (by omega)
  | none =>
    have hnone := hcontinues.unknown hd hop (lookup_eq_none.1 hlookup)
    obtain ⟨opId, approval, records⟩ := op
    rw [hnone, Option.getD_none] at hop
    obtain ⟨rfl, -, rfl⟩ := Operation.mk.inj hop
    refine ends_require ⟨hcontinues.beginning rfl, hcontinues.parent.symm⟩ (ends_lift hcontinues.recordBody_eq
      (ends_reading hdisk (hd.now.find_eq _) (ends_require hnone ?_)))
    -- the record of an operation that is not there yet
    have hnew : ∀ d₁ : Dir, d₁.Sound → (∀ id, d₁.now.known id = d.now.known id) →
        d₁.now.snapshot.elim 0 Snapshot.revision ≤ d.now.snapshot.elim 0 Snapshot.revision + 1 →
        d₁.now.active.length < maxOperations →
        (extend approval e d₁.now.snapshot ⟨e.operationId, approval, []⟩).Ends answer post d₁ := by
      intro d₁ hd₁ hknown₁ hrevision₁ hlt₁
      refine ends_extend hdisk hd₁ hcontinues (Or.inr ((hknown₁ _).trans hnone)) (by omega) (Or.inr hlt₁)
        fun d' hd' h' hrev => hrecorded d' hd' ⟨h'.durable, fun id => ?_⟩ (by omega)
      rw [h'.known id, hknown₁ id]
    cases hs : d.now.snapshot with
    | none =>
      have hempty : d.now.active = [] := by rw [Files.active, hs]; rfl
      have hrecorded := hnew d hd (fun _ => rfl) (Nat.le_succ _) (by rw [hempty]; decide)
      rw [hs] at hrecorded
      exact hrecorded
    | some s =>
      have hactive : d.now.active = s.operations := Files.Sound.mem_operations hs
      have hrev : s.revision + 2 < 2 ^ 64 := by
        rw [hs] at hrevision
        exact hrevision
      by_cases hfull : maxOperations ≤ s.operations.length
      · simp only [if_pos hfull]
        have hmake : d.now.rows.length < maxArchivedOperations ∧
            ∃ op ∈ s.operations, ∃ phase ∈ op.lastPhase, phase ∈ terminal := by
          rw [← hactive] at hfull ⊢
          rcases hroom.place with hsome | hlt | hended
          · rw [hnone] at hsome
            cases hsome
          · exact absurd hfull (Nat.not_le.2 hlt)
          · exact hended
        refine ends_retireOne hdisk hd hs hmake.2 hmake.1 (by omega) fun d₁ s₁ hd₁ hs₁ hknown₁ hrevision₁ hlen₁ => ?_
        have hlen := (hd.now.snapshot s hs).2.2.1
        have hlt₁ : s₁.operations.length < maxOperations := by omega
        have hactive₁ : d₁.now.active = s₁.operations := Files.Sound.mem_operations hs₁
        have hretired := hnew d₁ hd₁ hknown₁ (by rw [hs₁, hs]; exact hrevision₁.le) (by rw [hactive₁]; exact hlt₁)
        rw [hs₁] at hretired
        exact ends_require hlt₁ hretired
      · simp only [if_neg hfull]
        have hrecorded := hnew d hd (fun _ => rfl) (Nat.le_succ _) (by rw [hactive]; exact Nat.not_le.1 hfull)
        rw [hs] at hrecorded
        exact hrecorded

end
end
end SmartHome.Maintenance
