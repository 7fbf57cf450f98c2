/-
  The maintenance journal (`maintenance_journal.py`) and its archive (`maintenance_archive.py`), in a
  directory that only one process uses at a time.

  A file is replaced by a rename, which a loss of power may undo until the directory is synced.
-/
import SmartHome.Lib.JsonBytes
import SmartHome.Lib.Program
import SmartHome.Lib.Table
import SmartHome.Maintenance.Records
import Mathlib.Logic.Function.Basic

namespace SmartHome.Maintenance

open Verif Program Mqtt

/-! ## Files -/

/-- `MAX_OPERATIONS` -/
def maxOperations : ℕ := 16

/-- `MAX_ARCHIVED_OPERATIONS` -/
def maxArchivedOperations : ℕ := 4096

/-- `MAX_OPERATION_BYTES` -/
def maxOperationBytes : ℕ := 65536

/-- The largest file of the journal. -/
def maxBytes : ℕ := 1048576

/-- `TERMINAL` -/
def terminal : List Phase := [.complete, .cancelled, .rescued, .frozenComplete]

/-- The bytes of a file. -/
@[irreducible] def fileBytes (j : Json) : ℕ := j.bytes

/-- What a snapshot knows of the archive. -/
structure Anchor where
  count : ℕ
  sha256 : Option (Hex 64)
  deriving DecidableEq

/-- `maintenance.json`; with an anchor from schema version 2 on. -/
structure Snapshot where
  revision : ℕ
  operations : List Operation
  archive : Option Anchor
  deriving DecidableEq

def Snapshot.json (s : Snapshot) : Json :=
  .obj (s.archive.elim [] (fun a => [("archive_sha256", a.sha256.elim .null fun h => .str h.1),
      ("archived_operations", num a.count)]) ++
    [("operations", .arr (s.operations.map Operation.json)), ("revision", num s.revision),
      ("schema_version", .int (if s.archive.isNone then 1 else 2))])

/-- The journal before its first record. -/
def Snapshot.empty : Snapshot := ⟨0, [], none⟩

/-- The snapshot with a new or longer operation. -/
def Snapshot.withOperation (s : Snapshot) (op : Operation) : Snapshot := { s with
  revision := s.revision + 1
  operations := upsert Operation.operationId op s.operations }

structure IndexRow where
  operationId : Hex 32
  operationSha256 : Hex 64
  terminalSha256 : Hex 64
  phase : Phase
  deriving DecidableEq

def IndexRow.json (r : IndexRow) : Json :=
  .obj [("operation_id", .str r.operationId.1), ("operation_sha256", .str r.operationSha256.1),
    ("phase", .str r.phase.name), ("terminal_sha256", .str r.terminalSha256.1)]

/-- `maintenance-archive.json` -/
structure Index where
  revision : ℕ
  operations : List IndexRow
  deriving DecidableEq

def Index.json (ix : Index) : Json :=
  .obj [("operations", .arr (ix.operations.map IndexRow.json)), ("revision", num ix.revision), ("schema_version", .int 1)]

/-- The snapshot, the index and the operations of the archive. -/
structure Files where
  snapshot : Option Snapshot
  index : Option Index
  archived : Hex 32 → Option Operation

namespace Files
variable (f : Files)

/-- The active operations. -/
def active : List Operation := f.snapshot.elim [] Snapshot.operations

/-- The rows of the index. -/
def rows : List IndexRow := f.index.elim [] Index.operations

def withSnapshot (s : Snapshot) : Files := { f with snapshot := some s }

def withIndex (ix : Index) : Files := { f with index := some ix }

def withArchived (op : Operation) : Files :=
  { f with archived := Function.update f.archived op.operationId (some op) }

end Files

/-- The row of the archive index with an identity. -/
def rowOf (rows : List IndexRow) (id : Hex 32) : Option IndexRow := lookup IndexRow.operationId id rows

/-- The operation with an identity. -/
def operationOf (ops : List Operation) (id : Hex 32) : Option Operation := lookup Operation.operationId id ops

section
variable [Sha256]

/-- An object with its digest. -/
def sealed (body : Json) : Json := .obj [("body", body), ("sha256", .str (digest body).1)]

/-- `validate_snapshot` -/
def Snapshot.Valid (s : Snapshot) : Prop :=
  s.revision < 2 ^ 64 ∧ (∀ a ∈ s.archive, a.count < 2 ^ 64 ∧ (a.count = 0 ↔ a.sha256 = none)) ∧
    s.operations.length ≤ maxOperations ∧ (s.operations.map Operation.operationId).Nodup ∧
    ∀ op ∈ s.operations, op.Valid

instance (s : Snapshot) : Decidable s.Valid := inferInstanceAs (Decidable (_ ∧ (∀ a ∈ s.archive, _) ∧ _))

/-- What `index` asks of the index. -/
def Index.Valid (ix : Index) : Prop :=
  ix.operations.length ≤ maxArchivedOperations ∧ ix.revision < 2 ^ 64 ∧ ix.revision = ix.operations.length ∧
    (ix.operations.map IndexRow.operationId).Nodup ∧ ∀ r ∈ ix.operations, r.phase ∈ terminal

instance (ix : Index) : Decidable ix.Valid := inferInstanceAs (Decidable (_ ∧ _))

/-- The file of an archived operation. -/
def Operation.file (op : Operation) : Json :=
  .obj [("operation", op.json), ("schema_version", .int 1), ("sha256", .str (digest op.json).1)]

/-- What an index row says of an operation. -/
def Operation.row (op : Operation) : Option IndexRow :=
  op.records.getLast?.map fun last => ⟨op.operationId, digest op.json, last.sha256, last.body.phase⟩

/-- The anchor says what the first rows of the index are. -/
def Anchor.Fits (a : Anchor) (rows : List IndexRow) : Prop :=
  a.count ≤ rows.length ∧ (a.count = 0 → a.sha256 = none) ∧
    (a.count ≠ 0 → some (digest (Index.mk a.count (rows.take a.count)).json) = a.sha256)

instance (a : Anchor) (rows : List IndexRow) : Decidable (a.Fits rows) := inferInstanceAs (Decidable (_ ∧ _))

/-! ## Reading -/

namespace Files
variable (f : Files)

/-- `Journal._read` -/
def read : Except String (Option Snapshot) :=
  match f.snapshot with
  | none => .ok none
  | some s => if s.Valid then .ok (some s) else .error "maintenance_snapshot_invalid"

/-- `Archive.index` -/
def indexed : Except String (Option Index) :=
  match f.index with
  | none => .ok none
  | some ix => if ix.Valid then .ok (some ix) else .error "maintenance_archive_invalid"

/-- `Archive.load` -/
def load (r : IndexRow) : Except String Operation :=
  match f.archived r.operationId with
  | none => .error "maintenance_archive_invalid"
  | some op =>
    if op.Valid ∧ fileBytes op.file ≤ maxOperationBytes ∧ op.row = some r then .ok op
    else .error "maintenance_archive_invalid"

/-- `Archive.find` -/
def findArchived (id : Hex 32) : Except String (Option Operation) := do
  let index ← f.indexed
  match rowOf (index.elim [] Index.operations) id with
  | none => return none
  | some r => return some (← f.load r)

/-- The rows that no snapshot counts yet, in `Archive.checked`. -/
def tailChecked (active : List Operation) : List IndexRow → Except String Unit
  | [] => return
  | r :: rows => do
    match operationOf active r.operationId with
    | none => throw "maintenance_archive_anchor_changed"
    | some op =>
      if op.row = some r then
        if (← f.findArchived r.operationId) = some op then tailChecked active rows
        else throw "maintenance_archive_invalid"
      else throw "maintenance_archive_anchor_changed"

/-- `Archive.checked` -/
def checked (snapshot : Option Snapshot) : Except String (Option Index) := do
  let index ← f.indexed
  let anchor := (snapshot.bind Snapshot.archive).getD ⟨0, none⟩
  if anchor.Fits (index.elim [] Index.operations) then do
    f.tailChecked (snapshot.elim [] Snapshot.operations) ((index.elim [] Index.operations).drop anchor.count)
    return index
  else throw "maintenance_archive_anchor_changed"

/-- `Journal.find` -/
def find (id : Hex 32) : Except String (Option Operation) := do
  let value ← f.read
  match operationOf (value.elim [] Snapshot.operations) id with
  | some op => return some op
  | none => do
    let _ ← f.checked value
    f.findArchived id

end Files

end

/-! ## The directory and the outside -/

/-- The files, and what they were after each rename since the directory was synced. -/
structure Dir where
  now : Files
  since : List Files

namespace Dir
variable (d : Dir)

/-- What a loss of power may leave. -/
def all : List Files := d.now :: d.since

def rename (f : Files → Files) : Dir := ⟨f d.now, d.all⟩

def sync : Dir := ⟨d.now, []⟩

@[simp] theorem rename_now (f : Files → Files) : (d.rename f).now = f d.now := rfl
@[simp] theorem sync_now : d.sync.now = d.now := rfl
@[simp] theorem sync_since : d.sync.since = [] := rfl

end Dir

/-- `COMMANDS` -/
inductive Command where
  | stopSource | stopConsumer | startConsumer | startSource
  deriving DecidableEq, Repr

inductive Purpose where
  | backupSnapshot | containerUpdate | integrationUpdate
  deriving DecidableEq, Repr

/-- What a process asks of the disk and of the backend. -/
inductive Request where
  | disk
  | clock
  | authorize (op : Option Operation) (mutation : Bool)
  | facts (phase : Phase) (op : Option Operation) (purpose : Option Purpose)
  | preflight (command : Command) (op : Operation)
  | execute (command : Command) (intent : Row)

/-- Facts, `ObservationUnavailable` or another exception. -/
inductive Observation where
  | value (facts : Facts)
  | unavailable
  | raised

/-- An effect, `BoundaryRejected` or another exception. -/
inductive Execution where
  | done | rejected | raised

/-- The disk succeeds, the clock says what time it is, and so on, or they raise. -/
abbrev Reply : Request → Type
  | .disk => Bool
  | .clock => Option (ℕ × Hex 64)
  | .authorize _ _ => Bool
  | .facts _ _ _ => Observation
  | .preflight _ _ => Observation
  | .execute _ _ => Execution

abbrev Prog (α : Type) := Program Dir Reply α

/-- An operation on the disk that may raise. -/
def fallible : Prog Unit := ask (ρ := Reply) Request.disk >>= fun succeeds => require (succeeds = true) "os_error"

/-- Reads of the files, which may raise or refuse. -/
def reading {α : Type} (read : Files → Except String α) : Prog α := do
  fallible
  let d ← get
  lift (read d.now)

/-- `_atomic` -/
def atomicWrite (write : Files → Files) : Prog Unit := do
  fallible
  .atomic (·.rename write) fun _ => do
    fallible
    .atomic Dir.sync fun _ => return

/-! ## Writing -/

section
variable [Sha256]

/-- The file of an operation, where `preserve` finds none. -/
def storeFile (op : Operation) : Prog Unit := do
  match ← reading fun f => .ok (f.archived op.operationId) with
  | some orphan => require (orphan = op) "maintenance_archive_conflict"
  | none => atomicWrite (·.withArchived op)

/-- `Archive.preserve` -/
def preserve (op : Operation) : Prog Unit := do
  require op.Valid "maintenance_record_invalid"
  require (∃ phase ∈ op.lastPhase, phase ∈ terminal) "maintenance_archive_unresolved"
  let old ← reading Files.indexed
  match ← reading fun f => f.findArchived op.operationId with
  | some existing => require (existing = op) "maintenance_archive_conflict"
  | none =>
    require ((old.elim [] Index.operations).length < maxArchivedOperations) "maintenance_archive_capacity_reached"
    require (fileBytes op.file ≤ maxOperationBytes) "maintenance_archive_capacity_reached"
    storeFile op
    let now ← reading Files.indexed
    require (now = old) "maintenance_archive_concurrent_change"
    let ix : Index := ⟨old.elim 0 Index.revision + 1, old.elim [] Index.operations ++ op.row.toList⟩
    require (fileBytes (sealed ix.json) ≤ maxBytes) "maintenance_archive_capacity_reached"
    atomicWrite (·.withIndex ix)
    let found ← reading fun f => f.findArchived op.operationId
    require (found = some op) "maintenance_archive_invalid"

/-- `Journal._retire_one` -/
def retireOne (old : Snapshot) : Prog (Option Snapshot) := do
  match old.operations.find? fun op => decide (∃ phase ∈ op.lastPhase, phase ∈ terminal) with
  | none => fail "maintenance_capacity_reached"
  | some op =>
    let _ ← reading fun f => f.checked (some old)
    preserve op
    match ← reading Files.indexed with
    | none => fail "maintenance_archive_invalid"
    | some ix =>
      let s : Snapshot := {
        revision := old.revision + 1
        operations := old.operations.erase op
        archive := some ⟨ix.operations.length, some (digest ix.json)⟩ }
      require s.Valid "maintenance_record_invalid"
      let now ← reading Files.read
      require (now = some old) "maintenance_concurrent_change"
      atomicWrite (·.withSnapshot s)
      reading Files.read

/-- A record to append. -/
structure Entry where
  operationId : Hex 32
  phase : Phase
  facts : Facts
  atNs : ℕ
  clockDomain : Hex 64
  expected : Option (Hex 64)

/-- What `append` returns. -/
structure Receipt where
  duplicate : Bool
  row : Row

/-- The end of `append`: a record of the operation that is found. -/
def extend (approval : Hex 64) (e : Entry) (old : Option Snapshot) (op : Operation) : Prog Receipt := do
  require (op.approval = approval) "maintenance_approval_changed"
  match op.record e.phase with
  | some existing =>
    let proposed ← lift (recordBody e.operationId approval e.phase e.facts e.atNs e.clockDomain
      existing.body.sequence existing.body.previous)
    require (proposed = existing.body) "maintenance_record_conflict"
    return ⟨true, existing⟩
  | none =>
    let parent := op.records.getLast?.map Row.sha256
    require (parent = e.expected) "maintenance_parent_changed"
    let body ← lift (recordBody e.operationId approval e.phase e.facts e.atNs e.clockDomain
      (op.records.length + 1) parent)
    let row : Row := ⟨body, digest body.json⟩
    let longer : Operation := { op with records := op.records ++ [row] }
    require longer.Valid "maintenance_record_invalid"
    let next := (old.getD .empty).withOperation longer
    require next.Valid "maintenance_record_invalid"
    require (fileBytes (sealed next.json) ≤ maxBytes) "maintenance_capacity_reached"
    let now ← reading Files.read
    require (now = old) "maintenance_concurrent_change"
    atomicWrite (·.withSnapshot next)
    return ⟨false, row⟩

/-- `Journal.append` -/
def append (approval : Hex 64) (e : Entry) : Prog Receipt := do
  let old ← reading Files.read
  match operationOf (old.elim [] Snapshot.operations) e.operationId with
  | some op => extend approval e old op
  | none =>
    require (e.phase ∈ beginnings ∧ e.expected = none) "maintenance_parent_changed"
    let _ ← lift (recordBody e.operationId approval e.phase e.facts e.atNs e.clockDomain 1 none)
    let known ← reading fun f => f.find e.operationId
    require (known = none) "maintenance_operation_archived"
    match old with
    | some s =>
      if maxOperations ≤ s.operations.length then do
        let retired ← retireOne s
        require ((retired.elim [] Snapshot.operations).length < maxOperations) "maintenance_capacity_reached"
        extend approval e retired ⟨e.operationId, approval, []⟩
      else extend approval e old ⟨e.operationId, approval, []⟩
    | none => extend approval e old ⟨e.operationId, approval, []⟩

end
end SmartHome.Maintenance
