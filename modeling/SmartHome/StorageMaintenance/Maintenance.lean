/-
  Execution and restoration of a cache quarantine (`Maintenance` of `maintenance.py`).

  The plan is there already.  The gates look at other things than the files of the operation (the
  approval, the budget, the capacity of the quarantine, the resources of the host, leases), so they
  answer as they like; every file-system step may fail, and the process may die before any of them.
-/
import SmartHome.Lib.Program
import SmartHome.Mqtt.Counters
import SmartHome.StorageMaintenance.Disk

namespace SmartHome.StorageMaintenance

open Verif Program
open SmartHome.Mqtt (isHex)

/-! ## The outside -/

inductive Gate where
  | authorize | budget | capacity | resources | directory | lease | unlease | device
  | restoreAuthorize | owner
  deriving DecidableEq

inductive Request where
  /-- Whether the next file-system step raises. -/
  | fault
  | gate (g : Gate)
  | clock
  /-- The time that a change of an inode gets. -/
  | stamp
  /-- The files that are open elsewhere. -/
  | probe
  /-- The number of links of a file. -/
  | links
  /-- What the compressor writes for a chunk, and at the end. -/
  | compress (chunk : Option Bytes)
  /-- The key of a new file. -/
  | newKey

abbrev Reply : Request → Type
  | .fault => Bool
  | .gate _ => Except String Unit
  | .clock => ℚ
  | .stamp => ℤ
  | .probe => Except String (List Key)
  | .links => ℕ
  | .compress _ => Bytes
  | .newKey => Key

abbrev Prog := Program Disk Reply

/-- A file-system step that may raise. -/
def fs (f : FileStep) : Prog Unit := do
  let fault : Bool ← ask Request.fault
  require (fault = false) "OSError"
  commit fun s => do
    let s ← f s
    return (s, ())

def gate (g : Gate) : Prog Unit := do
  let reply : Except String Unit ← ask (Request.gate g)
  lift reply

/-- A step that cannot fail. -/
def update (f : Disk → Disk) : Prog Unit := commit fun s => return (f s, ())

/-- `save` -/
def save (op : String) (r : Record) (report : Report) : Prog Unit := do
  fs (createRecord op r)
  fs (fillRecord op r report)

/-- `save` of the receipt that a phase begins with. -/
def saveIntent (op : String) (phase : Phase) (report : Report) : Prog Unit := do
  fs (createIntent op phase)
  fs (fillRecord op phase.intent report)

/-! ## Status -/

structure Answer where
  /-- The receipt, or nothing for the view of the plan. -/
  report : Option Report
  duplicate : Bool
  deriving DecidableEq

/-- `read_json` -/
def readDoc {α : Type} : Doc α → Except String α
  | .torn => .error "JSONDecodeError"
  | .whole a => .ok a

/-- `status` -/
def status (op : String) : Prog Answer := do
  let s ← get
  match (s.record op .restoreResult).or ((s.record op .restoreIntent).or
      ((s.record op .result).or (s.record op .intent))) with
  | none => return ⟨none, false⟩
  | some doc => do
    let report ← lift (readDoc doc)
    return ⟨some report, false⟩

/-! ## Execution -/

/-- `OWNER_UID` -/
def ownerUid : ℕ := 1001

/-- `CHUNK` -/
def chunkSize : ℕ := 65536

/-- `MAX_FILES` -/
def maxFiles : ℕ := 32

/-- `MAX_BYTES` -/
@[irreducible] def maxBytes : ℕ := 16 * 1024 ^ 2

/-- The chunks are written to the archive while they do not exceed the limit; the bytes that were
    read are counted. -/
def compress (op id : String) (limit : ℕ) : List Bytes → ℕ → Prog ℕ
  | [], count => return count
  | chunk :: chunks, count => do
    require (count + chunk.length ≤ limit) "candidate_grew"
    let bytes : Bytes ← ask (Request.compress (some chunk))
    fs (appendArchive op id bytes)
    compress op id limit chunks (count + chunk.length)

section
variable (decompress : Bytes → Option Bytes)

/-- A staged file is compressed, the archive verified and sealed, and the file unlinked. -/
def retain (op : String) (row : Item) (source : Bytes) : Prog Unit := do
  fs (createArchive op row.id)
  let count ← compress op row.id row.identity.bytes (source.toChunks chunkSize) 0
  let trailer : Bytes ← ask (Request.compress none)
  fs (appendArchive op row.id trailer)
  require (count = row.identity.bytes) "candidate_truncated"
  let s ← get
  let packed ← lift (orFail "FileNotFoundError" (s.archive op row.id))
  let recovered ← lift (orFail "BadGzipFile" (decompress packed))
  require (recovered.length ≤ count) "quarantine_expansion_limit"
  require (recovered.length = count ∧ recovered = source) "recovery_verification_failed"
  fs (createSeal op row.id)
  fs (fillSeal op row.id ⟨row.id, source, count, true⟩)
  fs (acting op .execute (unlinkOriginal op row.id))

/-- What is done under the lease. -/
def leased (op scope : String) (row : Item) : Prog Unit := do
  gate .lease
  let s ← get
  let source ← lift (orFail "OSError" s.opened)
  require (source.identity = row.identity) "leased_candidate_changed"
  gate .device
  let now : ℤ ← ask Request.stamp
  fs (acting op .execute (renameIn op scope row now))
  let s ← get
  let moved ← lift (orFail "FileNotFoundError" (s.original op row.id))
  let links : ℕ ← ask Request.links
  require (moved.kind = .regular ∧ links = 1 ∧ moved.identity.lasting = row.identity.lasting)
    "candidate_replaced_during_quarantine"
  retain decompress op row source.content
  gate .unlease

/-- `quarantine_one` -/
def quarantineOne (op scope : String) (row : Item) : Prog Unit := do
  fs (openFile scope row.name)
  let outcome ← attempt (leased decompress op scope row)
  update closeFile
  lift outcome

/-- A row of the plan is checked again and quarantined. -/
def quarantineRow (op scope : String) (pattern : String → Bool) (opened : List Key) (row : Item) :
    Prog Unit := do
  require (pattern row.name = true) "protected_target"
  let s ← get
  let f ← lift (orFail "FileNotFoundError" (s.entry (scope, row.name)))
  let links : ℕ ← ask Request.links
  require (f.identity = row.identity ∧ f.kind = .regular ∧ links = 1 ∧ f.uid = ownerUid ∧
    f.key ∉ opened) "candidate_changed_or_in_use"
  quarantineOne decompress op scope row

/-- The rows in turn up to the first failure: the items that are done, and the failure. -/
def quarantineAll (op scope : String) (pattern : String → Bool) (opened : List Key) :
    List Item → List String → Prog (List String × Option String)
  | [], finished => return (finished, none)
  | row :: rows, finished => do
    let outcome ← attempt (quarantineRow decompress op scope pattern opened row)
    match outcome with
    | .ok _ => quarantineAll op scope pattern opened rows (finished ++ [row.id])
    | .error e => return (finished, some e)

/-- The receipt of an execution. -/
def conclude (op : String) (report : Report) : Prog Answer := do
  save op .result report
  return ⟨some report, false⟩

/-- What `execute` does when its intent is saved. -/
def executeRows (op scope : String) (pattern : String → Bool) (opened : List Key) (plan : Plan) :
    Prog Answer := do
  let outcome ← quarantineAll decompress op scope pattern opened plan.items []
  match outcome.2 with
  | some e => conclude op (.outcomeUnknown outcome.1 e)
  | none => do
    let after ← attempt (gate .resources)
    match after with
    | .ok _ => conclude op (.quarantined outcome.1)
    | .error e => conclude op (.outcomeUnknown outcome.1 e)

/-- `execute`, where the operation has no intent yet. -/
def executeNew (op scope : String) (pattern : String → Bool) (plan : Plan) : Prog Answer := do
  let now : ℚ ← ask Request.clock
  require (plan.scope = scope ∧ now ≤ plan.expires) "plan_expired_or_changed"
  require (plan.items.length ≤ maxFiles ∧ (plan.items.map fun r => r.identity.bytes).sum ≤ maxBytes)
    "plan_limits_changed"
  if plan.items = [] then return ⟨some .noEligibleItems, false⟩
  else do
    gate .budget
    gate .capacity
    gate .resources
    let reply : Except String (List Key) ← ask Request.probe
    let opened ← lift reply
    gate .directory
    fs (makePayload op)
    saveIntent op .execute .executionIntent
    executeRows decompress op scope pattern opened plan

variable (patterns : String → Option (String → Bool))

/-- `execute` -/
def execute (scope op : String) : Prog Answer := do
  let pattern ← lift (orFail "scope_protected_or_unknown" (patterns scope))
  require (isHex 32 op = true) "invalid_operation_id"
  update enter
  gate .authorize
  let s ← get
  if (s.record op .intent).isSome = true then do
    let answer ← status op
    return { answer with duplicate := true }
  else do
    let d ← lift (orFail "FileNotFoundError" (s.dirs op))
    executeNew decompress op scope pattern d.plan

/-! ## Restoration -/

/-- `Path.exists` -/
def File.exists (f : File) : Prop := f.kind ≠ .symlink true

instance (f : File) : Decidable f.exists := by unfold File.exists; infer_instance

/-- A staged file is linked back. -/
def restoreOriginal (op scope : String) (row : Item) (staged : File) : Prog Unit := do
  let links : ℕ ← ask Request.links
  require (staged.kind = .regular ∧ links = 1 ∧ staged.key = ⟨row.identity.device, row.identity.inode⟩ ∧
    staged.content.length = row.identity.bytes) "original_quarantine_changed"
  fs (acting op .restore (linkOriginal op scope row))
  fs (acting op .restore (unlinkOriginal op row.id))

/-- The chunks are written to a new file. -/
def expand (key : Key) (limit : ℕ) : List Bytes → ℕ → Prog ℕ
  | [], count => return count
  | chunk :: chunks, count => do
    require (count + chunk.length ≤ limit) "recovery_expansion_limit"
    fs (changeFile key fun f => { f with content := f.content ++ chunk })
    expand key limit chunks (count + chunk.length)

/-- A file is restored from its sealed archive. -/
def restoreArchive (op scope : String) (row : Item) : Prog Unit := do
  let s ← get
  let doc ← lift (orFail "FileNotFoundError" (s.sealOf op row.id))
  let v ← lift (readDoc doc)
  require (v.recoveryVerified = true ∧ v.bytes = row.identity.bytes) "recovery_seal_unconfirmed"
  let key : Key ← ask Request.newKey
  let now : ℤ ← ask Request.stamp
  fs (acting op .restore (createTemp scope row key now))
  let packed ← lift (orFail "FileNotFoundError" (s.archive op row.id))
  let data ← lift (orFail "BadGzipFile" (decompress packed))
  let count ← expand key v.bytes (data.toChunks chunkSize) 0
  require (count = v.bytes ∧ data = v.source) "recovery_integrity_failed"
  gate .owner
  fs (changeFile key fun f =>
    { f with uid := row.identity.uid, gid := row.identity.gid, mode := row.identity.mode })
  fs (acting op .restore (linkTemp scope row))
  fs (acting op .restore (unlinkTemp scope row))

/-- A row is restored from what there is of it. -/
def restoreRow (op scope : String) (row : Item) : Prog Unit := do
  let s ← get
  match (s.original op row.id).filter fun f => f.exists with
  | some staged => restoreOriginal op scope row staged
  | none => restoreArchive decompress op scope row

/-- The rows in turn up to the first failure. -/
def restoreAll (op scope : String) : List Item → List String → Prog (List String × Option String)
  | [], finished => return (finished, none)
  | row :: rows, finished => do
    let outcome ← attempt (restoreRow decompress op scope row)
    match outcome with
    | .ok _ => restoreAll op scope rows (finished ++ [row.id])
    | .error e => return (finished, some e)

/-- No target may exist. -/
def checkTargets (scope : String) (pattern : String → Bool) : List Item → Prog Unit
  | [] => return ()
  | row :: rows => do
    require (pattern row.name = true) "protected_restore_target"
    let s ← get
    require ((s.entry (scope, row.name)).isNone = true) "restore_target_exists_no_overwrite"
    checkTargets scope pattern rows

/-- The targets are checked, the intent is saved, and the rows are restored. -/
def restoreRows (op scope : String) (pattern : String → Bool) (rows : List Item) :
    Prog (List String × Option String) := do
  let begun ← attempt do
    checkTargets scope pattern rows
    saveIntent op .restore .restoreIntent
  match begun with
  | .ok _ => restoreAll decompress op scope rows []
  | .error e => return ([], some e)

def restoreReport (outcome : List String × Option String) : Report :=
  match outcome.2 with
  | none => .restored outcome.1
  | some e => .restoreUnconfirmed outcome.1 e

/-- The receipt of a restoration, which is saved if the intent was. -/
def restoreEnd (op : String) (report : Report) : Prog Answer := do
  let s ← get
  if (s.record op .restoreIntent).isSome = true then do
    save op .restoreResult report
    return ⟨some report, false⟩
  else return ⟨some report, false⟩

/-- The rows that have something staged or sealed. -/
def restorable (op : String) (plan : Plan) (s : Disk) : List Item :=
  plan.items.filter fun row => ((s.original op row.id).filter fun f => f.exists).isSome ||
    (s.sealOf op row.id).isSome

/-- `restore` -/
def restore (scope op : String) : Prog Answer := do
  let pattern ← lift (orFail "scope_protected_or_unknown" (patterns scope))
  require (isHex 32 op = true) "invalid_operation_id"
  update enter
  gate .restoreAuthorize
  let s ← get
  if (s.record op .restoreIntent).isSome = true then do
    let answer ← status op
    return { answer with duplicate := true }
  else do
    let d ← lift (orFail "FileNotFoundError" (s.dirs op))
    require (d.plan.scope = scope ∧ (s.record op .intent).isSome = true) "no_quarantine_intent"
    gate .resources
    gate .directory
    let outcome ← restoreRows decompress op scope pattern (restorable op d.plan s)
    restoreEnd op (restoreReport outcome)

end

end SmartHome.StorageMaintenance
