/-
  The journal of Node-RED deploys (`Journal` of `engine.py`).

  An operation has a folder of at most four files, and a file is written once.  It is created
  empty, then filled, then synced; a process that dies in between leaves it so.  Reading a file
  that is not full stops the reader.  Constant members of the files are left out.
-/
import Mathlib.Algebra.Order.Field.Rat
import Mathlib.Data.NNRat.Defs
import SmartHome.Lib.Dict
import SmartHome.Lib.Program
import SmartHome.Lib.Table
import SmartHome.Mqtt.Counters

namespace SmartHome.NodeRedAdmin

open Verif Program
open SmartHome.Mqtt (isHex)

/-! ## The files -/

inductive Action where
  | apply | rollback
  deriving DecidableEq, Repr

/-- `plan.json` -/
structure Plan where
  operationId : String
  policySha256 : String
  action : Action
  parentOperationId : Option String
  createdAt : ℚ
  expiresAt : ℚ
  beforeRevision : String
  beforeSha256 : String
  afterSha256 : String
  beforeFlows : List Json
  afterFlows : List Json
  editsSha256 : String
  diff : List Json
  deletedLogically : List String
  retiredCreatedNodes : List String
  risk : Json
  deriving DecidableEq

/-- `validation.json` -/
structure Validation where
  planSha256 : String
  validatedAt : ℚ
  deriving DecidableEq

/-- `intent.json` -/
structure Intent where
  operationId : String
  planSha256 : String
  action : Action
  attemptedAt : ℚ
  expectedRevision : String
  deriving DecidableEq

inductive State where
  | uncertain | rejectedWithoutEffect | applied
  deriving DecidableEq, Repr

/-- `receipt.json` -/
structure Receipt where
  operationId : String
  planSha256 : String
  beforeSha256 : String
  afterSha256 : String
  action : Action
  state : State
  afterRevision : Option String
  collectionError : Option String
  guardBeforeSha256 : String
  guardAfterSha256 : Option String
  credentialsPreservationVerified : Bool
  contextPreservationVerified : Bool
  definitiveNoEffect : Bool
  loadedConfigurationVerified : Bool
  completedAt : ℚ
  deriving DecidableEq

/-- A file of a folder. -/
inductive File (α : Type) where
  | absent
  /-- Created, but not filled. -/
  | torn
  /-- Filled, but not synced. -/
  | written (value : α)
  | stored (value : α)
  deriving DecidableEq

namespace File
variable {α : Type}

/-- What a full file holds. -/
def value? : File α → Option α
  | absent | torn => none
  | written value | stored value => some value

/-- `_read`, where the file is there. -/
def read : File α → Except String (Option α)
  | absent => .ok none
  | torn => .error "journal_file_unreadable"
  | written value | stored value => .ok (some value)

/-- The bytes of the file. -/
def bytes [Canonical α] (file : File α) : Except String ℕ := do
  let value ← file.read
  return (value.map fun v => size v + 1).getD 0

end File

/-- The folder of an operation. -/
structure Folder where
  id : String
  plan : File Plan
  validation : File Validation
  intent : File Intent
  receipt : File Receipt
  deriving DecidableEq

/-- One of the files of a folder. -/
structure Slot (α : Type) where
  get : Folder → File α
  set : File α → Folder → Folder
  get_set : ∀ file f, get (set file f) = file
  set_set : ∀ file file' f, set file (set file' f) = set file f
  set_id : ∀ file f, (set file f).id = f.id

def planFile : Slot Plan where
  get := Folder.plan
  set file f := { f with plan := file }
  get_set _ _ := rfl
  set_set _ _ _ := rfl
  set_id _ _ := rfl

def validationFile : Slot Validation where
  get := Folder.validation
  set file f := { f with validation := file }
  get_set _ _ := rfl
  set_set _ _ _ := rfl
  set_id _ _ := rfl

def intentFile : Slot Intent where
  get := Folder.intent
  set file f := { f with intent := file }
  get_set _ _ := rfl
  set_set _ _ _ := rfl
  set_id _ _ := rfl

def receiptFile : Slot Receipt where
  get := Folder.receipt
  set file f := { f with receipt := file }
  get_set _ _ := rfl
  set_set _ _ _ := rfl
  set_id _ _ := rfl

/-! ## The outside -/

/-- A configuration of Node-RED. -/
structure Snapshot where
  rev : String
  flows : List Json
  deriving DecidableEq

/-- What happened under the locks. -/
inductive Event where
  /-- The locks were taken. -/
  | locked
  | fetched (current : Snapshot)
  deriving DecidableEq

/-- The journal, the last reading of the clock, and what happened so far, the latest first. -/
structure Site where
  journal : List Folder
  time : ℚ
  events : List Event

inductive Phase where
  | before | after
  deriving DecidableEq, Repr

/-- What an admission is bound to. -/
structure Binding where
  operationId : String
  planSha256 : String
  policySha256 : String
  action : Action
  riskSha256 : String
  beforeRevision : String
  beforeSha256 : String
  afterSha256 : String
  deriving DecidableEq

/-- The answer of `coordination.validate`. -/
structure Proof where
  planSha256 : String
  syntaxOk : Bool
  graph : Bool
  layout : Bool
  observability : Bool
  isolatedRegression : Bool
  installedNodeTypes : Bool
  canonicalSourcesReconciled : Bool

/-- The answer of `coordination.guard`. -/
structure Guard where
  planSha256 : String
  phase : Phase
  credentialsUnchanged : Bool
  contextPreservationProven : Bool
  logicalDeleteRestoreIsolatedProven : Bool
  newNodeRetirementRecoverable : Bool

/-- The answer of `coordination.admit`. -/
structure Gate where
  binding : Binding
  approvalId : String
  policyActivationConfirmed : Bool
  interfaceConfirmationPreserved : Bool
  reviewedStartupAndSensitiveEffects : Bool
  resourcesAvailable : Bool
  sharedLocksHeld : Bool
  expiresAt : ℚ

/-- The answer of `transport.deploy`. -/
structure DeployReply where
  state : String
  effectProvenAbsent : Bool
  rev : Option String

/-- What the engine asks the clock, the transport and the coordination for. -/
inductive Request where
  | clock
  | revoked
  | fetch
  | validate (plan : Plan)
  | admitPlan (binding : Binding) (approvalId : String)
  | guard (plan : Plan) (phase : Phase)
  | deploy (rev : String) (flows : List Json)

/-- The replies.  The clock tells how much time has passed since its last reading; all others may
    raise, or answer something of another shape. -/
abbrev Reply : Request → Type
  | .clock => ℚ≥0
  | .revoked => Except String Bool
  | .fetch => Except String Json
  | .validate _ => Except String (Option Proof)
  | .admitPlan _ _ => Except String (Option Gate)
  | .guard _ _ => Except String (Option Guard)
  | .deploy _ _ => Except String (Option DeployReply)

abbrev Prog := Program Site Reply

/-- `clock` -/
def clock : Prog ℚ := do
  let elapsed : ℚ≥0 ← ask Request.clock
  transaction fun s => .ok { s with time := s.time + elapsed }
  let s ← get
  return s.time

/-- `coordination.locks` -/
def locks : Prog Unit := transaction fun s => .ok { s with events := .locked :: s.events }

/-! ## The journal -/

section
variable {α : Type}

/-- A file of the folder of an operation. -/
def fileOf (slot : Slot α) (operationId : String) (journal : List Folder) : File α :=
  ((lookup Folder.id operationId journal).map slot.get).getD .absent

/-- `read` -/
def read (slot : Slot α) (operationId : String) : Prog (Option α) := do
  require (isHex 32 operationId = true) "invalid_operation_id"
  let s ← get
  lift (fileOf slot operationId s.journal).read

/-- The site with another file in the folder of an operation. -/
def Site.put (s : Site) (slot : Slot α) (operationId : String) (file : File α) : Site :=
  { s with journal := amend Folder.id operationId (slot.set file) s.journal }

/-- A new file must not be there yet, and its folder must. -/
def Site.create (slot : Slot α) (operationId : String) (s : Site) : Except String Site := do
  need (∃ f ∈ s.journal, f.id = operationId) "no_such_directory"
  match fileOf slot operationId s.journal with
  | .absent => return s.put slot operationId .torn
  | _ => .error "file_exists"

/-- The bound of a file. -/
def maxFile : ℕ := 2 * (8 * 1024 * 1024) + 262144

/-- `_create` -/
def create [Canonical α] (slot : Slot α) (operationId : String) (value : α) : Prog Unit := do
  require (size value + 1 ≤ maxFile) "journal_file_bound"
  transaction (Site.create slot operationId)
  transaction fun s => .ok (s.put slot operationId (.written value))
  transaction fun s => .ok (s.put slot operationId (.stored value))

end

/-- `uncertain_operations` -/
def uncertainOperations : List Folder → Except String (List String)
  | [] => .ok []
  | f :: journal => do
    need (isHex 32 f.id = true) "unexpected_journal_entry"
    let intent ← f.intent.read
    let receipt ← f.receipt.read
    let result ← uncertainOperations journal
    return if intent ≠ none ∧ ∀ r ∈ receipt, r.state = .uncertain then f.id :: result else result

/-- `attempts` -/
def attempts (since : ℚ) : List Folder → Except String (List Intent)
  | [] => .ok []
  | f :: journal => do
    let intent ← f.intent.read
    let rows ← attempts since journal
    return (intent.filter fun i => since ≤ i.attemptedAt).toList ++ rows

section
variable [Canonical Plan] [Canonical Validation] [Canonical Intent] [Canonical Receipt]

/-- The bytes of all files of the journal. -/
def journalBytes : List Folder → Except String ℕ
  | [] => .ok 0
  | f :: journal => do
    need (isHex 32 f.id = true) "unexpected_journal_entry"
    let plan ← f.plan.bytes
    let validation ← f.validation.bytes
    let intent ← f.intent.bytes
    let receipt ← f.receipt.bytes
    let rest ← journalBytes journal
    return plan + validation + intent + receipt + rest

/-- `os.mkdir` -/
def Site.mkdir (operationId : String) (s : Site) : Except String Site := do
  need (∀ f ∈ s.journal, f.id ≠ operationId) "file_exists"
  return { s with journal := s.journal ++ [⟨operationId, .absent, .absent, .absent, .absent⟩] }

/-- `MAX_OPERATIONS` -/
def maxOperations : ℕ := 64

/-- `MAX_STATE` -/
@[irreducible] def maxState : ℕ := 256 * 1024 * 1024

/-- `register` -/
def register (plan : Plan) : Prog Unit := do
  let existing ← read planFile plan.operationId
  match existing with
  | some value => require (digest value = digest plan) "operation_id_conflict"
  | none => do
    let s ← get
    require (s.journal.length < maxOperations) "journal_operation_bound"
    let bytes ← lift (journalBytes s.journal)
    require (bytes + size plan + 262144 ≤ maxState) "journal_capacity"
    transaction (Site.mkdir plan.operationId)
    create planFile plan.operationId plan

end

end SmartHome.NodeRedAdmin
