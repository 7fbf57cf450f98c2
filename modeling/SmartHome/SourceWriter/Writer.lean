/-
  The writer of canonical sources (`source_writer.py`): it replaces the editable files of a
  component one at a time, under the hash of what they hold, between a file that tells its intent
  and one that tells the result.

  A program may be interrupted between any two of its steps.  What is written to a file that only
  tells that something happened does not matter: it counts from its creation on.
-/
import Mathlib.Algebra.Order.Ring.Rat
import Mathlib.Logic.Function.Basic
import SmartHome.Lib.Program
import SmartHome.Lib.Python

namespace SmartHome.SourceWriter

open Verif Program

/-! ## Files -/

abbrev Bytes := List UInt8

/-- `hashlib.sha256`, of which no collision is known. -/
structure Hashing where
  sha : Bytes → String
  injective : Function.Injective sha

structure Metadata where
  uid : ℕ
  gid : ℕ
  mode : ℕ
  deriving DecidableEq

/-- A regular file.  Its identity changes with every change of the file. -/
structure File where
  bytes : Bytes
  metadata : Metadata
  identity : ℕ
  deriving DecidableEq

inductive Action where
  | apply | rollback
  deriving DecidableEq, Repr

/-- The files of an operation that tell what happened. -/
inductive Marker where
  | intent (a : Action)
  | result (a : Action)
  | restoreIntent (a : Action)
  | restoreResult (a : Action)
  deriving DecidableEq, Repr

/-- What is stored: the files of the repository, those in their place that are not renamed yet, by
    the process that writes them, and the markers of the operation.  A path without a file is missing
    or is no regular file. -/
structure Site where
  files : String → Option File
  temps : String × ℕ → Option File
  markers : List Marker
  nextIdentity : ℕ

/-- `LIMIT` -/
def limit : ℕ := 2 * 1024 * 1024

/-- `read` -/
def Site.read (s : Site) (p : String) : Except String File :=
  match s.files p with
  | none => .error "source_file_unsafe"
  | some f => if f.bytes.length ≤ limit then .ok f else .error "source_file_unsafe"

/-! ## Bundles -/

structure Profile where
  componentId : String
  paths : List String
  ownerAuthorizationExpiresAt : ℚ
  nodup : paths.Nodup
  bound : 0 < paths.length ∧ paths.length ≤ 64

/-- A bundle that is accepted. -/
structure Bundle (profile : Profile) where
  operationId : String
  before : String → Bytes
  after : String → Bytes
  metadata : String → Metadata
  small : ∀ p ∈ profile.paths, (before p).length ≤ 131072 ∧ (after p).length ≤ 131072

structure Review where
  operationId : String
  sourceSet : String
  expiresAt : ℚ

/-- The receipt of the native executor. -/
structure NativeReceipt where
  executorTerminal : Bool
  definitiveNoEffect : Bool
  state : String
  sessionRevoked : Bool
  operationId : String
  componentId : String
  action : Action

/-- `.encode()` -/
def encode (s : List Char) : Bytes := (String.ofList s).toByteArray.data.toList

/-- `source_set` -/
def sourceSet [FloatText] (H : Hashing) (paths : List String) (files : String → Bytes) : String :=
  H.sha (encode ((PyValue.dict (paths.map fun p => (p, .str (H.sha (files p))))).raw ++ ['\n']))

section
variable {profile : Profile} (b : Bundle profile)

/-- `start` -/
def Bundle.start : Action → String → Bytes
  | .apply => b.before
  | .rollback => b.after

/-- `end` -/
def Bundle.target : Action → String → Bytes
  | .apply => b.after
  | .rollback => b.before

end

/-! ## Programs -/

/-- What is asked of the outside: whether the admission still stands, the time, and the review. -/
inductive Query where
  | check | clock | review

def Reply : Query → Type
  | .check => Bool
  | .clock => ℚ
  | .review => Option Review

abbrev Prog (α : Type) := Program Site Reply α

/-- `admission.check()` -/
def check : Prog Unit := call Query.check fun ok : Bool => require (ok = true) "admission_refused"

def clock : Prog ℚ := call Query.clock fun now : ℚ => done now

/-- The review, which may not be there. -/
def readReview : Prog Review :=
  call Query.review fun review : Option Review => lift (review.elim (.error "source_file_unsafe") .ok)

def step (f : Site → Site) : Prog Unit := atomic f fun _ => done ()

/-- `write_new` -/
def writeNew (m : Marker) : Prog Unit :=
  transaction fun s =>
    if m ∈ s.markers then .error "existing_protected_artifact" else .ok { s with markers := s.markers ++ [m] }

/-- The new file is created, empty, for its owner only. -/
def createTemp (p : String) (pid : ℕ) : Prog Unit :=
  transaction fun s =>
    if (s.temps (p, pid)).isSome then .error "FileExistsError"
    else .ok { s with
      temps := Function.update s.temps (p, pid) (some ⟨[], ⟨0, 0, 0o600⟩, s.nextIdentity⟩)
      nextIdentity := s.nextIdentity + 1 }

def onTemp (p : String) (pid : ℕ) (f : File → File) : Prog Unit :=
  step fun s => { s with temps := Function.update s.temps (p, pid) ((s.temps (p, pid)).map f) }

/-- Any part of the bytes may be written when the process dies. -/
def writeTemp (p : String) (pid : ℕ) : Bytes → Prog Unit
  | [] => pure ()
  | byte :: bytes => do
    onTemp p pid fun f => { f with bytes := f.bytes ++ [byte] }
    writeTemp p pid bytes

def unlinkTemp (p : String) (pid : ℕ) : Prog Unit :=
  step fun s => { s with temps := Function.update s.temps (p, pid) none }

/-- `os.replace` -/
def renameTemp (p : String) (pid : ℕ) : Prog Unit :=
  step fun s => { s with
    files := Function.update s.files p (s.temps (p, pid))
    temps := Function.update s.temps (p, pid) none }

/-- `replace_owned` -/
def replaceOwned (H : Hashing) (pid : ℕ) (p : String) (bytes : Bytes) (expected : String) (metadata : Metadata) :
    Prog Unit := do
  let s ← get
  let before ← lift (s.read p)
  require (H.sha before.bytes = expected) "source_CAS_conflict"
  require (before.metadata = metadata) "source_metadata_CAS_conflict"
  createTemp p pid
  writeTemp p pid bytes
  onTemp p pid fun f => { f with metadata := metadata }
  let s ← get
  match s.read p with
  | .error e => do
    unlinkTemp p pid
    fail e
  | .ok again =>
    if again.identity = before.identity ∧ H.sha again.bytes = expected then renameTemp p pid
    else do
      unlinkTemp p pid
      fail "source_CAS_at_replace_conflict"

/-! ## The writer -/

inductive SourceState where
  | terminal | before | uncertain
  deriving DecidableEq, Repr

/-- What `status` returns; `automatic_retry` is false. -/
structure Report where
  operationId : String
  action : Action
  observedAt : ℚ
  sourceBefore : String
  sourceAfter : String
  actualSource : String
  sourceConsistencyConfirmed : Bool
  state : SourceState
  canonicalSourceEffect : Bool
  executorTerminal : Bool
  ownRollbackConfirmed : Bool
  deriving DecidableEq

section
variable [FloatText] (H : Hashing) {profile : Profile} (b : Bundle profile)

/-- `current` -/
def current (profile : Profile) (s : Site) : Except String (String → Bytes) :=
  if profile.paths.all fun p => (s.read p).isOk then .ok fun p => (s.files p).elim [] File.bytes
  else .error "source_file_unsafe"

/-- `{…} == start` of two dictionaries over the editable files. -/
def sameFiles (profile : Profile) (files files' : String → Bytes) : Bool :=
  profile.paths.all fun p => files p = files' p

/-- The report of a site. -/
def report (a : Action) (s : Site) (now : ℚ) : Except String Report := do
  let files ← current profile s
  let actual := sourceSet H profile.paths files
  let start := sourceSet H profile.paths (b.start a)
  let target := sourceSet H profile.paths (b.target a)
  let attempted := decide (.intent a ∈ s.markers)
  let restored := decide (.restoreResult a ∈ s.markers)
  let metadataOk := profile.paths.all fun p => (s.files p).any fun f => f.metadata = b.metadata p
  let terminal := decide (actual = target) && decide (.result a ∈ s.markers) && metadataOk
  let untouched := decide (actual = start) && (!attempted || restored) && metadataOk
  return {
    operationId := b.operationId
    action := a
    observedAt := now
    sourceBefore := start
    sourceAfter := target
    actualSource := actual
    sourceConsistencyConfirmed := terminal || untouched
    state := if terminal then .terminal else if untouched then .before else .uncertain
    canonicalSourceEffect := decide (actual ≠ start)
    executorTerminal := terminal || untouched
    ownRollbackConfirmed := restored && decide (actual = start) }

def status (a : Action) : Prog Report := do
  let s ← get
  let now ← clock
  lift (report H b a s now)

/-- The loop of `commit`. -/
def commitFiles (pid : ℕ) (a : Action) (expiresAt : ℚ) : List String → Prog Unit
  | [] => pure ()
  | p :: paths => do
    check
    let now ← clock
    require (now < expiresAt) "source_review_expired_midoperation"
    if b.start a p ≠ b.target a p then
      replaceOwned H pid p (b.target a p) (H.sha (b.start a p)) (b.metadata p)
    commitFiles pid a expiresAt paths

/-- `commit` from where its intent is not there yet. -/
def commitNew (pid : ℕ) (a : Action) (expiresAt : ℚ) : Prog Report := do
  let s ← get
  let files ← lift (current profile s)
  require (sameFiles profile files (b.start a) = true) "canonical_source_baseline_changed"
  writeNew (.intent a)
  commitFiles H b pid a expiresAt profile.paths
  check
  let s ← get
  let files ← lift (current profile s)
  require (sameFiles profile files (b.target a) = true) "canonical_source_after_unconfirmed"
  writeNew (.result a)
  status H b a

def commit (root : Bool) (pid : ℕ) (a : Action) : Prog Report := do
  require (root = true) "root_admission_object_required"
  check
  let now ← clock
  require (now < profile.ownerAuthorizationExpiresAt) "source_owner_window_expired"
  let s ← get
  require (a = .rollback → .result .apply ∈ s.markers) "own_apply_source_receipt_required"
  let review ← readReview
  let now ← clock
  require (review.operationId = b.operationId ∧ review.sourceSet = sourceSet H profile.paths b.after ∧
    now < review.expiresAt) "source_review_not_current"
  let s ← get
  if .intent a ∈ s.markers then do
    let observed ← status H b a
    require (observed.state = .terminal ∧ observed.sourceConsistencyConfirmed = true)
      "existing_source_intent_requires_reconciliation"
    return observed
  else commitNew H b pid a review.expiresAt

/-- The loop of `restore_after_rejected_native`. -/
def restoreFiles (pid : ℕ) (a : Action) (actual : String → Bytes) : List String → Prog Unit
  | [] => pure ()
  | p :: paths => do
    check
    if actual p ≠ b.start a p then
      replaceOwned H pid p (b.start a p) (H.sha (b.target a p)) (b.metadata p)
    restoreFiles pid a actual paths

/-- `restore_after_rejected_native` from where its intent is not there yet. -/
def restoreNew (pid : ℕ) (a : Action) : Prog Report := do
  let s ← get
  let actual ← lift (current profile s)
  require (∀ p ∈ profile.paths, actual p = b.start a p ∨ actual p = b.target a p)
    "source_foreign_change_blocks_restore"
  writeNew (.restoreIntent a)
  restoreFiles H b pid a actual profile.paths
  let s ← get
  let files ← lift (current profile s)
  require (sameFiles profile files (b.start a) = true) "own_source_restore_unconfirmed"
  check
  writeNew (.restoreResult a)
  status H b a

/-- The receipt says that the native executor had no effect, in this operation. -/
def NativeReceipt.Matches (r : NativeReceipt) : Prop :=
  (r.executorTerminal = true ∧ r.definitiveNoEffect = true ∧ r.state = "rejected_without_effect" ∧
    r.sessionRevoked = true) ∧ r.operationId = b.operationId ∧ r.componentId = profile.componentId

instance (r : NativeReceipt) : Decidable (r.Matches b) := by unfold NativeReceipt.Matches; infer_instance

def restoreAfterRejectedNative (root : Bool) (pid : ℕ) (r : NativeReceipt) : Prog Report := do
  require (root = true) "root_admission_object_required"
  check
  require (r.executorTerminal = true ∧ r.definitiveNoEffect = true ∧ r.state = "rejected_without_effect" ∧
    r.sessionRevoked = true) "native_no_effect_not_proved"
  require (r.operationId = b.operationId ∧ r.componentId = profile.componentId) "native_compensation_binding"
  let now ← clock
  require (now < profile.ownerAuthorizationExpiresAt) "source_owner_window_expired"
  let s ← get
  if .restoreIntent r.action ∈ s.markers then status H b r.action
  else restoreNew H b pid r.action

end

end SmartHome.SourceWriter
