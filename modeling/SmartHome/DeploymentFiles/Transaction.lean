/-
  The deployment of static files (`deployment_files.py`): targets are replaced one after the other
  under a journal, and rolled back to the copies that were made of them before.

  A file is replaced by a rename, which is one step.  Every operation on the disk may raise.
-/
import SmartHome.Lib.Program
import SmartHome.Mqtt.Counters
import Mathlib.Logic.Function.Basic

namespace SmartHome.DeploymentFiles

open Verif Program Mqtt

/-! ## Targets -/

/-- `CORE` -/
def core : List String :=
  ["activated_reader.py", "authorization_gate.py", "backup_cli.py", "backup_rescue.py", "backup_snapshot.py",
    "bootstrap_dispatch.py", "bootstrap_launcher.py", "deployment_files.py", "file_bridge.py", "frozen_backup.py",
    "handoff.py", "handoff_ledger.py", "image_audit_reader.py", "maintenance_backend.py",
    "maintenance_archive.py", "maintenance_controller.py", "maintenance_journal.py", "maintenance_plan.py",
    "maintenance_policy.py", "maintenance_rebind.py", "maintenance_status.py", "protocol.py",
    "receiver_ledger.py", "recovery_data.py", "restored_history.py", "socket_reader.py", "source_binding.py",
    "source_image_audit.py", "source_rebind.py", "status_writer.py", "worker.py", "worker_config.py"]

/-- `CONSUMER` -/
def consumer : List String :=
  ["canvas_checkpoint.mjs", "consumer_protocol.mjs", "handoff_schema.json", "consumer_state.mjs",
    "consumer_store.mjs", "consumer_cli.mjs", "consumer-command.sh", "reader_status.mjs",
    "maintenance_checkpoint.mjs"]

/-- The keys of `TARGETS`. -/
def targets : List String :=
  core.map ("code/" ++ ·) ++ consumer.map ("consumer/" ++ ·) ++ ["reader_service", "reader_socket", "plugin"] ++
    ["LICENSE.project", "LICENSE.sdk.txt", "EDL-v1.0.txt", "EPL-v2.0.txt", "sdk-manifest.json"].map ("license/" ++ ·) ++
    ["compose_override", "broker_config"]

/-- `LIMIT` -/
def limit : ℕ := 1048576

/-- The digests of a target before and after the deployment. -/
structure Row where
  before : Option (Hex 64)
  after : Hex 64
  deriving DecidableEq

abbrev Spec := String → Row

def Row.json (row : Row) : Json :=
  .obj [("after_sha256", .str row.after.1), ("before_sha256", row.before.elim .null fun h => .str h.1)]

/-- The keys in the order in which the journal has them. -/
def sortedTargets : List String := targets.mergeSort fun a b => decide (a ≤ b)

theorem mem_sortedTargets {key : String} : key ∈ sortedTargets ↔ key ∈ targets :=
  (List.mergeSort_perm _ _).mem_iff

/-! ## The journal -/

inductive Phase where
  | prepared | applying | applied | interrupted | rollingBack | rolledBack | rollbackConflict
  deriving DecidableEq, Repr

inductive TargetState where
  | pending | writing | written | restored | conflict
  deriving DecidableEq, Repr

structure Body where
  manifest : Hex 64
  phase : Phase
  spec : Spec
  states : String → TargetState

def Body.mark (b : Body) (key : String) (state : TargetState) : Body :=
  { b with states := Function.update b.states key state }

@[simp] theorem Body.mark_spec (b : Body) (key : String) (state : TargetState) : (b.mark key state).spec = b.spec := rfl
@[simp] theorem Body.mark_phase (b : Body) (key : String) (state : TargetState) :
    (b.mark key state).phase = b.phase := rfl
@[simp] theorem Body.mark_manifest (b : Body) (key : String) (state : TargetState) :
    (b.mark key state).manifest = b.manifest := rfl

/-- The targets, their copies and the journal.  Until the directory is synced the copies may be lost. -/
structure Disk where
  target : String → Option Bytes
  backup : String → Option Bytes
  synced : Bool
  journal : Option Body

namespace Disk
variable (s : Disk) (key : String) (raw : Option Bytes) (b : Body)

/-- The disk with a new journal. -/
def enter : Disk := { s with journal := some b }

/-- The disk with a new content of a target. -/
def put : Disk := { s with target := Function.update s.target key raw }

/-- The disk with a new content of a copy. -/
def keep : Disk := { s with backup := Function.update s.backup key raw }

@[simp] theorem enter_target : (s.enter b).target = s.target := rfl
@[simp] theorem enter_backup : (s.enter b).backup = s.backup := rfl
@[simp] theorem enter_synced : (s.enter b).synced = s.synced := rfl
@[simp] theorem enter_journal : (s.enter b).journal = some b := rfl
@[simp] theorem put_backup : (s.put key raw).backup = s.backup := rfl
@[simp] theorem put_synced : (s.put key raw).synced = s.synced := rfl
@[simp] theorem put_journal : (s.put key raw).journal = s.journal := rfl
@[simp] theorem put_self : (s.put key raw).target key = raw := Function.update_self ..
@[simp] theorem keep_target : (s.keep key raw).target = s.target := rfl
@[simp] theorem keep_synced : (s.keep key raw).synced = s.synced := rfl
@[simp] theorem keep_journal : (s.keep key raw).journal = s.journal := rfl
@[simp] theorem keep_self : (s.keep key raw).backup key = raw := Function.update_self ..

variable {key} {key' : String}

theorem put_ne (h : key' ≠ key) : (s.put key raw).target key' = s.target key' := Function.update_of_ne h ..

theorem keep_ne (h : key' ≠ key) : (s.keep key raw).backup key' = s.backup key' := Function.update_of_ne h ..

end Disk

/-- Operations on the disk: the answer is whether they succeed. -/
abbrev Prog (α : Type) := Program Disk (fun _ : Unit => Bool) α

section
variable [Sha256]

/-- `manifest_hash` -/
def manifestHash (spec : Spec) : Hex 64 :=
  sha256 (ascii (Json.obj (sortedTargets.map fun key => (key, (spec key).json))).render)

def digestOf (raw : Option Bytes) : Option (Hex 64) := raw.map sha256

/-- What `status` says. -/
structure Status where
  phase : Phase
  matchApplied : Bool
  matchBaseline : Bool
  unexpected : List String

namespace FileTransaction

/-! ## Operations -/

/-- An operation on the disk that may raise. -/
def fallible : Prog Unit := ask () >>= fun succeeds => require (succeeds = true) "os_error"

/-- `_save` -/
def save (b : Body) : Prog Unit := do
  fallible
  .atomic (·.enter b) fun _ => fallible

/-- `_current` -/
def current (key : String) : Prog (Option Bytes) := do
  fallible
  let s ← get
  return s.target key

/-- `_load` -/
def load (approval : Hex 64) : Prog (Option Body) := do
  fallible
  let s ← get
  match s.journal with
  | none => return none
  | some b =>
    require (b.manifest = approval) "deployment_journal_invalid"
    require (manifestHash b.spec = approval) "deployment_manifest_changed"
    return some b

/-- The new content of a target, or none. -/
def write (key : String) (raw : Option Bytes) : Prog Unit := do
  fallible
  .atomic (·.put key raw) fun _ => fallible

/-- `_replace` -/
def replace (key : String) (raw : Bytes) (expected : Option (Hex 64)) : Prog Unit := do
  let old ← current key
  require (digestOf old = expected) "target_compare_conflict"
  let now ← current key
  require (digestOf now = expected) "target_compare_conflict"
  write key (some raw)

/-- The digests of the targets, for `status`. -/
def digests : List String → Prog (String → Option (Hex 64))
  | [] => return fun _ => none
  | key :: keys => do
    let raw ← current key
    let rest ← digests keys
    return Function.update rest key (digestOf raw)

/-- `status`; nothing before the first deployment. -/
def status (approval : Hex 64) : Prog (Option Status) := do
  match ← load approval with
  | none => return none
  | some b =>
    let now ← digests targets
    return some {
      phase := b.phase
      matchApplied := targets.all fun key => now key = some (b.spec key).after
      matchBaseline := targets.all fun key => now key = (b.spec key).before
      unexpected := sortedTargets.filter fun key => now key ≠ (b.spec key).before ∧ now key ≠ some (b.spec key).after }

/-! ## Deployment -/

/-- The targets are what the manifest says. -/
def compareAll (spec : Spec) : List String → Prog Unit
  | [] => return
  | key :: keys => do
    let old ← current key
    require (digestOf old = (spec key).before) "target_compare_conflict"
    compareAll spec keys

/-- The artifacts are what the manifest says. -/
def Fits (spec : Spec) (artifacts : String → Bytes) : Prop :=
  ∀ key ∈ targets, (artifacts key).length ≤ limit ∧ sha256 (artifacts key) = (spec key).after

instance (spec : Spec) (artifacts : String → Bytes) : Decidable (Fits spec artifacts) :=
  inferInstanceAs (Decidable (∀ key ∈ targets, _))

/-- `preflight` -/
def preflight (approval : Hex 64) (spec : Spec) (artifacts : String → Bytes) : Prog Unit := do
  require (manifestHash spec = approval) "deployment_manifest_changed"
  require (Fits spec artifacts) "artifact_digest_mismatch"
  compareAll spec targets
  let old ← load approval
  require (old.isNone = true) "existing_intent_requires_reconciliation"

/-- A copy of a target: the file is made, and then it is written. -/
def copy (key : String) (raw : Bytes) : Prog Unit := do
  fallible
  transaction fun s =>
    if s.backup key = none then .ok (s.keep key (some [])) else .error "file_exists"
  fallible
  .atomic (·.keep key (some raw)) fun _ => fallible

/-- The copies. -/
def copies (spec : Spec) : List String → Prog Unit
  | [] => return
  | key :: keys => do
    let raw ← current key
    require (digestOf raw = (spec key).before) "target_compare_conflict"
    match raw with
    | none => copies spec keys
    | some raw => do
      copy key raw
      copies spec keys

/-- `os.fsync(self.state_fd)` -/
def sync : Prog Unit := do
  fallible
  .atomic (fun s => { s with synced := true }) fun _ => return

/-- `except BaseException` -/
def orInterrupt {α : Type} (b : Body) (p : Prog α) : Prog α :=
  p.attempt >>= fun
    | .ok a => return a
    | .error e => do
      save { b with phase := .interrupted }
      fail e

/-- The replacements, with the journal before and after each. -/
def replacements (spec : Spec) (artifacts : String → Bytes) : Body → List String → Prog Body
  | b, [] => return b
  | b, key :: keys => do
    orInterrupt (b.mark key .writing) do
      save (b.mark key .writing)
      replace key (artifacts key) (spec key).before
      let now ← current key
      require (digestOf now = some (spec key).after) "target_write_unconfirmed"
    orInterrupt ((b.mark key .writing).mark key .written) (save ((b.mark key .writing).mark key .written))
    replacements spec artifacts ((b.mark key .writing).mark key .written) keys

/-- The journal of a new deployment. -/
def prepared (approval : Hex 64) (spec : Spec) : Body := ⟨approval, .prepared, spec, fun _ => .pending⟩

/-- `apply_approved` -/
def applyApproved (approval : Hex 64) (spec : Spec) (artifacts : String → Bytes) : Prog (Option Status) := do
  require (manifestHash spec = approval) "deployment_manifest_changed"
  require (Fits spec artifacts) "artifact_digest_mismatch"
  match ← load approval with
  | some old =>
    require (old.phase = .applied) "existing_intent_requires_reconciliation"
    status approval
  | none =>
    preflight approval spec artifacts
    save (prepared approval spec)
    copies spec targets
    sync
    let b ← replacements spec artifacts { prepared approval spec with phase := .applying } targets
    orInterrupt { b with phase := .applied } do
      save { b with phase := .applied }
      status approval

/-! ## Rollback -/

/-- One target goes back; whether it could. -/
def restoreTarget (key : String) (row : Row) : Prog Bool := do
  let old ← current key
  if digestOf old = row.before then return true
  else if digestOf old ≠ some row.after then return false
  else
    match row.before with
    | none =>
      let now ← current key
      require (digestOf now = some row.after) "rollback_compare_conflict"
      write key none
      return true
    | some before =>
      fallible
      let s ← get
      match s.backup key with
      | none => fail "file_not_found"
      | some raw =>
        require (sha256 raw = before) "deployment_backup_corrupt"
        replace key raw (some row.after)
        return true

/-- The targets go back, one after the other. -/
def restoreTargets : Body → Bool → List String → Prog (Body × Bool)
  | b, conflict, [] => return (b, conflict)
  | b, conflict, key :: keys => do
    let restored ← restoreTarget key (b.spec key)
    let b' := b.mark key (if restored then .restored else .conflict)
    save b'
    restoreTargets b' (conflict || !restored) keys

/-- `rollback_after_quiescence` -/
def rollbackAfterQuiescence (approval : Hex 64) : Prog (Option Status) := do
  match ← load approval with
  | none => fail "deployment_not_started"
  | some b =>
    if b.phase = .rolledBack then status approval
    else
      save { b with phase := .rollingBack }
      let (b, conflict) ← restoreTargets { b with phase := .rollingBack } false sortedTargets
      save { b with phase := if conflict then .rollbackConflict else .rolledBack }
      status approval

end FileTransaction
end
end SmartHome.DeploymentFiles
