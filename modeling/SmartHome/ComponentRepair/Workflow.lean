/-
  The workflow of component repairs (`Workflow` of `workflow.py`).

  A method is one transaction on the ledger; `apply` and `rollback` are two, and the worker runs in
  between.  An observer is asked within a transaction, so its answer is a function of the row.  The
  clock is read once for a transaction.  A digest that is stored stands for the value.
-/
import Mathlib.Algebra.Order.Ring.Rat
import Mathlib.Data.Finset.Insert
import SmartHome.Lib.Dict
import SmartHome.Lib.Guard
import SmartHome.Lib.Table
import SmartHome.Mqtt.Counters

namespace SmartHome.ComponentRepair

open Verif
open SmartHome.Mqtt (isHex)

/-! ## What the outside answers -/

inductive Action where
  | apply | rollback
  deriving DecidableEq, Repr

/-- `receipt_origin` -/
inductive Origin where
  | nativeWorker | forensicReconciliation | other
  deriving DecidableEq, Repr

/-- A receipt of the worker.  A flag that is only compared with `True` is a `Bool`. -/
structure Receipt where
  receiptVerified : Bool
  executorTerminal : Bool
  operationId : String
  componentId : String
  taskId : String
  action : Option Action
  origin : Origin
  originalWorkerReceiptPresent : Option Bool
  historicalStdoutRecovered : Option Bool
  effectAttempted : Option Bool
  definitiveNoEffect : Bool
  definitiveNoDispatch : Bool
  securityCleanupConfirmed : Bool
  forensicEvidenceSha256 : Option String
  workerFinishedAt : Option ℚ
  /-- Absent, not a number, or a number. -/
  effectAppliedAt : Option (Option ℚ)
  loadedSha256 : Option String
  collectionError : Option String
  deriving DecidableEq

/-- What the observer sees live. -/
structure Live where
  collectionError : Option String
  loadedSha256 : Option String
  backupVerified : Bool
  deriving DecidableEq

/-- The proof of a validation. -/
structure Validation where
  baseSha256 : String
  candidateSha256 : String
  isolatedTestsPassed : Bool
  noHouseholdEffects : Bool
  reviewedScope : Bool
  deriving DecidableEq

/-- The proof of a functional verification. -/
structure Functional where
  collectionError : Option String
  loadedSha256 : Option String
  sameOperationBeforeFailed : Bool
  sameOperationAfterPassed : Bool
  regressionsChecked : Bool
  noHouseholdTestEffects : Bool
  operationId : String
  componentId : String
  taskId : String
  observedAt : Option ℚ
  beforeFailedAt : Option ℚ
  afterSuccessAt : Option ℚ
  destinationReceiptVerified : Option Bool
  deriving DecidableEq

/-! ## The ledger -/

inductive State where
  | prepared | validated | applyIntent | uncertain | appliedAwaitingFunctionalProof | verified
  | failedWithoutEffect | confirmedNotApplied | rollbackIntent | rollbackUncertain | rolledBack
  | rollbackRejectedWithoutEffect | released
  deriving DecidableEq, Repr

/-- `TERMINAL` -/
def State.terminal : State → Bool
  | verified | failedWithoutEffect | confirmedNotApplied | rolledBack => true
  | _ => false

/-- An apply may be under way. -/
def State.applying : State → Bool
  | applyIntent | uncertain => true
  | _ => false

/-- A rollback may be under way. -/
def State.rollingBack : State → Bool
  | rollbackIntent | rollbackUncertain => true
  | _ => false

/-- An effect may be under way. -/
def State.busy (s : State) : Bool := s.applying || s.rollingBack

/-- The result that goes with a state; a member that is missing is `none`, `false` or empty. -/
structure Result where
  validation : Option Validation := none
  automaticRetry : Option Bool := none
  collectionError : Option String := none
  definitiveNoEffect : Bool := false
  definitiveNoDispatch : Bool := false
  canceledBeforeEffect : Bool := false
  loadedSha256 : Option String := none
  appliedAt : Option ℚ := none
  functionalProof : Option Bool := none
  reconciledWithoutExecution : Bool := false
  functionalRecoveryProven : Option Bool := none
  cleanupReconciledWithoutDeploy : Bool := false
  rollbackDefinitiveNoEffect : Bool := false
  baseSha256 : Option String := none
  destinationReceiptVerified : Option Bool := none
  proof : Option Functional := none
  securityCleanupConfirmed : Option Bool := none
  pendingCleanupActions : Finset Action := ∅
  /-- `receipt_action` and `receipt_digest` -/
  receipt : Option (Action × Receipt) := none
  forensicEvidenceSha256 : Option String := none
  deriving DecidableEq

/-- A row of `operations`. -/
structure Row where
  id : String
  component : String
  task : String
  base : String
  candidate : String
  state : State
  created : ℚ
  updated : ℚ
  result : Option Result
  deriving DecidableEq

/-- What a transaction found that recorded an intent: the row, what was live, and all rows. -/
structure Admission where
  action : Action
  row : Row
  live : Live
  rows : List Row
  deriving DecidableEq

/-- The ledger.  It also remembers how its intents were admitted, which no transaction reads. -/
structure Ledger where
  rows : List Row
  audit : List (String × State)
  receipts : List (String × State)
  admissions : List Admission

/-- `status` -/
structure Answer where
  row : Row
  duplicate : Bool
  collectionError : Option String
  deriving DecidableEq

/-- `COMPONENTS` -/
def components : List String :=
  ["localizacao_pessoas", "observacao_host", "external_heartbeat", "icloud_adapter"]

/-- `row` -/
def Ledger.row (op : String) (l : Ledger) : Except String Row := do
  need (isHex 32 op = true) "invalid_operation_id"
  orFail "operation_not_found" (lookup Row.id op l.rows)

/-- The ledger with a new state and result of an operation. -/
def Ledger.set (op : String) (now : ℚ) (state : State) (result : Result) (l : Ledger) : Ledger :=
  { l with
    rows := amend Row.id op (fun r => { r with state, updated := now, result := some result }) l.rows
    audit := l.audit ++ [(op, state)]
    receipts := l.receipts ++ [(op, state)] }

/-- `status` -/
def Ledger.status (op : String) (l : Ledger) : Except String (Ledger × Answer) := do
  let r ← l.row op
  return (l, ⟨r, false, none⟩)

section
variable [Canonical Result]

/-- `put` -/
def Ledger.put (op : String) (now : ℚ) (state : State) (result : Result) (l : Ledger) :
    Except String Ledger := do
  need (l.audit.length < 1024) "audit_capacity"
  need (size result ≤ 16384) "receipt_size_limit"
  return l.set op now state result

end

/-! ## Receipts -/

section
variable (expiry : ℚ)

/-- The times of a receipt. -/
def timesMatch (r : Row) (p : Receipt) (now : ℚ) : Prop :=
  ∃ finished ∈ p.workerFinishedAt, r.created ≤ finished ∧ finished ≤ now + 1 ∧ finished < expiry ∧
    ∀ effect ∈ p.effectAppliedAt, ∃ t ∈ effect, r.created ≤ t ∧ t ≤ finished ∧
      p.definitiveNoEffect = false

instance (r : Row) (p : Receipt) (now : ℚ) : Decidable (timesMatch expiry r p now) := by
  unfold timesMatch; infer_instance

/-- The origin of a receipt. -/
def originMatches (p : Receipt) : Prop :=
  p.origin = .nativeWorker ∨
    (p.origin = .forensicReconciliation ∧ p.originalWorkerReceiptPresent = some false ∧
      p.historicalStdoutRecovered = some false ∧ p.definitiveNoEffect = true ∧
      p.effectAttempted = some false ∧ p.securityCleanupConfirmed = true ∧
      ∃ s ∈ p.forensicEvidenceSha256, isHex 64 s = true)

instance (p : Receipt) : Decidable (originMatches p) := by unfold originMatches; infer_instance

/-- `receipt_matches` -/
def receiptMatches (r : Row) (p : Receipt) (action : Option Action) (now : ℚ) : Prop :=
  p.receiptVerified = true ∧ p.executorTerminal = true ∧ p.operationId = r.id ∧
    p.componentId = r.component ∧ p.taskId = r.task ∧ p.action = action ∧ originMatches p ∧
    timesMatch expiry r p now

instance (r : Row) (p : Receipt) (action : Option Action) (now : ℚ) :
    Decidable (receiptMatches expiry r p action now) := by unfold receiptMatches; infer_instance

/-- `applied_time` -/
def appliedTime (p : Receipt) : Option ℚ := p.effectAppliedAt.getD p.workerFinishedAt

/-- A result with the members of `outcome`. -/
def Result.withOutcome (result previous : Result) (action : Action) (p : Receipt) : Result :=
  let pending := if p.securityCleanupConfirmed = true then previous.pendingCleanupActions.erase action
    else insert action previous.pendingCleanupActions
  { result with
    securityCleanupConfirmed := some (decide (pending = ∅))
    pendingCleanupActions := pending
    receipt := some (action, p)
    forensicEvidenceSha256 := if p.origin = .forensicReconciliation then p.forensicEvidenceSha256
      else result.forensicEvidenceSha256 }

end

/-! ## Preparation -/

/-- The request of `prepare`. -/
structure Preparation where
  op : String
  component : String
  task : String
  base : String
  candidate : String
  registeredTasks : List String

section
variable (expiry : ℚ)

/-- The checks of `prepare` that do not look at the ledger. -/
def checkPreparation (q : Preparation) : Except String Unit := do
  need (isHex 32 q.op = true ∧ isHex 32 q.task = true) "invalid_operation_id"
  need (isHex 64 q.base = true ∧ isHex 64 q.candidate = true) "invalid_sha256"
  need (q.component ∈ components) "component_not_allowed"
  need (q.task ∈ q.registeredTasks) "task_not_registered"
  need (q.base ≠ q.candidate) "empty_change"

/-- The row of a new operation. -/
def Preparation.row (q : Preparation) (now : ℚ) : Row :=
  ⟨q.op, q.component, q.task, q.base, q.candidate, .prepared, now, now, none⟩

/-- `prepare` -/
def prepare (q : Preparation) (now : ℚ) (l : Ledger) : Except String (Ledger × Answer) := do
  checkPreparation q
  match lookup Row.id q.op l.rows with
  | some old => do
    need (old.component = q.component ∧ old.task = q.task ∧ old.base = q.base ∧
      old.candidate = q.candidate) "operation_id_conflict"
    return (l, ⟨old, true, none⟩)
  | none => do
    need (now < expiry) "administrative_lease_expired"
    need (l.rows.length < 64) "operation_capacity"
    need (∀ r ∈ l.rows, r.state ≠ .released → r.component ≠ q.component) "component_reserved"
    need (l.rows.countP (fun r => r.state = .prepared ∨ r.state = .validated) < 2)
      "preparation_capacity"
    return ({ l with rows := l.rows ++ [q.row now], audit := l.audit ++ [(q.op, .prepared)] },
      ⟨q.row now, false, none⟩)

section
variable [Canonical Result]

/-- What a validation must prove of a row. -/
def Validation.accepts (proof : Validation) (r : Row) : Prop :=
  proof.baseSha256 = r.base ∧ proof.candidateSha256 = r.candidate ∧
    proof.isolatedTestsPassed = true ∧ proof.noHouseholdEffects = true ∧ proof.reviewedScope = true

instance (proof : Validation) (r : Row) : Decidable (proof.accepts r) := by
  unfold Validation.accepts; infer_instance

/-- `validate` -/
def validate (op : String) (now : ℚ) (verifier : Row → Except String (Option Validation))
    (l : Ledger) : Except String (Ledger × Answer) := do
  let r ← l.row op
  if r.state ≠ .prepared then return (l, ⟨r, true, none⟩)
  else do
    need (now < expiry) "administrative_lease_expired"
    let answer ← verifier r
    let proof ← orFail "invalid_validation_proof" answer
    need (proof.accepts r) "validation_not_accepted"
    let l ← l.put op now .validated { validation := some proof }
    l.status op

/-! ## Apply -/

/-- No other operation is in some state. -/
def Ledger.Idle (l : Ledger) (op : String) : Prop := ∀ x ∈ l.rows, x.id ≠ op → x.state.busy = false

instance (l : Ledger) (op : String) : Decidable (l.Idle op) := by unfold Ledger.Idle; infer_instance

/-- No other operation that is not released has to be cleaned up. -/
def Ledger.Clean (l : Ledger) (op : String) : Prop := ∀ x ∈ l.rows, x.id ≠ op → x.state ≠ .released →
  ∀ result ∈ x.result, result.securityCleanupConfirmed ≠ some false

instance (l : Ledger) (op : String) : Decidable (l.Clean op) := by unfold Ledger.Clean; infer_instance

/-- What the first transaction of an effect finds. -/
inductive Begun where
  | answered (answer : Answer)
  | intended (row : Row)

/-- The first transaction of `apply`. -/
def applyBegin (op : String) (now : ℚ) (observe : Row → Except String (Option Live))
    (globalAdminIdle resourcesAvailable : Bool) (l : Ledger) : Except String (Ledger × Begun) := do
  let r ← l.row op
  if r.state ≠ .validated then return (l, .answered ⟨r, true, none⟩)
  else do
    need (now < expiry) "administrative_lease_expired"
    need (globalAdminIdle = true) "full_admin_operation_active_or_unknown"
    need (resourcesAvailable = true) "host_resources_unavailable"
    need (l.Idle op) "global_effect_in_flight_or_unknown"
    need (l.Clean op) "security_cleanup_unconfirmed"
    let answer ← observe r
    let live ← orFail "loaded_version_changed_or_unknown" answer
    need (live.collectionError = none ∧ live.loadedSha256 = some r.base)
      "loaded_version_changed_or_unknown"
    let l' ← l.put op now .applyIntent { automaticRetry := some false }
    return ({ l' with admissions := l'.admissions ++ [⟨.apply, r, live, l.rows⟩] }, .intended r)

/-- The result of an apply without effect. -/
def withoutEffect (r : Row) (p : Receipt) : Result :=
  Result.withOutcome { definitiveNoEffect := true, automaticRetry := some false }
    (r.result.getD {}) .apply p

/-- The result of an apply with effect. -/
def appliedResult (r : Row) (p : Receipt) (reconciled : Bool) : Result :=
  Result.withOutcome
    { loadedSha256 := some r.candidate, appliedAt := appliedTime p, functionalProof := some false
      reconciledWithoutExecution := reconciled } (r.result.getD {}) .apply p

/-- What the result of the worker means. -/
def applyOutcome (r : Row) (reply : Option Receipt) (now : ℚ) : State × Result :=
  match reply.filter fun p => receiptMatches expiry r p (some .apply) now with
  | some p =>
    if p.definitiveNoEffect = true then (.failedWithoutEffect, withoutEffect r p)
    else if p.loadedSha256 = some r.candidate then
      (.appliedAwaitingFunctionalProof, appliedResult r p false)
    else (.uncertain,
      { automaticRetry := some false, collectionError := some "apply_outcome_unconfirmed" })
  | none => (.uncertain,
      { automaticRetry := some false, collectionError := some "apply_outcome_unconfirmed" })

/-- The second transaction of `apply`; another call may have settled the operation by then. -/
def applyEnd (r : Row) (reply : Option Receipt) (now : ℚ) (l : Ledger) :
    Except String (Ledger × Answer) := do
  let current ← l.row r.id
  if current.state.applying = false then return (l, ⟨current, false, none⟩)
  else do
    let l ← l.put r.id now (applyOutcome expiry r reply now).1 (applyOutcome expiry r reply now).2
    l.status r.id

/-! ## Reconciliation -/

/-- A row whose cleanup is not confirmed. -/
def Row.cleanupDue (r : Row) : Prop := ∃ result ∈ r.result, result.securityCleanupConfirmed = some false

instance (r : Row) : Decidable r.cleanupDue := by unfold Row.cleanupDue; infer_instance

/-- The action whose receipt `reconcile` expects. -/
def Row.expected (r : Row) (p : Receipt) : Option Action :=
  if r.state.rollingBack = true then some .rollback
  else if r.cleanupDue then p.action
  else some .apply

/-- The new state and result that a receipt proves in the cleanup of a settled operation. -/
def cleanupVerdict (r : Row) (p : Receipt) (now : ℚ) : Option (State × Result) := do
  let action ← p.action
  let previous := r.result.getD {}
  guard (action ∈ previous.pendingCleanupActions ∧ p.securityCleanupConfirmed = true ∧
    receiptMatches expiry r p (some action) now)
  return (r.state, { Result.withOutcome previous previous action p with
    cleanupReconciledWithoutDeploy := true })

/-- The result of a rollback without effect. -/
def rollbackRejected (previous : Result) (p : Receipt) : Result :=
  { Result.withOutcome previous previous .rollback p with
    rollbackDefinitiveNoEffect := true, automaticRetry := some false }

/-- The result of a rollback with effect. -/
def rolledBackResult (r : Row) (previous : Result) (p : Receipt) (reconciled : Bool) : Result :=
  Result.withOutcome
    { loadedSha256 := some r.base, functionalRecoveryProven := some false
      reconciledWithoutExecution := reconciled } previous .rollback p

/-- What a receipt proves of a rollback. -/
def rollbackVerdict (r : Row) (p : Receipt) (now : ℚ) : Option (State × Result) :=
  if receiptMatches expiry r p (some .rollback) now then
    if p.definitiveNoEffect = true then
      some (.rollbackRejectedWithoutEffect, rollbackRejected (r.result.getD {}) p)
    else if p.loadedSha256 = some r.base then
      some (.rolledBack, rolledBackResult r (r.result.getD {}) p true)
    else none
  else none

/-- What a receipt proves of an apply. -/
def applyVerdict (r : Row) (p : Receipt) (now : ℚ) : Option (State × Result) :=
  if receiptMatches expiry r p (some .apply) now then
    if p.definitiveNoEffect = true then some (.failedWithoutEffect, withoutEffect r p)
    else if p.loadedSha256 = some r.candidate then
      some (.appliedAwaitingFunctionalProof, appliedResult r p true)
    else if p.loadedSha256 = some r.base ∧ p.definitiveNoDispatch = true then
      some (.confirmedNotApplied, Result.withOutcome
        { definitiveNoDispatch := true, automaticRetry := some false } (r.result.getD {}) .apply p)
    else none
  else none

/-- What a receipt proves. -/
def verdict (r : Row) (p : Receipt) (now : ℚ) : Option (State × Result) :=
  if r.state.busy = false then cleanupVerdict expiry r p now
  else if r.state.rollingBack = true then rollbackVerdict expiry r p now
  else applyVerdict expiry r p now

/-- The state and the result are put, if there are any. -/
def Ledger.settle (op : String) (now : ℚ) (verdict : Option (State × Result)) (l : Ledger) :
    Except String (Ledger × Answer) :=
  match verdict with
  | none => l.status op
  | some v => do
    let l ← l.put op now v.1 v.2
    l.status op

/-- `reconcile` -/
def reconcile (op : String) (now : ℚ) (observe : Row → Except String (Option Receipt)) (l : Ledger) :
    Except String (Ledger × Answer) := do
  let r ← l.row op
  if r.state.busy = false ∧ ¬ r.cleanupDue then return (l, ⟨r, false, none⟩)
  else do
    let answer ← observe r
    match answer with
    | none => return (l, ⟨r, false, some "reconciliation_unavailable"⟩)
    | some p =>
      if p.collectionError ≠ none ∧
          ¬ (receiptMatches expiry r p (r.expected p) now ∧ p.definitiveNoEffect = true) then
        return (l, ⟨r, false, some "reconciliation_unavailable"⟩)
      else l.settle op now (verdict expiry r p now)

/-! ## Verification, cancellation, release -/

/-- The times of a functional proof. -/
def Functional.timely (p : Functional) (appliedAt : Option ℚ) (now : ℚ) : Prop :=
  ∃ applied ∈ appliedAt, ∃ observed ∈ p.observedAt, ∃ before ∈ p.beforeFailedAt,
    ∃ after ∈ p.afterSuccessAt, 0 ≤ observed ∧ 0 ≤ before ∧ 0 ≤ after ∧ 0 ≤ now - observed ∧
      now - observed ≤ 60 ∧ before < after ∧ applied ≤ after ∧ after ≤ observed

instance (p : Functional) (appliedAt : Option ℚ) (now : ℚ) : Decidable (p.timely appliedAt now) := by
  unfold Functional.timely; infer_instance

/-- `verify` -/
def verify (op : String) (now : ℚ) (observer : Row → Except String (Option Functional)) (l : Ledger) :
    Except String (Ledger × Answer) := do
  let r ← l.row op
  need (r.state = .appliedAwaitingFunctionalProof ∨ r.state = .rollbackRejectedWithoutEffect)
    "functional_verification_not_ready"
  let saved ← orFail "functional_verification_not_ready" r.result
  need (saved.securityCleanupConfirmed = some true) "security_cleanup_unconfirmed"
  let answer ← observer r
  let p ← orFail "functional_proof_incomplete" answer
  need (p.collectionError = none ∧ p.loadedSha256 = some r.candidate ∧
    p.sameOperationBeforeFailed = true ∧ p.sameOperationAfterPassed = true ∧
    p.regressionsChecked = true ∧ p.noHouseholdTestEffects = true) "functional_proof_incomplete"
  need (p.operationId = op ∧ p.componentId = r.component ∧ p.taskId = r.task)
    "functional_evidence_identity_mismatch"
  need (p.timely saved.appliedAt now) "functional_evidence_time_unconfirmed"
  need (r.component = "external_heartbeat" → p.destinationReceiptVerified = some true)
    "destination_not_proven"
  let l ← l.put op now .verified
    { loadedSha256 := some r.candidate, functionalProof := some true
      destinationReceiptVerified := p.destinationReceiptVerified, proof := some p
      appliedAt := saved.appliedAt, securityCleanupConfirmed := some true }
  l.status op

/-- `cancel` -/
def cancel (op : String) (now : ℚ) (l : Ledger) : Except String (Ledger × Answer) := do
  let r ← l.row op
  need (r.state = .prepared ∨ r.state = .validated) "uncertain_or_applied_operation_cannot_cancel"
  let l ← l.put op now .failedWithoutEffect
    { canceledBeforeEffect := true, automaticRetry := some false
      securityCleanupConfirmed := some true }
  l.status op

/-- `release` -/
def release (op resultHash : String) (now : ℚ) (l : Ledger) : Except String (Ledger × Answer) := do
  need (isHex 64 resultHash = true) "invalid_sha256"
  let r ← l.row op
  let result ← orFail "uncertain_or_active_reservation_cannot_release" r.result
  if r.state = .released then do
    need (digest result = resultHash) "result_hash_conflict"
    return (l, ⟨r, true, none⟩)
  else do
    need (r.state.terminal = true) "uncertain_or_active_reservation_cannot_release"
    need (result.securityCleanupConfirmed = some true) "security_cleanup_unconfirmed"
    need (digest result = resultHash) "result_hash_conflict"
    let l ← l.put op now .released result
    l.status op

/-! ## Rollback -/

/-- The first transaction of `rollback`. -/
def rollbackBegin (op : String) (now : ℚ) (observe : Row → Except String (Option Live))
    (globalAdminIdle : Bool) (l : Ledger) : Except String (Ledger × Begun) := do
  let r ← l.row op
  if (r.state ≠ .appliedAwaitingFunctionalProof ∧ r.state ≠ .verified) ∨
      (op, .rollbackIntent) ∈ l.receipts then
    return (l, .answered ⟨r, true, none⟩)
  else do
    need (now < expiry) "administrative_lease_expired"
    need (globalAdminIdle = true) "full_admin_operation_active_or_unknown"
    need (l.Idle op) "global_effect_in_flight_or_unknown"
    let answer ← observe r
    let live ← orFail "rollback_precondition_unconfirmed" answer
    need (live.collectionError = none ∧ live.loadedSha256 = some r.candidate ∧
      live.backupVerified = true) "rollback_precondition_unconfirmed"
    let previous ← orFail "rollback_precondition_unconfirmed" r.result
    let l' ← l.put op now .rollbackIntent
      { previous with baseSha256 := some r.base, automaticRetry := some false }
    return ({ l' with admissions := l'.admissions ++ [⟨.rollback, r, live, l.rows⟩] }, .intended r)

/-- What the result of the worker means. -/
def rollbackOutcome (r : Row) (reply : Option Receipt) (now : ℚ) : State × Result :=
  match reply.filter fun p => receiptMatches expiry r p (some .rollback) now with
  | some p =>
    if p.definitiveNoEffect = true then
      (.rollbackRejectedWithoutEffect, rollbackRejected (r.result.getD {}) p)
    else if p.loadedSha256 = some r.base then
      (.rolledBack, rolledBackResult r (r.result.getD {}) p false)
    else (.rollbackUncertain, { r.result.getD {} with automaticRetry := some false })
  | none => (.rollbackUncertain, { r.result.getD {} with automaticRetry := some false })

/-- The second transaction of `rollback`. -/
def rollbackEnd (r : Row) (reply : Option Receipt) (now : ℚ) (l : Ledger) :
    Except String (Ledger × Answer) := do
  let l ← l.put r.id now (rollbackOutcome expiry r reply now).1 (rollbackOutcome expiry r reply now).2
  l.status r.id

end

end

end SmartHome.ComponentRepair
