/-
  The job ledger (`JobLedger` of `component_jobs.py`) and the coordinator of component repairs
  (`RootCoordinator` of `root_coordinator.py`).

  The coordinator and the workers are processes of their own over the same two ledgers; a request
  or a worker is a program whose atomic steps are the transactions.  The jobs that only validate
  never reach the workflow and are left out.
-/
import SmartHome.Lib.Program
import SmartHome.ComponentRepair.Workflow

namespace SmartHome.ComponentRepair

open Verif Program
open SmartHome.Mqtt (isHex)

/-! ## The job ledger -/

/-- What a job is bound to. -/
structure Binding where
  operationId : String
  taskId : String
  componentId : String
  principalSha256 : String
  beforeSha256 : String
  afterSha256 : String
  action : Action
  deriving DecidableEq

/-- A row of `reviews`. -/
structure Review where
  id : String
  task : String
  principal : String
  component : String
  expires : ℚ
  deriving DecidableEq

/-- `STATES` -/
inductive JobState where
  | queued | launchIntent | running | terminal | uncertain | launchRejectedWithoutEffect
  deriving DecidableEq, Repr

inductive JobReceipt where
  | startUnconfirmed
  | outcomeUnconfirmed
  | workflow (state : State) (result : Option Result) (reconciled : Bool)
  deriving DecidableEq

/-- A row of `jobs`. -/
structure Job where
  operation : String
  action : Action
  binding : Binding
  state : JobState
  created : ℚ
  updated : ℚ
  receipt : Option JobReceipt
  deriving DecidableEq

def Job.key (j : Job) : String × Action := (j.operation, j.action)

structure Jobs where
  jobs : List Job
  reviews : List Review
  audit : List (String × Action × JobState)

/-- `get` -/
def Jobs.get (op : String) (action : Action) (js : Jobs) : Option Job := lookup Job.key (op, action) js.jobs

/-- The checks of `enqueue` before its transaction. -/
def Jobs.admits (b : Binding) (now : ℚ) (cleanupPending : Bool) (js : Jobs) : Except String Unit := do
  need (isHex 32 b.operationId = true ∧ isHex 32 b.taskId = true ∧ isHex 64 b.principalSha256 = true ∧
    isHex 64 b.beforeSha256 = true ∧ isHex 64 b.afterSha256 = true) "invalid_bound_identity"
  need (b.componentId ∈ components) "job_component_or_action_refused"
  need (cleanupPending = false) "observation_security_cleanup_pending"
  let review ← orFail "protected_review_not_registered" (lookup Review.id b.operationId js.reviews)
  need (review.task = b.taskId ∧ review.principal = b.principalSha256 ∧
    review.component = b.componentId ∧ now + 90 < review.expires) "job_review_identity_or_expiry"

/-- The transaction of `enqueue`. -/
def Jobs.enqueue (b : Binding) (now : ℚ) (js : Jobs) : Except String (Jobs × Unit) :=
  match js.get b.operationId b.action with
  | some old => do
    need (old.binding = b) "component_job_id_conflict"
    return (js, ())
  | none => do
    need (js.jobs.length < 192) "component_job_capacity"
    need (js.audit.length < 1024) "component_job_audit_capacity"
    return ({ js with
      jobs := js.jobs ++ [⟨b.operationId, b.action, b, .queued, now, now, none⟩]
      audit := js.audit ++ [(b.operationId, b.action, .queued)] }, ())

section
variable [Canonical JobReceipt]

/-- `transition`: the state is compared and swapped; without a new receipt the old one stays. -/
def Jobs.transition (op : String) (action : Action) (expected state : JobState)
    (receipt : Option JobReceipt) (now : ℚ) (js : Jobs) : Except String (Jobs × Unit) := do
  need (∃ j ∈ js.get op action, j.state = expected) "component_job_CAS_conflict"
  need (∀ r ∈ receipt, size r ≤ 16384) "component_job_receipt_limit"
  need (js.audit.length < 1024) "component_job_audit_capacity"
  return ({ js with
    jobs := amend Job.key (op, action)
      (fun j => { j with state, updated := now, receipt := receipt.or j.receipt }) js.jobs
    audit := js.audit ++ [(op, action, state)] }, ())

end

/-! ## The outside -/

/-- Both ledgers. -/
structure Site where
  flow : Ledger
  jobs : Jobs

/-- What the programs ask the outside for. -/
inductive Request where
  | clock
  /-- What the observer would see of a row. -/
  | observe
  /-- The receipt that the worker has for a row. -/
  | previous (op : String) (action : Action)
  | functional
  | verifier
  /-- The worker runs.  An exception counts as no receipt; only what Python does not call an
      `Exception` goes on to the caller. -/
  | run (op : String) (action : Action)
  | launch (op : String) (action : Action)
  | review (b : Binding)
  | cleanupPending
  | resources

/-- The replies; whatever is asked for may raise, or answer something of another shape. -/
abbrev Reply : Request → Type
  | .clock => ℚ
  | .observe => Row → Except String (Option Live)
  | .previous _ _ => Row → Except String (Option Receipt)
  | .functional => Row → Except String (Option Functional)
  | .verifier => Row → Except String (Option Validation)
  | .run _ _ => Except String (Option Receipt)
  | .launch _ _ => Except String Bool
  | .review _ => Except String Unit
  | .cleanupPending => Bool
  | .resources => Except String Bool

abbrev Prog := Program Site Reply

/-- A transaction on the workflow ledger. -/
def onFlow {β : Type} (f : Ledger → Except String (Ledger × β)) : Prog β :=
  commit fun s => do
    let r ← f s.flow
    return ({ s with flow := r.1 }, r.2)

/-- A transaction on the job ledger. -/
def onJobs {β : Type} (f : Jobs → Except String (Jobs × β)) : Prog β :=
  commit fun s => do
    let r ← f s.jobs
    return ({ s with jobs := r.1 }, r.2)

def clock : Prog ℚ := ask Request.clock

/-! ## Calls of the workflow -/

section
variable [Canonical Result] (expiry : ℚ)

/-- `Workflow.apply` -/
def flowApply (op : String) (globalAdminIdle resourcesAvailable : Bool) : Prog Answer := do
  let now ← clock
  let observe : Row → Except String (Option Live) ← ask Request.observe
  let begun ← onFlow (applyBegin expiry op now observe globalAdminIdle resourcesAvailable)
  match begun with
  | .answered answer => return answer
  | .intended r => do
    let reply : Except String (Option Receipt) ← ask (Request.run r.id .apply)
    let result ← lift reply
    let now ← clock
    onFlow (applyEnd expiry r result now)

/-- `Workflow.rollback` -/
def flowRollback (op : String) (globalAdminIdle : Bool) : Prog Answer := do
  let now ← clock
  let observe : Row → Except String (Option Live) ← ask Request.observe
  let begun ← onFlow (rollbackBegin expiry op now observe globalAdminIdle)
  match begun with
  | .answered answer => return answer
  | .intended r => do
    let reply : Except String (Option Receipt) ← ask (Request.run r.id .rollback)
    let result ← lift reply
    let now ← clock
    onFlow (rollbackEnd expiry r result now)

/-- `Workflow.prepare` -/
def flowPrepare (q : Preparation) : Prog Answer := do
  let now ← clock
  onFlow (prepare expiry q now)

/-- `Workflow.validate` -/
def flowValidate (op : String) : Prog Answer := do
  let now ← clock
  let verifier : Row → Except String (Option Validation) ← ask Request.verifier
  onFlow (validate expiry op now verifier)

/-- `Workflow.reconcile` -/
def flowReconcile (op : String) (action : Action) (allowed : Row → Except String Unit) : Prog Answer := do
  let now ← clock
  let previous : Row → Except String (Option Receipt) ← ask (Request.previous op action)
  onFlow (reconcile expiry op now fun r => do
    allowed r
    previous r)

/-- `Workflow.verify` -/
def flowVerify (op : String) : Prog Answer := do
  let now ← clock
  let observer : Row → Except String (Option Functional) ← ask Request.functional
  onFlow (verify op now observer)

/-- `Workflow.cancel` -/
def flowCancel (op : String) : Prog Answer := do
  let now ← clock
  onFlow (cancel op now)

/-- `Workflow.release` -/
def flowRelease (op resultHash : String) : Prog Answer := do
  let now ← clock
  onFlow (release op resultHash now)

end

/-! ## The coordinator -/

/-- `SUPPORTED` -/
def supported : List String := ["observacao_host"]

/-- `status` -/
structure Report where
  row : Row
  jobs : List Job

section
variable [Canonical Result] [Canonical JobReceipt] (expiry : ℚ) (principal : String)

/-- `status` -/
def status (op : String) : Prog Report := do
  let s ← get
  let row ← lift (s.flow.row op)
  return ⟨row, (s.jobs.get op .apply).toList ++ (s.jobs.get op .rollback).toList⟩

/-- The binding of a row to an action. -/
def bindingOf (row : Row) (action : Action) : Binding where
  operationId := row.id
  taskId := row.task
  componentId := row.component
  principalSha256 := principal
  beforeSha256 := if action = .apply then row.base else row.candidate
  afterSha256 := if action = .apply then row.candidate else row.base
  action := action

/-- `binding` -/
def binding (op : String) (action : Action) : Prog Binding := do
  let s ← get
  let row ← lift (s.flow.row op)
  require (row.component ∈ supported) "component_effect_port_not_activated"
  let reply : Except String Unit ← ask (Request.review (bindingOf principal row action))
  lift reply
  return bindingOf principal row action

/-- A transition at the present time. -/
def move (op : String) (action : Action) (expected state : JobState) (receipt : Option JobReceipt) :
    Prog Unit := do
  let now ← clock
  onJobs (Jobs.transition op action expected state receipt now)

/-- The states of the workflow from which an action may be submitted. -/
def ready : Action → State → Bool
  | .apply, .validated => true
  | .rollback, .appliedAwaitingFunctionalProof => true
  | .rollback, .verified => true
  | _, _ => false

/-- `enqueue` -/
def enqueue (b : Binding) : Prog Unit := do
  let now ← clock
  let pending : Bool ← ask Request.cleanupPending
  let s ← get
  lift (s.jobs.admits b now pending)
  onJobs (Jobs.enqueue b now)

/-- The bound launcher. -/
def launch (op : String) (action : Action) : Prog Unit := do
  let reply : Except String Bool ← ask (Request.launch op action)
  let accepted ← lift reply
  require (accepted = true) "job_start_not_confirmed"

/-- A job in the state `state`, if it is still there, becomes uncertain. -/
def giveUp (op : String) (action : Action) (state : JobState) (receipt : JobReceipt) : Prog Unit := do
  let s ← get
  let job ← lift (orFail "component_job_not_found" (s.jobs.get op action))
  if job.state = state then move op action state .uncertain (some receipt)
  else return ()

/-- `submit`, where there is no job yet. -/
def submitNew (op : String) (action : Action) (b : Binding) : Prog Report := do
  let s ← get
  let row ← lift (s.flow.row op)
  require (ready action row.state = true) "component_workflow_not_ready"
  enqueue b
  move op action .queued .launchIntent none
  let accepted ← attempt (launch op action)
  match accepted with
  | .ok _ => status op
  | .error _ => do
    giveUp op action .launchIntent .startUnconfirmed
    status op

/-- `submit` -/
def submit (op : String) (action : Action) (expected : String) : Prog Report := do
  require (isHex 64 expected = true) "invalid_bound_identity"
  let now ← clock
  require (now + 90 < expiry) "operator_lease_completion_margin"
  let b ← binding principal op action
  require (expected = b.beforeSha256) "loaded_precondition_does_not_match_bound_operation"
  let s ← get
  match s.jobs.get op action with
  | some _ => status op
  | none => submitNew op action b

/-- A job that a worker may claim: it was launched, or its start is uncertain. -/
def Job.claimable (j : Job) : Prop :=
  j.state = .launchIntent ∨ (j.state = .uncertain ∧ j.receipt = some .startUnconfirmed)

instance (j : Job) : Decidable j.claimable := by unfold Job.claimable; infer_instance

/-- The effect of a claimed job. -/
def perform (op : String) (action : Action) : Prog Answer := do
  let now ← clock
  require (now + 90 < expiry) "operator_lease_completion_margin"
  let reply : Except String Bool ← ask Request.resources
  let isNone ← lift reply
  require (isNone = true) "resource_gate_contract_changed"
  match action with
  | .apply => flowApply expiry op true true
  | .rollback => flowRollback expiry op true

/-- The effect of a claimed job, and its record. -/
def conclude (op : String) (action : Action) : Prog Unit := do
  let result ← perform expiry op action
  move op action .running (if result.row.state.busy = true then .uncertain else .terminal)
    (some (.workflow result.row.state result.row.result false))

/-- `run_once` -/
def runOnce (op : String) (action : Action) : Prog Report := do
  let b ← binding principal op action
  let s ← get
  let job ← lift (orFail "durable_job_binding_mismatch" (s.jobs.get op action))
  require (job.binding = b) "durable_job_binding_mismatch"
  if job.claimable then do
    -- the job is claimed once; no other process can be started from this state
    move op action job.state .running none
    let outcome ← attempt (conclude expiry op action)
    match outcome with
    | .ok _ => status op
    | .error _ => do
      giveUp op action .running .outcomeUnconfirmed
      status op
  else status op

/-- A settled operation ends the job of its action. -/
def closeJob (op : String) (action : Action) (out : Answer) : Prog Unit := do
  let s ← get
  match s.jobs.get op action with
  | none => return ()
  | some job =>
    if (job.state = .running ∨ job.state = .uncertain ∨ job.state = .launchIntent) ∧
        out.row.state ≠ .prepared ∧ out.row.state ≠ .validated ∧ out.row.state.busy = false then
      move op action job.state .terminal (some (.workflow out.row.state out.row.result true))
    else return ()

/-- `reconcile` -/
def reconcileOp (op : String) : Prog Report := do
  let s ← get
  let row ← lift (s.flow.row op)
  let action := if row.state.rollingBack = true then Action.rollback else .apply
  let reply : Except String Unit ← ask (Request.review (bindingOf principal row action))
  let out ← flowReconcile expiry op action fun r => do
    need (r.component ∈ supported) "component_effect_port_not_activated"
    reply
  closeJob op action out
  status op

/-- What the processes are started for. -/
inductive Command where
  | prepare (q : Preparation)
  | validate (op : String)
  | submit (op : String) (action : Action) (expected : String)
  | runOnce (op : String) (action : Action)
  | reconcile (op : String)
  | verify (op : String)
  | cancel (op : String)
  | release (op resultHash : String)
  | status (op : String)

/-- The program of a process. -/
def serve : Command → Prog Unit
  | .prepare q => do let _ ← flowPrepare expiry q; return ()
  | .validate op => do let _ ← flowValidate expiry op; return ()
  | .submit op action expected => do let _ ← submit expiry principal op action expected; return ()
  | .runOnce op action => do let _ ← runOnce expiry principal op action; return ()
  | .reconcile op => do let _ ← reconcileOp expiry principal op; return ()
  | .verify op => do let _ ← flowVerify op; return ()
  | .cancel op => do let _ ← flowCancel op; return ()
  | .release op resultHash => do let _ ← flowRelease op resultHash; return ()
  | .status op => do let _ ← status op; return ()

end

end SmartHome.ComponentRepair
