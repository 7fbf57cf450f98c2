/-
  The task coordinator's store (`task_store.py`): rows for created tasks and for messages sent to
  them, and the operations that update the rows around calls of the transport.

  The caller holds the serial lock during an operation, so no other operation runs between its
  steps; a transaction is one atomic step.
-/
import Mathlib.Data.Rat.Defs
import Mathlib.Algebra.Order.Ring.Rat
import Mathlib.Data.List.Dedup
import SmartHome.Lib.Program
import SmartHome.Lib.Table
import SmartHome.TaskControl.Values

namespace SmartHome.TaskControl

open Verif Program
open SmartHome.Mqtt (isHex)

/-! ## Rows -/

/-- The states of a task. -/
inductive TaskState where
  | createIntent | createUnknown | created | creationLostBeforeSend
  deriving DecidableEq, Repr

/-- The states of a send. -/
inductive SendState where
  | notDispatched | sendIntent | sendUnknown | accepted | inProgress | outcomeUnknown
  | completed | failed | interrupted
  deriving DecidableEq, Repr

/-- `BUSY`, for tasks. -/
def TaskState.busy : TaskState → Bool
  | createIntent | createUnknown => true
  | created | creationLostBeforeSend => false

/-- `BUSY`, for sends. -/
def SendState.busy : SendState → Bool
  | sendIntent | sendUnknown | accepted | inProgress | outcomeUnknown => true
  | notDispatched | completed | failed | interrupted => false

/-- `TERMINAL` -/
def SendState.terminal : SendState → Bool
  | completed | failed | interrupted => true
  | _ => false

/-- The states in which `observe` asks for news. -/
def SendState.observable : SendState → Bool
  | accepted | inProgress | outcomeUnknown => true
  | _ => false

/-- The states that an observation may report. -/
def SendState.ofReply : Json → Option SendState
  | .str "completed" => some completed
  | .str "failed" => some failed
  | .str "interrupted" => some interrupted
  | .str "inProgress" => some inProgress
  | .str "outcome_unknown" => some outcomeUnknown
  | _ => none

/-- A row of `tasks`. -/
structure Task where
  id : String
  taskKey : String
  specHash : String
  thread : Option String
  state : TaskState
  created : ℚ
  updated : ℚ
  reconciled : Bool
  deriving DecidableEq

/-- A row of `sends`. -/
structure Send where
  id : String
  task : String
  inputHash : String
  state : SendState
  turn : Option String
  created : ℚ
  updated : ℚ
  result : Option Json
  reconciled : Bool
  deriving DecidableEq

/-- A text that is there and not empty. -/
def named (o : Option String) : Option String := o.filter (· ≠ "")

/-- The database. -/
structure Db where
  tasks : List Task
  sends : List Send
  creationResults : List (String × Json)

namespace Db
variable (db : Db)

/-- `row('tasks', op)` -/
def task? (op : String) : Option Task := lookup Task.id op db.tasks

/-- `row('sends', op)` -/
def send? (op : String) : Option Send := lookup Send.id op db.sends

/-- `creation_result` -/
def creationResult (op : String) : Option Json :=
  (lookup Prod.fst op db.creationResults).map Prod.snd

/-- `INSERT INTO tasks`, where no key may occur twice. -/
def insertTask (row : Task) : Except String Db := do
  need (∀ t ∈ db.tasks, t.id ≠ row.id ∧ t.taskKey ≠ row.taskKey) "unique_constraint_failed"
  return { db with tasks := db.tasks ++ [row] }

/-- `INSERT INTO sends` -/
def insertSend (row : Send) : Except String Db := do
  need (∀ s ∈ db.sends, s.id ≠ row.id) "unique_constraint_failed"
  return { db with sends := db.sends ++ [row] }

/-- `UPDATE tasks SET ... WHERE id=?` -/
def updateTask (op : String) (change : Task → Task) : Db :=
  { db with tasks := amend Task.id op change db.tasks }

/-- `UPDATE sends SET ... WHERE id=?` -/
def updateSend (op : String) (change : Send → Send) : Db :=
  { db with sends := amend Send.id op change db.sends }

/-- `INSERT INTO creation_results ... ON CONFLICT(id) DO UPDATE` -/
def putCreation (op : String) (result : Json) : Db :=
  { db with creationResults := put Prod.fst (op, result) db.creationResults }

end Db

/-! ## The outside -/

/-- A failure: whether it is a `ValueError`, and its text. -/
structure Failure where
  valueError : Bool
  text : String

/-- `str(error) if ... else 'preflight_unconfirmed'` -/
def Failure.reason (e : Failure) : String :=
  if e.valueError ∧ isReason e.text then e.text else "preflight_unconfirmed"

/-- What the store asks the transport for. -/
inductive Invocation where
  | createPreflight
  | create (op : String)
  | sendPreflight (thread : String)
  | send (thread op text : String)
  | workspaceMessagePreflight (thread : String)
  | workspaceMessage (thread op text : String) (deliveryMode expectedTurn : Json)
  | workspaceMessageObserve (thread turn op : String)
      (deliveryMode expectedTurn replyBoundary knownAck : Json)
  | observe (thread turn op : String)
  | creationProbe (thread : String)
  deriving DecidableEq

/-- What the store asks its surroundings for. -/
inductive Request where
  | clock
  | legacyIdle
  | admission (count : ℕ) (latest : Option ℚ)
  | invoke (i : Invocation)
  deriving DecidableEq

/-- The replies. -/
abbrev Reply : Request → Type
  | .clock => ℚ
  | .legacyIdle | .admission _ _ => Except Failure Unit
  | .invoke _ => Except Failure Json

/-- A step of the store. -/
abbrev Prog := Program Db Reply

/-- A failure of the outside stops the operation. -/
def raised {α : Type} : Except Failure α → Prog α
  | .ok a => pure a
  | .error e => .fail e.text

def clock : Prog ℚ := ask Request.clock

def legacyIdle : Prog Unit := do
  let reply : Except Failure Unit ← ask Request.legacyIdle
  raised reply

def admission (count : ℕ) (latest : Option ℚ) : Prog Unit := do
  let reply : Except Failure Unit ← ask (Request.admission count latest)
  raised reply

def invoke (i : Invocation) : Prog (Except Failure Json) := ask (Request.invoke i)

/-- What an operation returns. -/
inductive Answer where
  | task (row : Option Task) (duplicate : Bool)
  | creation (row : Option Task) (result : Option Json)
  | send (row : Option Send) (duplicate historical : Bool)
  | reconciled (op hash : String)
  | lost (op hash : String) (duplicate : Bool)

def answerTask (op : String) : Prog Answer := do
  let db ← get
  return .task (db.task? op) false

def answerSend (op : String) : Prog Answer := do
  let db ← get
  return .send (db.send? op) false false

/-! ## Creating a task -/

/-- `idle` -/
def idle : Prog Unit := do
  let db ← get
  require (∀ t ∈ db.tasks, t.state.busy = false) "prior_task_requires_reconciliation"
  require (∀ s ∈ db.sends, s.state.busy = false) "prior_task_requires_reconciliation"
  -- a created thread is reserved until instructed or explicitly reconciled
  require (∀ t ∈ db.tasks, t.state = .created → t.reconciled = true) "created_task_reserved"
  require (∀ s ∈ db.sends, s.reconciled = true) "result_requires_central_reconciliation"

section
variable [JsonText]

/-- The thread and the state that `create` records for a reply.  A returned thread is kept even
    where its profile is refused. -/
def created : Except Failure Json → Option String × TaskState
  | .error _ => (none, .createUnknown)
  | .ok reply =>
    match textWhere isUuid (item reply "thread_id") with
    | none => (none, .createUnknown)
    | some thread =>
      if item reply "fixed_profile_verified" = .bool true ∧
          item reply "durable_thread_verified" = .bool true then (some thread, .created)
      else (some thread, .createUnknown)

/-- `finish` of `create`; a thread is registered once. -/
def finishCreate (op : String) (thread : Option String) (state : TaskState) (now : ℚ) (db : Db) :
    Except String Db := do
  need (∀ t ∈ db.tasks, t.id ≠ op → thread ≠ none → t.thread ≠ thread) "unique_constraint_failed"
  return db.updateTask op fun t => { t with thread, state, updated := now }

/-- `create` for an operation without a row. -/
def createNew (spec : TaskSpec) (hashed : String) : Prog Answer := do
  idle
  legacyIdle
  let db ← get
  require (∀ t ∈ db.tasks, t.taskKey ≠ spec.taskKey) "duplicate_task_key"
  let ready ← invoke .createPreflight
  let _ ← raised ready
  let now ← clock
  transaction (·.insertTask
    ⟨spec.operationId, spec.taskKey, hashed, none, .createIntent, now, now, false⟩)
  let reply ← invoke (.create spec.operationId)
  let now ← clock
  transaction (finishCreate spec.operationId (created reply).1 (created reply).2 now)
  answerTask spec.operationId

/-- `create` -/
def create (q : Json) : Prog Answer := do
  let spec ← lift (taskSpec q)
  let db ← get
  match db.task? spec.operationId with
  | some old =>
    require (old.specHash = fingerprint q) "operation_id_conflict"
    return .task (some old) true
  | none => createNew spec (fingerprint q)

/-! ## Sending a message -/

/-- The result of a message that was refused before it was sent. -/
def refusal (reason : String) : List (String × Json) :=
  [("operation_state", .str "not_dispatched"), ("send_called", .bool false),
    ("execution_proven", .bool false), ("reason", .str reason), ("automatic_retry", .bool false)]

/-- The state and the turn that `send` records for a reply. -/
def sent : Except Failure Json → SendState × Option String
  | .error _ => (.sendUnknown, none)
  | .ok reply =>
    match textWhere isUuid (item reply "turn_id") with
    | none => (.sendUnknown, none)
    | some turn =>
      if item reply "operation_state" = .str "accepted" then (.accepted, some turn)
      else (.sendUnknown, none)

/-- The count and the latest time of sends that `admission` gets. -/
def askAdmission : Prog Unit := do
  let now ← clock
  let db ← get
  admission (db.sends.countP fun s => now - 86400 < s.created) (db.sends.map Send.created).max?

/-- A refused message is recorded. -/
def recordRefusal (op task hashed : String) (result : Json) : Prog Answer := do
  let now ← clock
  transaction (·.insertSend ⟨op, task, hashed, .notDispatched, none, now, now, some result, false⟩)
  answerSend op

/-- `send` to a task after the preflight. -/
def dispatchSend (q : SendSpec) (task : String) (thread hashed : String) : Prog Answer := do
  let now ← clock
  transaction (·.insertSend
    ⟨q.operationId, task, hashed, .sendIntent, none, now, now, none, false⟩)
  let reply ← invoke (.send thread q.operationId q.text)
  let now ← clock
  transaction fun db => .ok <|
    (db.updateSend q.operationId fun s =>
      { s with state := (sent reply).1, turn := (sent reply).2, updated := now }).updateTask task
        fun t => { t with reconciled := true }
  answerSend q.operationId

/-- `send` to the task `task`. -/
def sendTask (q : SendSpec) (hashed : String) (task : Task) (thread : String) : Prog Answer := do
  let db ← get
  -- only the reservation of this task is lifted, all other gates remain
  require (∀ t ∈ db.tasks, t.id ≠ task.id → t.reconciled = true) "other_task_reserved"
  require (∀ s ∈ db.sends, s.state.busy = false ∧ s.reconciled = true)
    "prior_send_requires_reconciliation"
  legacyIdle
  askAdmission
  let ready ← invoke (.sendPreflight thread)
  match ready with
  | .error e => recordRefusal q.operationId task.id hashed (.obj (refusal e.reason))
  | .ok _ => dispatchSend q task.id thread hashed

/-- The context of a message to a workspace, where the preflight gives a plan. -/
def plan (thread : String) : Except Failure Json → Except String Json
  | .error e => .error e.reason
  | .ok plan => plannedContext thread plan

/-- The receipt of an accepted workspace message and its turn. -/
def workspaceSent (thread : String) (context reply : Json) : Except String (Json × String) := do
  checkedWorkspaceReceipt reply thread context none
  let turn ← orFail "workspace_send_unconfirmed" (textWhere isUuid (item reply "turn_id"))
  need (item reply "operation_state" = .str "accepted" ∧ item reply "input_accepted" = .bool true ∧
    (item context "delivery_mode" = .str "active_steer" →
      .str turn = item context "expected_turn_id")) "workspace_send_unconfirmed"
  return (reply, turn)

/-- What `send_workspace` records for a reply: the result, the state and the turn. -/
def workspaceOutcome (thread : String) (context : Json) (reply : Except Failure Json) :
    Json × SendState × Option String :=
  match reply.toOption.bind fun reply => (workspaceSent thread context reply).toOption with
  | some (receipt, turn) => (receipt, .accepted, some turn)
  | none => (update context [("operation_state", .str "send_unknown"), ("input_accepted", .null),
      ("automatic_retry", .bool false)], .sendUnknown, none)

/-- `send_workspace` after the preflight. -/
def dispatchWorkspace (q : SendSpec) (hashed thread : String) (context : Json) : Prog Answer := do
  let now ← clock
  transaction (·.insertSend ⟨q.operationId, workspacePrefix ++ thread, hashed, .sendIntent, none,
    now, now, some (update context [("operation_state", .str "send_intent"),
      ("input_accepted", .null), ("automatic_retry", .bool false)]), false⟩)
  let reply ← invoke (.workspaceMessage thread q.operationId q.text (item context "delivery_mode")
    (item context "expected_turn_id"))
  let outcome := workspaceOutcome thread context reply
  require (size outcome.1 ≤ 8192) "result_limit"
  let now ← clock
  transaction fun db => .ok <| db.updateSend q.operationId fun s =>
    { s with state := outcome.2.1, turn := outcome.2.2, result := some outcome.1, updated := now }
  answerSend q.operationId

/-- The workspaces that sends name (`LIKE` does not distinguish cases). -/
def workspaceReferences (db : Db) : List String :=
  ((db.sends.map Send.task).filter fun t =>
    workspacePrefix.toList.isPrefixOf (t.toList.map Char.toLower)).dedup

/-- `send_workspace` -/
def sendWorkspace (q : SendSpec) (hashed : String) : Prog Answer := do
  let thread ← lift (workspaceReference q.taskId)
  let db ← get
  require ((db.task? q.taskId).isNone) "workspace_reference_task_collision"
  -- a message does not bypass an operation that is registered or not yet reconciled
  idle
  legacyIdle
  require ((∃ s ∈ db.sends, s.task = workspacePrefix ++ thread) ∨
    (workspaceReferences db).length < maxWorkspaceReferences) "workspace_reference_capacity"
  askAdmission
  let ready ← invoke (.workspaceMessagePreflight thread)
  match plan thread ready with
  | .error reason =>
    recordRefusal q.operationId (workspacePrefix ++ thread) hashed
      (update (workspaceContext thread) (refusal reason))
  | .ok context => dispatchWorkspace q hashed thread context

/-- The hash of an imported refusal, whose text was not kept. -/
def noHash : String := String.ofList (List.replicate 64 '0')

/-- `send` for an operation without a row. -/
def sendNew (q : SendSpec) (hashed : String) (allowWorkspace : Bool) : Prog Answer := do
  let db ← get
  match db.task? q.taskId with
  | none =>
    require (allowWorkspace = true) "task_not_admitted"
    sendWorkspace q hashed
  | some task =>
    -- a task row owns its identifier, whatever its state
    require (task.state = .created) "task_not_admitted"
    let thread ← lift (orFail "task_not_admitted" (named task.thread))
    sendTask q hashed task thread

/-- `send` -/
def send (q : Json) (allowWorkspace : Bool) : Prog Answer := do
  let spec ← lift (sendSpec q)
  let db ← get
  match db.send? spec.operationId with
  | some old =>
    if old.state = .notDispatched ∧ old.inputHash = noHash then
      return .send (some old) true true
    else do
      require (old.inputHash = fingerprint q) "operation_id_conflict"
      return .send (some old) true false
  | none => sendNew spec (fingerprint q) allowWorkspace

/-! ## Observing a message -/

/-- The reply to an observation of a workspace message. -/
def observeWorkspace (row : Send) (turn thread : String) : Prog Json := do
  let previous ← lift (orFail "result_missing" row.result)
  require (isDict previous) "result_invalid"
  let context := update (workspaceContext thread)
    [("delivery_mode", item previous "delivery_mode"),
      ("expected_turn_id", item previous "expected_turn_id")]
  let reply ← invoke (.workspaceMessageObserve thread turn row.id (item context "delivery_mode")
    (item context "expected_turn_id")
    ((previous.get? "reply_boundary").getD (.obj [("state", .str "unknown"), ("item_id", .null)]))
    (item previous "acknowledgement_evidence"))
  let reply ← raised reply
  lift (checkedWorkspaceReceipt reply thread context (some (row.id, turn)))
  require (item reply "input_accepted" = .bool true ∧
    (item reply "answer_withheld" = .bool true ∨ item reply "answer_withheld" = .bool false) ∧
    item reply "completion_scope" = .str "receiver_turn_and_bounded_agent_reply")
    "workspace_observation_unconfirmed"
  return reply

/-- The reply to an observation of a message to a task. -/
def observeTask (row : Send) (turn : String) : Prog Json := do
  let db ← get
  let task ← lift (orFail "task_not_admitted" (db.task? row.task))
  let thread ← lift (orFail "task_not_admitted" (named task.thread))
  let reply ← invoke (.observe thread turn row.id)
  raised reply

/-- What `observe` records. -/
def recordObservation (row : Send) (reply : Json) : Prog Answer := do
  let state ← lift (orFail "turn_state_unconfirmed" (SendState.ofReply (item reply "operation_state")))
  require (size reply ≤ 8192) "result_limit"
  let now ← clock
  transaction fun db => .ok <| db.updateSend row.id fun s =>
    { s with state, result := some reply, updated := now }
  answerSend row.id

/-- `observe` of a running message with a turn. -/
def observeRunning (row : Send) (turn : String) : Prog Answer := do
  let workspace ← lift (workspaceThread row.task)
  match workspace with
  | some thread => do
    let reply ← observeWorkspace row turn thread
    recordObservation row reply
  | none => do
    let reply ← observeTask row turn
    recordObservation row reply

/-- `observe`: a failure to observe never ends a message nor sends it again. -/
def observe (op : String) : Prog Answer := do
  let db ← get
  let row ← lift (orFail "send_not_found" (db.send? op))
  match named row.turn with
  | some turn =>
    if row.state.observable then observeRunning row turn else return .send (some row) false false
  | none => return .send (some row) false false

/-! ## Observing a creation -/

/-- The result of a probe. -/
def creationReceipt (observed : Json) (op : String) : Json :=
  update observed [("kind", .str "creation"), ("operation_id", .str op), ("send_rows", .int 0)]

/-- `observe_creation` of a task with a thread and without sends. -/
def observeThread (task : Task) (thread : String) : Prog Answer := do
  let reply ← invoke (.creationProbe thread)
  let observed ← raised reply
  let found ← lift (creationObservation observed thread)
  let result := creationReceipt observed task.id
  require (size result ≤ 2048) "creation_observation_limit"
  let now ← clock
  transaction fun db => .ok <|
    if found = .durableReady ∧ task.state = .createUnknown then
      (db.putCreation task.id result).updateTask task.id fun t =>
        { t with state := .created, updated := now }
    else db.putCreation task.id result
  let db ← get
  return .creation (db.task? task.id) (some result)

/-- `observe_creation` -/
def observeCreation (op : String) : Prog Answer := do
  let db ← get
  let task ← lift (orFail "task_not_found" (db.task? op))
  match named task.thread with
  | some thread =>
    if (task.state = .created ∨ task.state = .createUnknown) ∧ ∀ s ∈ db.sends, s.task ≠ op then
      observeThread task thread
    else return .creation (some task) (db.creationResult op)
  | none => return .creation (some task) (db.creationResult op)

/-! ## Reconciling -/

/-- The last step of `reconcile_creation`: absence is checked again under the same lock before the
    reservation is released. -/
def releaseCreation (op hash : String) (thread : String) : Prog Answer := do
  let reply ← invoke (.creationProbe thread)
  let current ← raised reply
  let _ ← lift (creationObservation current thread)
  require (fingerprint (creationReceipt current op) = hash) "creation_observation_changed"
  let now ← clock
  transaction fun db => .ok <| db.updateTask op fun t =>
    { t with state := .creationLostBeforeSend, reconciled := true, updated := now }
  return .lost op hash false

/-- `reconcile_creation` -/
def reconcileCreation (op hash : String) : Prog Answer := do
  let db ← get
  let task ← lift (orFail "creation_result_unconfirmed" (db.task? op))
  let result ← lift (orFail "creation_result_unconfirmed" (db.creationResult op))
  require (item result "state" = .str "missing_before_first_send" ∧ fingerprint result = hash)
    "creation_result_unconfirmed"
  if task.state = .creationLostBeforeSend ∧ task.reconciled = true then
    return .lost op hash true
  else do
    let thread ← lift (orFail "creation_has_send_or_changed_state" (named task.thread))
    require ((task.state = .created ∨ task.state = .createUnknown) ∧ ∀ s ∈ db.sends, s.task ≠ op)
      "creation_has_send_or_changed_state"
    releaseCreation op hash thread

/-- The proof that a message was never sent, and the task whose reservation it holds. -/
def checkRefusal (db : Db) (current : Send) (proof : Json) : Except String (Option Task) := do
  need (isDict proof ∧ item proof "operation_state" = .str "not_dispatched" ∧
    item proof "send_called" = .bool false ∧ item proof "execution_proven" = .bool false ∧
    current.turn = none) "not_dispatched_proof_unconfirmed"
  match ← workspaceThread current.task with
  | some thread => do
    checkedWorkspaceReceipt proof thread (workspaceContext thread) none
    return none
  | none => do
    let task ← orFail "task_not_admitted" (db.task? current.task)
    need (task.state = .created ∧ (textWhere isUuid (task.thread.elim .null .str)).isSome)
      "task_not_admitted"
    return some task

/-- The reservation of the task is released. -/
def releaseTask (op : String) (db : Db) : Option Task → Except String Db
  | none => .ok db
  | some task =>
    if task.reconciled = true then .ok db
    else do
      need (∀ s ∈ db.sends, s.task = task.id → s.id ≠ op →
        s.state.busy = false ∧ s.reconciled = true) "task_has_other_unresolved_sends"
      return db.updateTask task.id fun t => { t with reconciled := true }

/-- What the reconciliation of a refused message does to the reservation of its task. -/
def releaseReservation (current : Send) (result : Json) (db : Db) : Except String Db :=
  if current.state = .notDispatched then
    checkRefusal db current result >>= releaseTask current.id db
  else .ok db

/-- `finish` of `reconcile`. -/
def finishReconcile (row : Send) (hash : String) (db : Db) : Except String Db := do
  let current ← orFail "result_changed" (db.send? row.id)
  let result ← orFail "result_changed" current.result
  need (current.task = row.task ∧ current.turn = row.turn ∧ current.state = row.state ∧
    current.result = row.result ∧ fingerprint result = hash) "result_changed"
  let released ← releaseReservation current result db
  return if current.reconciled then released
    else released.updateSend row.id fun s => { s with reconciled := true }

/-- `reconcile`: it cannot release an uncertain or running operation. -/
def reconcile (op hash : String) : Prog Answer := do
  let db ← get
  let row ← lift (orFail "not_terminal" (db.send? op))
  let result ← lift (orFail "not_terminal" row.result)
  require (row.state.terminal = true ∨ row.state = .notDispatched) "not_terminal"
  require (fingerprint result = hash) "result_hash_conflict"
  if row.reconciled = true ∧ row.state ≠ .notDispatched then
    return .reconciled op hash
  else do
    transaction (finishReconcile row hash)
    return .reconciled op hash

/-! ## The operations -/

/-- The calls of the store. -/
inductive Command where
  | create (q : Json)
  | send (q : Json) (allowWorkspace : Bool)
  | observe (op : String)
  | observeCreation (op : String)
  | reconcile (op hash : String)
  | reconcileCreation (op hash : String)
  deriving DecidableEq

def Command.program : Command → Prog Answer
  | .create q => TaskControl.create q
  | .send q allowWorkspace => TaskControl.send q allowWorkspace
  | .observe op => TaskControl.observe op
  | .observeCreation op => TaskControl.observeCreation op
  | .reconcile op hash => TaskControl.reconcile op hash
  | .reconcileCreation op hash => TaskControl.reconcileCreation op hash

end

end SmartHome.TaskControl
