/-
  The values that the task coordinator exchanges: identifiers, requests, and the receipts that
  the transport returns (`task_store.py`).
-/
import SmartHome.Lib.Dict
import SmartHome.Mqtt.Counters

namespace SmartHome.TaskControl

open Verif
open SmartHome.Mqtt (isHex)

/-! ## Texts -/

/-- What the code computes from the JSON text of a value: its hash and its length in bytes. -/
class JsonText where
  fingerprint : Json → String
  size : Json → ℕ

export JsonText (fingerprint size)

/-- A hexadecimal digit of `[a-f0-9]`. -/
def isHexDigit (c : Char) : Bool := c.isDigit || ('a' ≤ c && c ≤ 'f')

/-- `UUID.fullmatch` -/
def isUuid (s : String) : Bool :=
  s.toList.length = 36 && s.toList.zipIdx.all fun p =>
    if p.2 ∈ [8, 13, 18, 23] then p.1 = '-' else isHexDigit p.1

/-- `re.fullmatch('[a-z_]{1,60}', s)` -/
def isReason (s : String) : Bool :=
  0 < s.toList.length && s.toList.length ≤ 60 && s.toList.all fun c => ('a' ≤ c && c ≤ 'z') || c = '_'

/-- `re.fullmatch('[a-z][a-z0-9-]{2,63}', s)` -/
def isTaskKey (s : String) : Bool :=
  3 ≤ s.toList.length && s.toList.length ≤ 64 &&
    (s.toList.head?.any fun c => 'a' ≤ c && c ≤ 'z') &&
    s.toList.all fun c => ('a' ≤ c && c ≤ 'z') || c.isDigit || c = '-'

/-- `re.fullmatch('[A-Za-z0-9_-]{1,128}', s)` -/
def isItemId (s : String) : Bool :=
  0 < s.toList.length && s.toList.length ≤ 128 &&
    s.toList.all fun c => c.isAlpha || c.isDigit || c = '_' || c = '-'

/-! ## Workspace messages -/

/-- `WORKSPACE_PREFIX` -/
def workspacePrefix : String := "workspace:"

/-- `MAX_WORKSPACE_REFERENCES` -/
def maxWorkspaceReferences : ℕ := 64

/-- `workspace_thread` -/
def workspaceThread (value : String) : Except String (Option String) :=
  if workspacePrefix.toList <+: value.toList then do
    let identifier := String.ofList (value.toList.drop workspacePrefix.toList.length)
    need (isUuid identifier = true) "invalid_workspace_message_reference"
    return some identifier
  else .ok none

/-- `workspace_reference` -/
def workspaceReference (value : String) : Except String String := do
  need (isHex 32 value = true) "invalid_workspace_message_reference"
  let cs := value.toList
  let part (a b : ℕ) := String.ofList ((cs.drop a).take (b - a))
  return part 0 8 ++ "-" ++ part 8 12 ++ "-" ++ part 12 16 ++ "-" ++ part 16 20 ++ "-" ++ part 20 32

/-- `workspace_context` without a plan. -/
def workspaceContext (thread : String) : Json :=
  .obj [("route", .str "workspace_thread_communication"), ("target_thread_id", .str thread),
    ("delivery_mode", .null), ("expected_turn_id", .null), ("profile_preserved", .bool true),
    ("authority_changed", .bool false), ("assistant_acknowledged", .bool false)]

/-- `workspace_context` with the plan of a preflight. -/
def plannedContext (thread : String) (plan : Json) : Except String Json := do
  let mode := item plan "delivery_mode"
  let expected := item plan "expected_turn_id"
  need (hasKeys plan ["operation_state", "thread_id", "delivery_mode", "expected_turn_id",
      "profile_preserved", "authority_changed"] ∧ item plan "operation_state" = .str "ready" ∧
      item plan "thread_id" = .str thread ∧ item plan "profile_preserved" = .bool true ∧
      item plan "authority_changed" = .bool false) "workspace_preflight_unconfirmed"
  need ((mode = .str "idle_start" ∧ expected = .null) ∨
    (mode = .str "active_steer" ∧ (textWhere isUuid expected).isSome)) "workspace_preflight_unconfirmed"
  return update (workspaceContext thread) [("delivery_mode", mode), ("expected_turn_id", expected)]

/-- The keys of a context that a receipt repeats. -/
def contextKeys : List String :=
  ["route", "target_thread_id", "delivery_mode", "expected_turn_id", "profile_preserved",
    "authority_changed"]

/-- `checked_workspace_receipt`.  Where the caller allows an acknowledgement it names the
    operation and the turn. -/
def checkedWorkspaceReceipt (value : Json) (thread : String) (context : Json)
    (acknowledged : Option (String × String)) : Except String Unit := do
  need (isDict value ∧ (∀ k ∈ contextKeys, item value k = item context k) ∧
    item value "route" = .str "workspace_thread_communication" ∧
    item value "target_thread_id" = .str thread ∧ item value "profile_preserved" = .bool true ∧
    item value "authority_changed" = .bool false) "workspace_receipt_context_unconfirmed"
  let acknowledgement := item value "assistant_acknowledged"
  need (acknowledgement = .bool false ∨
      acknowledged.isSome ∧ (acknowledgement = .null ∨ acknowledgement = .bool true))
    "workspace_ack_evidence_unconfirmed"
  let evidence := item value "acknowledgement_evidence"
  need (acknowledgement = .bool true →
    hasKeys evidence ["source", "operation_id", "turn_id", "item_id"] ∧
      item evidence "source" = .str "exact_operation_reference_after_delivery" ∧
      (∀ a ∈ acknowledged, item evidence "operation_id" = .str a.1 ∧
        item evidence "turn_id" = .str a.2) ∧
      (textWhere isItemId (item evidence "item_id")).isSome) "workspace_ack_evidence_unconfirmed"

/-! ## Requests and observations -/

/-- The fields of `create`'s request that the store uses. -/
structure TaskSpec where
  operationId : String
  taskKey : String

/-- A task text of bounded length. -/
def taskText (limit : ℕ) (value : Json) : Prop :=
  ∃ s ∈ text? value, 1 ≤ s.toList.length ∧ s.toList.length ≤ limit ∧ '\x00' ∉ s.toList

instance (limit : ℕ) (value : Json) : Decidable (taskText limit value) := by
  unfold taskText; infer_instance

/-- `task_spec` -/
def taskSpec (q : Json) : Except String TaskSpec := do
  need (hasKeys q ["operation_id", "task_key", "objective", "acceptance"]) "task_scope_refused"
  let op ← orFail "invalid_operation_id" (textWhere (isHex 32) (item q "operation_id"))
  let key ← orFail "invalid_task_key" (textWhere isTaskKey (item q "task_key"))
  need (taskText 4000 (item q "objective")) "invalid_task_text"
  need (taskText 1500 (item q "acceptance")) "invalid_task_text"
  return ⟨op, key⟩

/-- The fields of `send`'s request. -/
structure SendSpec where
  operationId : String
  taskId : String
  text : String

/-- The checks at the start of `send`. -/
def sendSpec (q : Json) : Except String SendSpec := do
  need (hasKeys q ["operation_id", "task_id", "text"]) "send_scope_refused"
  let op ← orFail "invalid_operation_id" (textWhere (isHex 32) (item q "operation_id"))
  let task ← orFail "invalid_task_identifier" (textWhere (isHex 32) (item q "task_id"))
  let text ← orFail "invalid_task_text" (text? (item q "text"))
  need (1 ≤ text.toList.length ∧ text.toList.length ≤ 6000 ∧ '\x00' ∉ text.toList) "invalid_task_text"
  return ⟨op, task, text⟩

theorem sendSpec_taskId {q : Json} {spec : SendSpec} (h : sendSpec q = .ok spec) :
    item q "task_id" = .str spec.taskId := by
  simp only [sendSpec, bind_ok, need_eq_ok, exists_unit, orFail_eq_ok, pure_ok] at h
  obtain ⟨-, op, -, task, htask, text, -, -, rfl⟩ := h
  exact (textWhere_eq_some.1 htask).1

/-- What a probe of a created thread may find. -/
inductive Creation where
  | durableReady | presentNotReady | missingBeforeFirstSend | unconfirmed
  deriving DecidableEq, Repr

def Creation.ofName : Json → Option Creation
  | .str "durable_ready" => some durableReady
  | .str "present_not_ready" => some presentNotReady
  | .str "missing_before_first_send" => some missingBeforeFirstSend
  | .str "unconfirmed" => some unconfirmed
  | _ => none

/-- The fields of an observation. -/
def Creation.fields : Creation → List String
  | presentNotReady => ["state", "thread_id", "reason"]
  | missingBeforeFirstSend => ["state", "thread_id", "read_code", "resume_code"]
  | _ => ["state", "thread_id"]

/-- `creation_observation` -/
def creationObservation (value : Json) (thread : String) : Except String Creation := do
  need (isDict value ∧ item value "thread_id" = .str thread) "creation_observation_unconfirmed"
  let state ← orFail "creation_observation_unconfirmed" (Creation.ofName (item value "state"))
  need (state = .presentNotReady → item value "reason" ∈ [Json.str "thread_not_ready",
    .str "thread_profile_changed", .str "resume_unconfirmed"]) "creation_readiness_unconfirmed"
  need (state = .missingBeforeFirstSend → item value "read_code" = .int (-32600) ∧
    item value "resume_code" = .int (-32600)) "creation_absence_unconfirmed"
  need (hasKeys value state.fields) "creation_observation_scope"
  return state

end SmartHome.TaskControl
