/-
  The plans of Node-RED deploys (`build_plan`, `changeset`, `effect_inventory` and the reverse plan
  of `Engine.rollback` in `engine.py`): what the engine takes as a parameter, over Python values.

  Constant members of the plans are left out.
-/
import SmartHome.Lib.JsonBytes
import SmartHome.Lib.Python
import SmartHome.NodeRedAdmin.Engine

namespace SmartHome.NodeRedAdmin.Planning

open Verif PyValue
open SmartHome.Mqtt (isHex)

/-- The members of a dictionary; of a node, where it was checked. -/
abbrev Node := List (String × PyValue)

def str? : PyValue → Option String
  | .str s => some s
  | _ => none

/-- `node[key]`, where it is a text. -/
def textAt (key : String) (n : Node) : Option String := (getKey key n).bind str?

def Node.id (n : Node) : String := (textAt "id" n).getD ""

def Node.type (n : Node) : String := (textAt "type" n).getD ""

/-- `bool(value)` -/
def truthy : PyValue → Bool
  | .null => false
  | .bool b => b
  | .int n => n ≠ 0
  | .float x => x.value ≠ 0
  | .str s => s ≠ ""
  | .list xs => !xs.isEmpty
  | .dict kvs => !kvs.isEmpty

/-- The texts of a set in order. -/
def sortedSet (xs : List String) : List String := xs.dedup.insertionSort (· ≤ ·)

/-! ## Protected fields -/

/-- A character where the case does not matter; four other letters are taken for ASCII ones. -/
def fold (c : Char) : Char :=
  if c = 'İ' ∨ c = 'ı' then 'i' else if c = 'ſ' then 's' else if c.toNat = 0x212A then 'k' else c.toLower

/-- `PROTECTED` -/
def isProtected (key : String) : Bool :=
  ["credential", "password", "passwd", "secret", "token", "authorization", "adminauth"].any fun word =>
    decide (word.toList <:+: key.toList.map fold)

mutual
/-- `protected_input` -/
def protectedInput : PyValue → Bool
  | .dict kvs => protectedMembers kvs
  | .list xs => protectedElems xs
  | _ => false

def protectedElems : List PyValue → Bool
  | [] => false
  | x :: xs => protectedInput x || protectedElems xs

def protectedMembers : List (String × PyValue) → Bool
  | [] => false
  | (k, v) :: kvs =>
    isProtected k || k ∈ ["__proto__", "prototype", "constructor"] || protectedInput v || protectedMembers kvs
end

/-- `FORBIDDEN_TYPES` -/
def forbiddenTypes : List String :=
  ["exec", "shell", "daemon", "file", "file in", "watch", "tail", "http in", "tcp in", "udp in",
    "websocket-listener"]

/-! ## Snapshots -/

structure Snapshot where
  rev : String
  flows : List Node

/-- `set(value) == set(fields)`, for a dictionary. -/
def exact (value : PyValue) (fields : List String) : Except String Node := do
  let kvs ← orFail "request_scope_refused" (match value with | .dict kvs => some kvs | _ => none)
  need ((∀ m ∈ kvs, m.1 ∈ fields) ∧ ∀ k ∈ fields, k ∈ kvs.map Prod.fst) "request_scope_refused"
  return kvs

/-- The nodes of a configuration have different identifiers. -/
def checkNodes (seen : List String) : List PyValue → Except String (List Node)
  | [] => .ok []
  | value :: values => do
    let node ← orFail "node_identity_unconfirmed" (match value with | .dict kvs => some kvs | _ => none)
    let id ← orFail "node_identity_unconfirmed" ((textAt "id" node).filter isNodeId)
    need ((textAt "type" node).isSome = true ∧ id ∉ seen) "node_identity_unconfirmed"
    need ("credentials" ∉ node.map Prod.fst) "raw_credentials_in_flow_snapshot"
    let nodes ← checkNodes (id :: seen) values
    return node :: nodes

/-- `valid_id(value, NODE)` -/
def validId (value : Option PyValue) : Option String := (value.bind str?).filter isNodeId

/-- The field that disables a node. -/
def flag (n : Node) : String := if n.type = "tab" then "disabled" else "d"

/-- The node, disabled. -/
def disable (n : Node) : Node := upsert Prod.fst (flag n, .bool true) n

/-- A tab, or a node of a tab. -/
def Node.Retirable (n : Node) : Prop := n.type = "tab" ∨ (validId (getKey "z" n)).isSome = true

instance (n : Node) : Decidable n.Retirable := by unfold Node.Retirable; infer_instance

/-! ## What a plan says of the change -/

/-- A field that differs. -/
structure FieldChange where
  field : String
  beforePresent : Bool
  afterPresent : Bool
  beforeSha256 : Option String
  afterSha256 : Option String
  diff : String

/-- A node that differs. -/
structure Change where
  nodeId : String
  beforeSha256 : Option String
  afterSha256 : Option String
  fields : List FieldChange

/-- What stands outside: the digest of a text, the unified diff of two values, and the projector of
    reviewed public values. -/
structure Outside where
  sha256 : List Char → String
  unifiedDiff : PyValue → PyValue → String
  projector : Option (String → String → PyValue → PyValue)

section
variable [FloatText] (out : Outside)

/-- `len(raw(value))` -/
def size (value : PyValue) : ℕ := byteLength value.raw

/-- `snapshot` -/
def snapshot (value : PyValue) : Except String Snapshot := do
  let kvs ← (exact value ["rev", "flows"]).mapError fun _ => "snapshot_scope_refused"
  let rev ← orFail "revision_unconfirmed" ((textAt "rev" kvs).filter isRevision)
  let values ← orFail "snapshot_bound" (match getKey "flows" kvs with | some (.list xs) => some xs | _ => none)
  need (values.length ≤ 10000 ∧ size (.list values) ≤ 8 * 1024 * 1024) "snapshot_bound"
  let flows ← checkNodes [] values
  return ⟨rev, flows⟩

/-- `snapshot({'rev': rev, 'flows': flows})` -/
def snapshotOf (rev : String) (flows : List Node) : Except String Snapshot :=
  snapshot (.dict [("rev", .str rev), ("flows", .list (flows.map PyValue.dict))])

/-- `digest` -/
def digestOf (value : PyValue) : String := out.sha256 value.raw

def flowsDigest (flows : List Node) : String := digestOf out (.list (flows.map PyValue.dict))

/-- `safe_value` -/
def safeValue (key : String) (value : PyValue) (nodeId : String) : PyValue :=
  let withheld (reason : String) : PyValue :=
    .dict [("withheld", .bool true), ("reason", .str reason), ("sha256", .str (digestOf out value))]
  if isProtected key then withheld "credential_field"
  else
    let answer : Option PyValue := out.projector.map fun projector => projector nodeId key value
    match answer with
    | some (.dict proof) =>
      if textAt "source" proof = some "exact_reviewed_public_source" ∧
          textAt "value_sha256" proof = some (digestOf out value) ∧
          ∃ shown ∈ getKey "value" proof, digestOf out shown = digestOf out value ∧ size shown ≤ 65536 then
        .dict [("source", .str "exact_reviewed_public_source"), ("value", (getKey "value" proof).getD .null)]
      else withheld "no_reviewed_public_value_proof"
    | _ => withheld "no_reviewed_public_value_proof"

/-- One field of a node that differs. -/
def fieldChange (id key : String) (a b : Option PyValue) : FieldChange where
  field := key
  beforePresent := a.isSome
  afterPresent := b.isSome
  beforeSha256 := a.map (digestOf out)
  afterSha256 := b.map (digestOf out)
  diff := out.unifiedDiff (a.elim (.str "<absent>") fun v => safeValue out key v id)
    (b.elim (.str "<absent>") fun v => safeValue out key v id)

/-- The fields that differ.  The values are compared with `==`. -/
def fieldChanges (id : String) (a b : Node) : List FieldChange :=
  ((sortedSet (a.map Prod.fst ++ b.map Prod.fst)).filter fun key =>
    !eqvOption (getKey key a) (getKey key b)).map fun key => fieldChange out id key (getKey key a) (getKey key b)

/-- The node with an identifier. -/
def nodeAt (id : String) (flows : List Node) : Option Node := lookup Node.id id flows

/-- `changeset`: the nodes that differ.  The nodes are compared with `==`. -/
def changeset (before after : List Node) : List Change :=
  ((sortedSet ((before ++ after).map Node.id)).filter fun id =>
    !eqvOption ((nodeAt id before).map PyValue.dict) ((nodeAt id after).map PyValue.dict)).map fun id =>
    { nodeId := id
      beforeSha256 := (nodeAt id before).map fun n => digestOf out (.dict n)
      afterSha256 := (nodeAt id after).map fun n => digestOf out (.dict n)
      fields := fieldChanges out id ((nodeAt id before).getD []) ((nodeAt id after).getD []) }

/-- A text, or `null`. -/
def ofText (s : Option String) : PyValue := s.elim .null .str

/-- The change as it is stored. -/
def Change.value (c : Change) : PyValue :=
  .dict [("node_id", .str c.nodeId), ("before_sha256", ofText c.beforeSha256),
    ("after_sha256", ofText c.afterSha256), ("fields", .list (c.fields.map fun f =>
      .dict [("field", .str f.field), ("before_present", .bool f.beforePresent),
        ("after_present", .bool f.afterPresent), ("before_sha256", ofText f.beforeSha256),
        ("after_sha256", ofText f.afterSha256), ("diff", .str f.diff)]))]

/-- What is to be reviewed of a change. -/
structure Risk where
  changedNodeIds : List String
  affectedFlowIds : List String
  possibleDownstreamNodeIds : List String
  reasons : List String
  removedNodeIds : List String

/-- The reasons to review a node. -/
def Node.reasons (n : Node) : List String :=
  let has (key : String) : Bool := (getKey key n).any truthy
  (if n.type = "function" then
    "function_restart_and_old_callbacks" ::
      if has "initialize" || has "finalize" then ["function_initialize_or_finalize"] else []
    else []) ++
  (if n.type = "inject" ∧ (has "once" || has "repeat" || has "crontab") then ["inject_startup_or_timer"] else []) ++
  (if n.type = "catch" ∨ n.type = "status" then ["catch_or_status_event_on_deploy"] else []) ++
  (if n.type = "mqtt in" ∨ n.type = "mqtt out" ∨ "server" ∈ n.map Prod.fst ∨ "broker" ∈ n.map Prod.fst then
    ["connection_or_retained_message"] else []) ++
  if n.type = "tab" ∨ "subflow:".toList <+: n.type.toList then ["flow_or_subflow_lifecycle"] else []

/-- `effect_inventory` -/
def effectInventory (before after : List Node) (diff : List Change) : Risk :=
  let ids := sortedSet (diff.map Change.nodeId)
  -- a node of both is taken as it is afterwards
  let changed := ids.filterMap fun id => (nodeAt id after).or (nodeAt id before)
  let tabs := sortedSet (changed.filterMap (textAt "z"))
  { changedNodeIds := ids
    affectedFlowIds := tabs
    possibleDownstreamNodeIds :=
      sortedSet (((before ++ after).filter fun n => (textAt "z" n).any (· ∈ tabs)).map Node.id)
    reasons := sortedSet (changed.flatMap Node.reasons ++ ["downstream_and_dynamic_dispatch_not_proven_safe"])
    removedNodeIds := sortedSet ((before.map Node.id).filter fun id => id ∉ after.map Node.id) }

/-! ## Edits -/

/-- The flows between two edits. -/
structure Editing where
  flows : List Node
  touched : List String
  deleted : List String

/-- The end of an edit: no node is edited twice. -/
def touch (st : Editing) (id : String) : Except String Editing := do
  need (id ∉ st.touched) "duplicate_node_edit"
  return { st with touched := st.touched ++ [id] }

/-- The edit `create`. -/
def createNode (rev : String) (st : Editing) (value : PyValue) : Except String Editing := do
  let checked ← snapshot (.dict [("rev", .str rev), ("flows", .list [value])])
  let node := checked.flows.headD []
  need (node.id ∉ st.flows.map Node.id) "create_node_exists"
  need (node.type ∉ forbiddenTypes) "shell_node_refused"
  need (protectedInput (.dict node) = false) "protected_field_refused"
  need ((getKey "libs" node).any truthy = false) "module_install_not_admitted"
  touch { st with flows := st.flows ++ [node] } node.id

/-- The fields that are removed from a node. -/
def unsetFields : List String → Node → Except String Node
  | [], node => .ok node
  | key :: keys, node => do
    need (key ∈ node.map Prod.fst) "unset_field_missing"
    unsetFields keys (remove Prod.fst key node)

/-- `node.update(fields)` -/
def setFields (fields node : Node) : Node := fields.foldl (fun n m => upsert Prod.fst m n) node

/-- The texts of a list, where all elements are texts. -/
def texts? : PyValue → Option (List String)
  | .list xs => xs.mapM str?
  | _ => none

/-- The node after the edit `patch`. -/
def patched (edit node : Node) : Except String Node := do
  let fields ← orFail "field_edit_scope"
    (match getKey "set_fields" edit with | some (.dict kvs) => some kvs | _ => none)
  let keys ← orFail "field_edit_scope" ((getKey "unset_fields" edit).bind texts?)
  need (keys.Nodup ∧ ∀ key ∈ keys, key ∉ fields.map Prod.fst) "field_edit_scope"
  need (protectedInput (.dict fields) = false) "protected_field_refused"
  need (fields.map Prod.fst ++ keys ≠ [] ∧
    ∀ key ∈ fields.map Prod.fst ++ keys, key ≠ "id" ∧ key ≠ "type" ∧ isProtected key = false) "protected_field_refused"
  need ("libs" ∉ fields.map Prod.fst ++ keys) "module_install_not_admitted"
  let node ← unsetFields keys node
  return setFields fields node

/-- The node that an edit names, with the digest that the edit expects. -/
def target (st : Editing) (edit : Node) : Except String Node := do
  let id ← orFail "node_missing" (validId (getKey "node_id" edit))
  let node ← orFail "node_missing" (nodeAt id st.flows)
  let sha256 ← orFail "node_compare_swap_conflict" ((textAt "expected_node_sha256" edit).filter (isHex 64))
  need (digestOf out (.dict node) = sha256) "node_compare_swap_conflict"
  need (node.type ∉ forbiddenTypes) "shell_node_refused"
  return node

/-- One edit. -/
def applyEdit (rev : String) (st : Editing) (value : PyValue) : Except String Editing := do
  let kvs ← orFail "edit_kind_refused" (match value with | .dict kvs => some kvs | _ => none)
  match textAt "kind" kvs with
  | some "create" =>
    let edit ← exact value ["kind", "node"]
    createNode rev st ((getKey "node" edit).getD .null)
  | some "patch" =>
    let edit ← exact value ["kind", "node_id", "expected_node_sha256", "set_fields", "unset_fields"]
    let node ← target out st edit
    let kept ← patched edit node
    touch { st with flows := amend Node.id node.id (fun _ => kept) st.flows } node.id
  | some "delete" =>
    let edit ← exact value ["kind", "node_id", "expected_node_sha256"]
    let node ← target out st edit
    -- a configuration node has no effect that disables it
    need node.Retirable "configuration_node_quarantine_unavailable"
    touch { st with
      flows := amend Node.id node.id (fun _ => disable node) st.flows
      deleted := st.deleted ++ [node.id] } node.id
  | _ => .error "edit_kind_refused"

/-- The edits, one after the other. -/
def applyEdits (rev : String) : List PyValue → Editing → Except String Editing
  | [], st => .ok st
  | edit :: edits, st => do
    let st ← applyEdit out rev st edit
    applyEdits rev edits st

/-! ## Plans -/

/-- A prepared plan. -/
structure Plan where
  operationId : String
  policySha256 : String
  createdAt : ℚ
  expiresAt : ℚ
  action : Action
  parentOperationId : Option String
  beforeRevision : String
  beforeSha256 : String
  afterSha256 : String
  beforeFlows : List Node
  afterFlows : List Node
  editsSha256 : String
  diff : List Change
  deletedLogically : List String
  retiredCreatedNodes : List String
  risk : Risk

/-- A change that can be reviewed. -/
def CheckedDiff (diff : List Change) : Prop :=
  diff ≠ [] ∧ diff.length ≤ 128 ∧ size (.list (diff.map Change.value)) ≤ 1048576

instance (diff : List Change) : Decidable (CheckedDiff diff) := by unfold CheckedDiff; infer_instance

/-- `build_plan` -/
def buildPlan (operationId : String) (base edits : PyValue) (policySha256 : String) (now : ℚ) (ttl : ℤ) :
    Except String Plan := do
  need (isHex 32 operationId = true ∧ isHex 64 policySha256 = true) "invalid_identity"
  let before ← snapshot base
  let list ← orFail "edit_bound" (match edits with | .list xs => some xs | _ => none)
  need (0 < list.length ∧ list.length ≤ 128 ∧ size edits ≤ 1048576) "edit_bound"
  need (1 ≤ ttl ∧ ttl ≤ 900) "plan_clock_or_ttl"
  let edited ← applyEdits out before.rev list ⟨before.flows, [], []⟩
  let after ← snapshotOf before.rev edited.flows
  let diff := changeset out before.flows after.flows
  need (CheckedDiff diff) "empty_or_oversized_delta"
  return {
    operationId, policySha256, createdAt := now, expiresAt := now + ttl, action := .apply
    parentOperationId := none, beforeRevision := before.rev
    beforeSha256 := flowsDigest out before.flows, afterSha256 := flowsDigest out after.flows
    beforeFlows := before.flows, afterFlows := after.flows, editsSha256 := digestOf out edits, diff
    deletedLogically := edited.deleted, retiredCreatedNodes := []
    risk := effectInventory before.flows after.flows diff }

/-! ## Reverse plans -/

/-- What `rollback` reads, and whether the journal takes the plan. -/
structure Reads where
  /-- `_policy(effect=True)` -/
  policy : Except String Unit
  plan : Option Plan
  receipt : Option Receipt
  fetched : Except String PyValue
  now : ℚ
  register : Plan → Except String Unit

/-- The nodes that are not among the identifiers, disabled. -/
def retired (ids : List String) : List Node → Except String (List Node)
  | [] => .ok []
  | node :: nodes =>
    if node.id ∈ ids then retired ids nodes
    else do
      need node.Retirable "configuration_node_quarantine_unavailable"
      let rest ← retired ids nodes
      return disable node :: rest

/-- The reverse plan of a plan. -/
def reversePlan (original : Plan) (operationId rollbackOperationId : String) (now : ℚ) (current : Snapshot)
    (restored : List Node) (retiredIds : List String) : Plan :=
  let diff := changeset out current.flows restored
  { original with
    operationId := rollbackOperationId, action := .rollback, parentOperationId := some operationId
    createdAt := now, expiresAt := now + 900, beforeRevision := current.rev
    beforeSha256 := original.afterSha256, afterSha256 := flowsDigest out restored
    beforeFlows := current.flows, afterFlows := restored, diff
    retiredCreatedNodes := retiredIds, deletedLogically := retiredIds
    risk := effectInventory current.flows restored diff
    editsSha256 := digestOf out (.dict [("rollback_own", .str operationId)]) }

/-- `rollback` -/
def rollback (reads : Reads) (operationId rollbackOperationId : String) : Except String Plan := do
  reads.policy
  let original ← orFail "own_applied_result_required" reads.plan
  let receipt ← orFail "own_applied_result_required" reads.receipt
  need (original.action = .apply ∧ receipt.state = .applied) "own_applied_result_required"
  let value ← reads.fetched
  let current ← snapshot value
  need (some current.rev = receipt.afterRevision ∧ flowsDigest out current.flows = original.afterSha256)
    "foreign_change_blocks_rollback"
  need (isHex 32 rollbackOperationId = true ∧ rollbackOperationId ≠ operationId) "rollback_identity_refused"
  let kept ← retired (original.beforeFlows.map Node.id) current.flows
  let restored ← snapshotOf current.rev (original.beforeFlows ++ kept)
  need (CheckedDiff (changeset out current.flows restored.flows)) "empty_or_oversized_delta"
  let plan := reversePlan out original operationId rollbackOperationId reads.now current restored.flows
    (kept.map Node.id)
  reads.register plan
  return plan

end

end SmartHome.NodeRedAdmin.Planning
