/-
  The engine of Node-RED deploys (`Engine` of `engine.py`).

  A request runs under the exclusive locks of the coordination.  What a plan does to the flows and
  how it is described to a reviewer (`build_plan`, `changeset`, `effect_inventory`) is a parameter.
-/
import SmartHome.NodeRedAdmin.Journal

namespace SmartHome.NodeRedAdmin

open Verif Program
open SmartHome.Mqtt (isHex)

/-- The fixed policy. -/
structure Policy where
  enabled : Bool
  host : String
  project : String
  activationConfirmed : Bool
  expiresAt : Option ℚ
  maximumDeploysPer24h : ℕ
  minimumDeploySpacingSeconds : ℕ
  maximumPlanAgeSeconds : ℕ
  deriving DecidableEq

/-- How edits change the flows, and how a change is described. -/
structure Planner where
  /-- The flows after the edits, and the nodes that are deleted logically. -/
  edited : List Json → List Json → Except String (List Json × List String)
  changeset : List Json → List Json → List Json
  effectInventory : List Json → List Json → List Json → Json

/-- What was found before a deploy. -/
structure Preflight where
  binding : Binding
  guardBeforeSha256 : String
  observedAt : ℚ

/-- What a request returns. -/
inductive Answer where
  | plan (value : Plan) (duplicate : Bool)
  | validation (value : Validation)
  | preflight (value : Preflight)
  | receipt (value : Receipt) (duplicate : Bool)
  | existingIntent (operationId : String)
  | status (operationId : String) (uncertain : Bool) (planSha256 : String)
  | verified (operationId : String) (guardAfterSha256 : Option String) (afterMatches revisionMatches : Bool)
      (observedAt : ℚ)

/-! ## Snapshots -/

/-- `NODE` -/
def isNodeId (s : String) : Bool :=
  match s.toList with
  | [] => false
  | c :: cs => (c.isAlphanum || c = '_') && cs.length ≤ 127 &&
      cs.all fun c => c.isAlphanum || c = '_' || c = '.' || c = ':' || c = '-'

/-- A text that may be a revision. -/
def isRevision (s : String) : Bool := 0 < s.length && s.length ≤ 256 && s.toList.all (· ≠ '\x00')

/-- The nodes of a configuration have different identifiers. -/
def checkNodes (seen : List String) : List Json → Except String Unit
  | [] => .ok ()
  | node :: flows => do
    let id ← orFail "node_identity_unconfirmed" (textWhere isNodeId (item node "id"))
    need ((text? (item node "type")).isSome = true ∧ id ∉ seen) "node_identity_unconfirmed"
    need (node.get? "credentials" = none) "raw_credentials_in_flow_snapshot"
    checkNodes (id :: seen) flows

section
variable [Canonical Json]

/-- The checks of `snapshot`. -/
def checkSnapshot (s : Snapshot) : Except String Unit := do
  need (isRevision s.rev = true) "revision_unconfirmed"
  need (s.flows.length ≤ 10000 ∧ size (Json.arr s.flows) ≤ 8 * 1024 * 1024) "snapshot_bound"
  checkNodes [] s.flows

/-- The elements of a list. -/
def elements? : Json → Option (List Json)
  | .arr xs => some xs
  | _ => none

/-- `snapshot` -/
def snapshot (value : Json) : Except String Snapshot := do
  need (hasKeys value ["rev", "flows"]) "snapshot_scope_refused"
  let rev ← orFail "revision_unconfirmed" (text? (item value "rev"))
  let flows ← orFail "snapshot_bound" (elements? (item value "flows"))
  checkSnapshot ⟨rev, flows⟩
  return ⟨rev, flows⟩

/-- `snapshot(transport.fetch())` -/
def fetch : Prog Snapshot := do
  let reply : Except String Json ← ask Request.fetch
  let value ← lift reply
  let current ← lift (snapshot value)
  transaction fun s => .ok { s with events := .fetched current :: s.events }
  return current

/-- `digest(flows)` -/
def flowsDigest (flows : List Json) : String := digest (Json.arr flows)

end

/-! ## The engine -/

section
variable [Canonical Json] [Canonical Plan] [Canonical Validation] [Canonical Intent]
  [Canonical Receipt] [Canonical Guard] [Canonical Policy] (p : Policy) (planner : Planner)

/-- `_policy` -/
def policy (effect : Bool) : Prog String := do
  require (p.enabled = true ∧ p.host = "raspberry" ∧ p.project = "/mnt/data/docker" ∧
    p.activationConfirmed = true) "policy_not_activated"
  let reply : Except String Bool ← ask Request.revoked
  let revoked ← lift reply
  require (revoked = false) "policy_revoked"
  let expires ← lift (orFail "policy_expired_or_completion_margin" p.expiresAt)
  let now ← clock
  require (now + (if effect then 90 else 0) < expires) "policy_expired_or_completion_margin"
  require (p.maximumDeploysPer24h = 4 ∧ p.minimumDeploySpacingSeconds = 60 ∧
    p.maximumPlanAgeSeconds = 900) "policy_limits_changed"
  return digest p

/-- `_plan` -/
def prepared (operationId : String) : Prog Plan := do
  let value ← read planFile operationId
  let plan ← lift (orFail "prepared_plan_missing" value)
  require (plan.operationId = operationId) "prepared_plan_missing"
  let policySha256 ← policy p false
  require (plan.policySha256 = policySha256) "prepared_policy_changed"
  return plan

/-- A change that is to be reviewed. -/
def checkDiff (diff : List Json) : Except String Unit :=
  need (diff ≠ [] ∧ diff.length ≤ 128 ∧ size (Json.arr diff) ≤ 1048576) "empty_or_oversized_delta"

/-- `build_plan` -/
def buildPlan (operationId : String) (before : Snapshot) (edits : List Json) (policySha256 : String)
    (now : ℚ) (ttl : ℕ) : Except String Plan := do
  need (isHex 32 operationId = true ∧ isHex 64 policySha256 = true) "invalid_identity"
  need (0 < edits.length ∧ edits.length ≤ 128 ∧ size (Json.arr edits) ≤ 1048576) "edit_bound"
  need (1 ≤ ttl ∧ ttl ≤ 900) "plan_clock_or_ttl"
  let after ← planner.edited before.flows edits
  checkSnapshot ⟨before.rev, after.1⟩
  let diff := planner.changeset before.flows after.1
  checkDiff diff
  return {
    operationId, policySha256, createdAt := now, expiresAt := now + ttl, action := .apply
    parentOperationId := none, beforeRevision := before.rev
    beforeSha256 := flowsDigest before.flows, afterSha256 := flowsDigest after.1
    beforeFlows := before.flows, afterFlows := after.1, editsSha256 := digest (Json.arr edits)
    diff, deletedLogically := after.2, retiredCreatedNodes := []
    risk := planner.effectInventory before.flows after.1 diff }

/-- `prepare` -/
def prepare (operationId expectedRevision expectedSha256 : String) (edits : List Json) : Prog Answer := do
  let policySha256 ← policy p false
  let existing ← read planFile operationId
  match existing with
  | some plan => do
    require (plan.editsSha256 = digest (Json.arr edits) ∧ plan.beforeRevision = expectedRevision ∧
      plan.beforeSha256 = expectedSha256) "operation_id_conflict"
    return .plan plan true
  | none => do
    let current ← fetch
    require (current.rev = expectedRevision ∧ flowsDigest current.flows = expectedSha256)
      "global_compare_swap_conflict"
    let now ← clock
    let plan ← lift (buildPlan planner operationId current edits policySha256 now
      p.maximumPlanAgeSeconds)
    register plan
    return .plan plan false

/-- What a validation must confirm. -/
def Proof.confirms (proof : Proof) (plan : Plan) : Prop :=
  proof.planSha256 = digest plan ∧ proof.syntaxOk = true ∧ proof.graph = true ∧ proof.layout = true ∧
    proof.observability = true ∧ proof.isolatedRegression = true ∧ proof.installedNodeTypes = true ∧
    proof.canonicalSourcesReconciled = true

instance (proof : Proof) (plan : Plan) : Decidable (proof.confirms plan) := by
  unfold Proof.confirms; infer_instance

/-- `validate` -/
def validate (operationId : String) : Prog Answer := do
  let plan ← prepared p operationId
  let existing ← read validationFile operationId
  match existing with
  | some value => do
    require (value.planSha256 = digest plan) "validation_binding_changed"
    return .validation value
  | none => do
    let reply : Except String (Option Proof) ← ask (Request.validate plan)
    let proof ← lift reply
    require (∃ v ∈ proof, v.confirms plan) "validation_unconfirmed"
    let now ← clock
    let value : Validation := ⟨digest plan, now⟩
    create validationFile operationId value
    return .validation value

/-- What a guard must confirm. -/
def Guard.confirms (guard : Guard) (plan : Plan) (phase : Phase) : Prop :=
  guard.planSha256 = digest plan ∧ guard.phase = phase ∧ guard.credentialsUnchanged = true ∧
    guard.contextPreservationProven = true

instance (guard : Guard) (plan : Plan) (phase : Phase) : Decidable (guard.confirms plan phase) := by
  unfold Guard.confirms; infer_instance

/-- `_guard` -/
def guarded (plan : Plan) (phase : Phase) : Prog String := do
  let reply : Except String (Option Guard) ← ask (Request.guard plan phase)
  let answer ← lift reply
  let guard ← lift (orFail "credential_or_context_protection_unconfirmed" answer)
  require (guard.confirms plan phase) "credential_or_context_protection_unconfirmed"
  require (plan.deletedLogically ≠ [] → guard.logicalDeleteRestoreIsolatedProven = true)
    "recoverable_delete_not_proven"
  require (item plan.risk "removed_node_ids" ∉ [.null, .arr []] →
    guard.newNodeRetirementRecoverable = true) "own_created_node_context_recovery_unproven"
  return digest guard

/-- What an admission of a plan is bound to. -/
def bindingOf (plan : Plan) : Binding where
  operationId := plan.operationId
  planSha256 := digest plan
  policySha256 := plan.policySha256
  action := plan.action
  riskSha256 := digest plan.risk
  beforeRevision := plan.beforeRevision
  beforeSha256 := plan.beforeSha256
  afterSha256 := plan.afterSha256

/-- What an admission must confirm besides its binding. -/
def Gate.admits (gate : Gate) (approvalId : String) (now : ℚ) : Prop :=
  gate.approvalId = approvalId ∧ gate.policyActivationConfirmed = true ∧
    gate.interfaceConfirmationPreserved = true ∧ gate.reviewedStartupAndSensitiveEffects = true ∧
    gate.resourcesAvailable = true ∧ gate.sharedLocksHeld = true ∧ now + 90 < gate.expiresAt

instance (gate : Gate) (approvalId : String) (now : ℚ) : Decidable (gate.admits approvalId now) := by
  unfold Gate.admits; infer_instance

/-- The budget and the spacing of `_preflight`. -/
def budget : Prog Unit := do
  let now ← clock
  let s ← get
  let rows ← lift (attempts (now - 86400) s.journal)
  require (rows.length < p.maximumDeploysPer24h) "daily_deploy_budget"
  -- the clock is read for the spacing only where there is an attempt
  if rows = [] then return ()
  else do
    let now ← clock
    require (∀ i ∈ rows, 60 ≤ now - i.attemptedAt) "deploy_spacing"

/-- The admission of `_preflight`. -/
def admitted (plan : Plan) (approvalId : String) : Prog Unit := do
  require (isHex 32 approvalId = true) "exact_approval_reference_required"
  let reply : Except String (Option Gate) ← ask (Request.admitPlan (bindingOf plan) approvalId)
  let answer ← lift reply
  let gate ← lift (orFail "operation_admission_unconfirmed" answer)
  require (gate.binding = bindingOf plan) "operation_admission_unconfirmed"
  let now ← clock
  require (gate.admits approvalId now) "exact_effect_admission_required"

/-- `_preflight` -/
def preflightOf (plan : Plan) (approvalId : String) : Prog Preflight := do
  let _ ← policy p true
  let now ← clock
  require (now < plan.expiresAt) "prepared_plan_expired"
  let s ← get
  let uncertain ← lift (uncertainOperations s.journal)
  require (uncertain = []) "prior_uncertain_deploy_requires_reconciliation"
  let validated ← read validationFile plan.operationId
  require (∃ v ∈ validated, v.planSha256 = digest plan) "validation_required"
  let current ← fetch
  require (current.rev = plan.beforeRevision ∧ flowsDigest current.flows = plan.beforeSha256)
    "global_compare_swap_conflict"
  budget p
  admitted plan approvalId
  let guardBeforeSha256 ← guarded plan .before
  let now ← clock
  return ⟨bindingOf plan, guardBeforeSha256, now⟩

/-- `preflight` -/
def preflight (operationId approvalId : String) : Prog Answer := do
  let plan ← prepared p operationId
  let value ← preflightOf p plan approvalId
  return .preflight value

/-- What a deploy turned out to be. -/
inductive Outcome where
  | rejected
  | applied (revision guardAfterSha256 : String)
  | unconfirmed (collectionError : String)

/-- The check of an accepted deploy. -/
def confirm (plan : Plan) (rev : Option String) : Prog Outcome := do
  let revision ← lift (orFail "deploy_revision_unconfirmed" rev)
  require (0 < revision.length ∧ revision.length ≤ 512) "deploy_revision_unconfirmed"
  let loaded ← fetch
  require (loaded.rev = revision ∧ flowsDigest loaded.flows = plan.afterSha256)
    "loaded_configuration_unconfirmed"
  let guard ← attempt (guarded plan .after)
  match guard with
  | .ok sha256 => return .applied revision sha256
  | .error _ => return .unconfirmed "credential_or_context_after_unconfirmed"

/-- What follows from the reply to a deploy. -/
def judge (plan : Plan) (reply : Except String (Option DeployReply)) : Prog Outcome := do
  let answer ← lift reply
  let reply ← lift (orFail "deploy_outcome_unconfirmed" answer)
  if reply.state = "conflict" ∧ reply.effectProvenAbsent = true then return .rejected
  else if reply.state = "accepted" then confirm plan reply.rev
  else return .unconfirmed "deploy_outcome_unconfirmed"

/-- The receipt of an outcome. -/
def receiptOf (plan : Plan) (guardBeforeSha256 : String) (now : ℚ) (outcome : Outcome) : Receipt :=
  let uncertain : Receipt :=
    { operationId := plan.operationId, planSha256 := digest plan, beforeSha256 := plan.beforeSha256
      afterSha256 := plan.afterSha256, action := plan.action, state := .uncertain
      afterRevision := none, collectionError := some "deploy_outcome_unconfirmed"
      guardBeforeSha256, guardAfterSha256 := none, credentialsPreservationVerified := false
      contextPreservationVerified := false, definitiveNoEffect := false
      loadedConfigurationVerified := false, completedAt := now }
  match outcome with
  | .rejected => { uncertain with
      state := .rejectedWithoutEffect, collectionError := some "revision_conflict"
      definitiveNoEffect := true }
  | .applied revision guardAfterSha256 => { uncertain with
      state := .applied, afterRevision := some revision, collectionError := none
      loadedConfigurationVerified := true, guardAfterSha256 := some guardAfterSha256
      credentialsPreservationVerified := true, contextPreservationVerified := true }
  | .unconfirmed collectionError => { uncertain with collectionError := some collectionError }

/-- The outcome of a deploy whose exceptions are swallowed. -/
def Outcome.of : Except String Outcome → Outcome
  | .ok outcome => outcome
  | .error _ => .unconfirmed "deploy_outcome_unconfirmed"

/-- The deploy and its receipt, once the intent is durable. -/
def deploy (operationId : String) (plan : Plan) (guardBeforeSha256 : String) : Prog Answer := do
  let reply : Except String (Option DeployReply) ←
    ask (Request.deploy plan.beforeRevision plan.afterFlows)
  let outcome ← attempt (judge plan reply)
  let now ← clock
  let receipt := receiptOf plan guardBeforeSha256 now (Outcome.of outcome)
  create receiptFile operationId receipt
  return .receipt receipt false

/-- `apply`, where there is neither an intent nor a receipt. -/
def attemptDeploy (operationId : String) (plan : Plan) (approvalId : String) : Prog Answer := do
  let found ← preflightOf p plan approvalId
  let now ← clock
  -- this is synced before the only write; a crash leaves an uncertain intent, never a replay
  create intentFile operationId ⟨operationId, digest plan, plan.action, now, plan.beforeRevision⟩
  deploy operationId plan found.guardBeforeSha256

/-- `apply` -/
def apply (operationId planSha256 approvalId : String) : Prog Answer := do
  let plan ← prepared p operationId
  require (planSha256 = digest plan) "exact_plan_hash_required"
  let existing ← read receiptFile operationId
  match existing with
  | some receipt => return .receipt receipt true
  | none => do
    let intent ← read intentFile operationId
    match intent with
    | some _ => return .existingIntent operationId
    | none => attemptDeploy p operationId plan approvalId

/-- `status` -/
def status (operationId : String) : Prog Answer := do
  require (p.host = "raspberry" ∧ p.project = "/mnt/data/docker") "policy_identity_changed"
  let value ← read planFile operationId
  let plan ← lift (orFail "operation_missing" value)
  let receipt ← read receiptFile operationId
  match receipt with
  | some receipt => return .receipt receipt false
  | none => do
    let intent ← read intentFile operationId
    return .status operationId intent.isSome (digest plan)

/-- `verify` -/
def verify (operationId : String) : Prog Answer := do
  let _ ← policy p false
  let value ← read planFile operationId
  let plan ← lift (orFail "operation_missing" value)
  let receipt ← read receiptFile operationId
  let loaded ← fetch
  let guard ← attempt (guarded plan .after)
  let now ← clock
  return .verified operationId guard.toOption (flowsDigest loaded.flows = plan.afterSha256)
    (∃ r ∈ receipt, r.state = .applied ∧ r.afterRevision = some loaded.rev) now

/-- The node that is kept, disabled, in the place of a created one. -/
def retire (node : Json) : Except String Json := do
  need (item node "type" = .str "tab" ∨ (textWhere isNodeId (item node "z")).isSome = true)
    "configuration_node_quarantine_unavailable"
  return update node [(if item node "type" = .str "tab" then "disabled" else "d", .bool true)]

/-- The created nodes of a configuration, disabled. -/
def retired (original : List Json) : List Json → Except String (List Json)
  | [] => .ok []
  | node :: flows =>
    if ∃ n ∈ original, item n "id" = item node "id" then retired original flows
    else do
      let kept ← retire node
      let rest ← retired original flows
      return kept :: rest

/-- The reverse plan of `rollback`. -/
def reversePlan (operationId rollbackOperationId : String) (original : Plan) (current : Snapshot)
    (now : ℚ) : Except String Plan := do
  let kept ← retired original.beforeFlows current.flows
  let restore := original.beforeFlows ++ kept
  checkSnapshot ⟨current.rev, restore⟩
  let diff := planner.changeset current.flows restore
  checkDiff diff
  let names := kept.filterMap fun n => text? (item n "id")
  return { original with
    operationId := rollbackOperationId, action := .rollback, parentOperationId := some operationId
    createdAt := now, expiresAt := now + 900, beforeRevision := current.rev
    beforeSha256 := original.afterSha256, afterSha256 := flowsDigest restore
    beforeFlows := current.flows, afterFlows := restore, diff
    retiredCreatedNodes := names, deletedLogically := names
    risk := planner.effectInventory current.flows restore diff
    editsSha256 := digest (Json.obj [("rollback_own", .str operationId)]) }

/-- `rollback` -/
def rollback (operationId rollbackOperationId : String) : Prog Answer := do
  let _ ← policy p true
  let original ← read planFile operationId
  let receipt ← read receiptFile operationId
  let original ← lift (orFail "own_applied_result_required" original)
  let receipt ← lift (orFail "own_applied_result_required" receipt)
  require (original.action = .apply ∧ receipt.state = .applied) "own_applied_result_required"
  let current ← fetch
  require (some current.rev = receipt.afterRevision ∧
    flowsDigest current.flows = original.afterSha256) "foreign_change_blocks_rollback"
  require (isHex 32 rollbackOperationId = true ∧ rollbackOperationId ≠ operationId)
    "rollback_identity_refused"
  let now ← clock
  let plan ← lift (reversePlan planner operationId rollbackOperationId original current now)
  register plan
  return .plan plan false

/-- The requests. -/
inductive Command where
  | prepare (operationId expectedRevision expectedSha256 : String) (edits : List Json)
  | validate (operationId : String)
  | preflight (operationId approvalId : String)
  | apply (operationId planSha256 approvalId : String)
  | status (operationId : String)
  | verify (operationId : String)
  | rollback (operationId rollbackOperationId : String)

/-- A request under the locks. -/
def serve : Command → Prog Answer
  | .prepare id rev sha256 edits => prepare p planner id rev sha256 edits
  | .validate id => validate p id
  | .preflight id approvalId => preflight p id approvalId
  | .apply id planSha256 approvalId => apply p id planSha256 approvalId
  | .status id => status p id
  | .verify id => verify p id
  | .rollback id rollbackId => rollback p planner id rollbackId

/-- A request. -/
def handle (command : Command) : Prog Answer := do
  locks
  serve p planner command

end

end SmartHome.NodeRedAdmin
