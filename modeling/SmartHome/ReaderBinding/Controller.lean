/-
  The controller of the Node-RED reader binding (`controller.py`) over its durable ledger
  (`durable_store.py`).

  A request runs under the locks of the ledger.  A write of the ledger replaces the file as a
  whole; a write that is refused, because of its size or of a foreign change, stops the request
  there.  Networks and addresses are kept as numbers, not as their texts.
-/
import Mathlib.Data.Finset.Dedup
import Mathlib.Data.List.Sort
import Mathlib.Algebra.Order.Ring.Rat
import SmartHome.Lib.Dict
import SmartHome.Lib.Program
import SmartHome.Lib.Table
import SmartHome.Mqtt.Counters

namespace SmartHome.ReaderBinding

open Verif Program
open SmartHome.Mqtt (isHex)

/-! ## Requests -/

/-- `TOOLS` -/
inductive Tool where
  | apply | status | reconcile | revoke
  deriving DecidableEq, Repr

/-- `ACTIONS` -/
inductive Action where
  | plan | apply | planRestore | restore | revoke
  deriving DecidableEq, Repr

def Tool.ofName : String → Option Tool
  | "admin_action_apply" => some apply
  | "admin_action_status" => some status
  | "admin_action_reconcile" => some reconcile
  | "admin_action_revoke" => some revoke
  | _ => none

def Action.ofName : Json → Option Action
  | .str "nodered_plan_reader_binding" => some plan
  | .str "nodered_apply_reader_binding" => some apply
  | .str "nodered_plan_restore_reader_binding" => some planRestore
  | .str "nodered_restore_reader_binding" => some restore
  | .str "nodered_revoke_reader_binding" => some revoke
  | _ => none

/-- The start of every idempotency key. -/
def keyStart : List Char := "nodered-peer-".toList

/-- The identifier in a key of the form `nodered-peer-` and 32 hexadecimal digits. -/
def identifierOf (key : Json) : Option String :=
  (text? key).bind fun s =>
    if keyStart.isPrefixOf s.toList then
      some (String.ofList (s.toList.drop keyStart.length)) |>.filter (isHex 32)
    else none

/-- `validate` -/
def validate (tool : String) (args : Json) : Except String (Tool × Action × String) := do
  let tool ← orFail "fixed_request_required" (Tool.ofName tool)
  need (hasKeys args ["host", "action", "idempotency_key"]) "fixed_request_required"
  need (item args "host" = .str "raspberry") "binding_scope_refused"
  let action ← orFail "binding_scope_refused" (Action.ofName (item args "action"))
  let identifier ← orFail "binding_scope_refused" (identifierOf (item args "idempotency_key"))
  need (tool = .revoke ↔ action = .revoke) "binding_scope_refused"
  return (tool, action, identifier)

/-! ## Networks -/

/-- An IP network. -/
structure Network where
  v6 : Bool
  address : ℕ
  prefixLength : ℕ
  deriving DecidableEq, Repr

/-- The order in which networks are listed. -/
def Network.rank (n : Network) : ℕ :=
  ((if n.v6 then 2 ^ 128 else 0) + n.address) * 256 + n.prefixLength

/-- `sorted` -/
def sorted (ns : List Network) : List Network := ns.insertionSort fun a b => a.rank ≤ b.rank

/-- `networks` -/
def networks (values : List Network) : Except String (List Network) := do
  need (values.length ≤ 8) "invalid_network_metadata"
  return sorted values

/-- The network of one IPv4 address. -/
def peerNetwork (peer : ℕ) : Network := ⟨false, peer, 32⟩

/-- `peer in subnet` -/
def Network.holds (subnet : Network) (peer : ℕ) : Prop :=
  subnet.address ≤ peer ∧ peer < subnet.address + 2 ^ (32 - subnet.prefixLength)

instance (subnet : Network) (peer : ℕ) : Decidable (subnet.holds peer) := by
  unfold Network.holds; infer_instance

/-- An address of the subnet that a container may have. -/
def Network.usable (subnet : Network) (peer : ℕ) : Prop :=
  subnet.holds peer ∧ ¬ (peer / 2 ^ 28 = 14 ∨ peer / 2 ^ 24 = 127 ∨ peer = 0 ∨
    peer = subnet.address ∨ peer = subnet.address + 2 ^ (32 - subnet.prefixLength) - 1)

instance (subnet : Network) (peer : ℕ) : Decidable (subnet.usable peer) := by
  unfold Network.usable; infer_instance

/-! ## The ledger -/

/-- The states of an operation. -/
inductive State where
  | planned | noChange | applyIntent | outcomeUnknown | applied | restorePlanned | restoreIntent
  | restoreUnknown | restored | notAppliedObserved
  deriving DecidableEq, Repr

/-- `BUSY` -/
def State.busy : State → Bool
  | applyIntent | outcomeUnknown | restoreIntent | restoreUnknown => true
  | _ => false

/-- The states of an operation whose peer is approved. -/
def State.approved : State → Bool
  | applied | restorePlanned | restored => true
  | s => s.busy

/-- The states of an operation that may have had an effect. -/
def State.used : State → Bool
  | notAppliedObserved => true
  | s => s.approved

inductive Kind where
  | apply | restore
  deriving DecidableEq, Repr

/-- An effect that was intended at some time. -/
structure Effect where
  kind : Kind
  atUnix : ℚ
  deriving DecidableEq

/-- A preview of an effect. -/
structure Preview where
  atUnix : ℚ
  expiresAt : ℚ
  unitSha256 : String
  peer : ℕ
  deriving DecidableEq

/-- The instance that an operation pins. -/
structure Inst where
  containerId : String
  imageId : String
  deriving DecidableEq

/-- A row of the ledger. -/
structure Row where
  id : String
  state : State
  plannedAt : ℚ
  observedAtUnix : ℚ
  expiresAt : ℚ
  before : List Network
  after : List Network
  afterPeer : ℕ
  unitSha256 : String
  inst : Inst
  effects : List Effect
  priorNoEffectPreview : Option String
  restorePreviews : List Preview
  reconciledFrom : Option State
  lastEffectEvidence : Option String
  lastEffectObservedAt : Option ℚ
  deriving DecidableEq

/-- The ledger, and whether it is revoked. -/
structure Ledger where
  rows : List Row
  revoked : Bool

/-- The times of all effects. -/
def Ledger.effectTimes (l : Ledger) : List ℚ := l.rows.flatMap fun r => r.effects.map Effect.atUnix

/-- `valid_clock` -/
def validClock (value : ℚ) : Prop := 0 ≤ value ∧ value ≤ 253402300799

instance (value : ℚ) : Decidable (validClock value) := by unfold validClock; infer_instance

/-- What an incident's key is a digest of. -/
structure Incident where
  inst : Inst
  before : Finset Network
  after : Finset Network
  deriving DecidableEq

/-- `incident_key`, before the digest. -/
def Row.incident (row : Row) : Except String Incident := do
  need (isHex 64 row.inst.containerId = true ∧ isHex 64 row.inst.imageId = true)
    "incident_instance_unconfirmed"
  need (isHex 64 row.unitSha256 = true) "incident_unit_unconfirmed"
  let before ← networks row.before
  let after ← networks row.after
  return ⟨row.inst, before.toFinset, after.toFinset⟩

/-! ## The outside -/

/-- What the manager sees. -/
structure Inspection where
  containerId : String
  imageId : String
  networkId : String
  networkName : String
  peerIpv4 : ℕ
  running : Bool
  unitSha256 : String
  unitActive : String
  denyAll : Bool
  allowed : List Network
  logicalServiceVerified : Bool

/-- What the controller asks the clock and the manager for. -/
inductive Request where
  | clock
  | headroom
  | waitInactive
  | inspect
  | setAllow (expected wanted : List Network)
  deriving DecidableEq

/-- The replies; the manager may fail. -/
abbrev Reply : Request → Type
  | .clock => ℚ
  | .headroom => Except String Bool
  | .waitInactive => Except String Unit
  | .inspect => Except String Inspection
  | .setAllow _ _ => Except String Unit

abbrev Prog := Program Ledger Reply

def clock : Prog ℚ := ask Request.clock

/-- A call of the manager whose failure stops the request. -/
def raised {α : Type} : Except String α → Prog α
  | .ok a => pure a
  | .error e => .fail e

/-- The reviewed policy. -/
structure Policy where
  enabled : Bool
  networkId : String
  networkName : String
  subnet : Network
  baseAllow : List Network
  seedPeers : List ℕ
  unitHashes : List String

/-- What `inspect` returns. -/
structure Observed where
  peer : ℕ
  allowed : List Network
  unitActive : String
  unitSha256 : String
  inst : Inst

/-- What a request returns: the row to show, how it was found, and whether it was there before. -/
inductive Answer where
  | view (row : Row) (association : String) (matched : Bool)
  | needsRestorePlan (row : Row)
  | revoked (duplicate : Bool)

def storedReceipt : String := "stored_receipt_not_current_target"

def currentTarget : String := "current_target_verified_by_existing_preview"

/-- `view` -/
def view (row : Row) (association : String) (matched : Bool) : Prog Answer := do
  let now ← clock
  require (validClock now ∧ validClock row.observedAtUnix) "clock_order_unconfirmed"
  let _ ← lift row.incident
  return .view row association matched

/-! ## The controller -/

section
variable (p : Policy)

/-- The one allowed network that is not a base network, where it is the network of a peer. -/
def foreignPeer (allowed : List Network) : Except String ℕ := do
  need (∀ n ∈ p.baseAllow, n ∈ allowed) "base_networks_changed"
  match (allowed.filter (· ∉ p.baseAllow)).dedup with
  | [old] => do
    need (old.v6 = false ∧ old.prefixLength = 32 ∧ p.subnet.holds old.address) "single_peer_only"
    return old.address
  | _ => .error "unexpected_network_permission_set"

/-- The checks of `inspect` that do not look at the ledger. -/
def checkInspection (value : Inspection) : Except String Observed := do
  need (value.networkId = p.networkId ∧ value.networkName = p.networkName)
    "identity_changed_specific_owner_review_required"
  need (value.logicalServiceVerified = true) "reviewed_logical_NodeRED_service_not_verified"
  need (isHex 64 value.containerId = true ∧ isHex 64 value.imageId = true)
    "observed_instance_identity_unconfirmed"
  need (value.running = true ∧ value.unitSha256 ∈ p.unitHashes ∧ value.denyAll = true ∧
    (value.unitActive = "active" ∨ value.unitActive = "inactive"))
    "reviewed_unit_or_container_unavailable"
  need (p.subnet.usable value.peerIpv4) "peer_outside_reviewed_container_network"
  let allowed ← networks value.allowed
  return ⟨value.peerIpv4, allowed, value.unitActive, value.unitSha256,
    ⟨value.containerId, value.imageId⟩⟩

/-- `inspect` -/
def inspect : Prog Observed := do
  let reply : Except String Inspection ← ask Request.inspect
  let value ← raised reply
  let observed ← lift (checkInspection p value)
  let old ← lift (foreignPeer p observed.allowed)
  let ledger ← get
  -- an intent authorizes its own derived peer, a mere plan does not
  require (old ∈ p.seedPeers ∨ ∃ r ∈ ledger.rows, r.state.approved = true ∧ r.afterPeer = old)
    "foreign_binding_requires_reconciliation"
  return observed

/-- `headroom` -/
def headroom : Prog Unit := do
  let reply : Except String Bool ← ask Request.headroom
  let enough ← raised reply
  require (enough = true) "host_headroom_unconfirmed"

/-- `MAXIMUM_PER_24H` -/
def maximumPer24h : ℕ := 4

/-- `MINIMUM_SPACING` -/
def minimumSpacing : ℚ := 600

/-- `PLAN_SECONDS` -/
def planSeconds : ℚ := 900

/-- `admission` -/
def admission (now : ℚ) : Prog Unit := do
  let ledger ← get
  require (p.enabled = true ∧ ledger.revoked = false) "binding_catalogue_revoked"
  require (ledger.rows.length ≤ 64) "binding_history_capacity"
  require (∀ r ∈ ledger.rows, r.state.busy = false)
    "uncertain_binding_operation_requires_reconciliation"
  require (∀ t ∈ ledger.effectTimes, t ≤ now + 1) "clock_reversal_requires_reconciliation"
  require (ledger.effectTimes.countP (fun t => now - 86400 ≤ t ∧ t ≤ now) < maximumPer24h)
    "binding_daily_budget_exhausted"
  require (∀ t ∈ ledger.effectTimes, minimumSpacing ≤ now - t) "binding_minimum_spacing"
  headroom

/-- `correlation_read_admission` -/
def correlationReadAdmission (now : ℚ) : Prog Unit := do
  let ledger ← get
  require (p.enabled = true ∧ ledger.revoked = false) "binding_catalogue_revoked"
  require (validClock now) "clock_order_unconfirmed"
  require (ledger.rows.length ≤ 64) "binding_history_capacity"
  require (∀ r ∈ ledger.rows, r.state.busy = false)
    "uncertain_binding_operation_requires_reconciliation"
  require (∀ t ∈ ledger.effectTimes, validClock t ∧ t ≤ now + 1)
    "clock_reversal_requires_reconciliation"
  headroom

/-- `renewable_no_effect_preview` -/
def Row.renewable (row : Row) (now : ℚ) : Prop :=
  row.state = .planned ∧ row.effects = [] ∧ validClock row.plannedAt ∧ validClock row.expiresAt ∧
    validClock row.observedAtUnix ∧ row.plannedAt ≤ row.observedAtUnix ∧ row.observedAtUnix ≤ now ∧
    row.plannedAt < row.expiresAt ∧ row.expiresAt ≤ now

instance (row : Row) (now : ℚ) : Decidable (row.renewable now) := by
  unfold Row.renewable; infer_instance

/-- The rows of the same incident as what is observed now. -/
def matchesOf (actual : Observed) (after : List Network) : List Row → Except String (List Row)
  | [] => .ok []
  | row :: rows =>
    if row.inst ≠ actual.inst then matchesOf actual after rows
    else do
      let incident ← row.incident
      let rest ← matchesOf actual after rows
      return if incident.after = after.toFinset ∧ (actual.allowed.toFinset = incident.before ∨
        actual.allowed.toFinset = incident.after) then row :: rest else rest

/-- The rows with a preview that is untouched and still valid. -/
def activeOf : List Row → Prog (List Row)
  | [] => pure []
  | row :: rows =>
    if row.state = .planned ∧ row.effects = [] ∧ validClock row.plannedAt ∧
        validClock row.expiresAt ∧ validClock row.observedAtUnix ∧
        row.plannedAt ≤ row.observedAtUnix then do
      let now ← clock
      let rest ← activeOf rows
      return if row.observedAtUnix ≤ now ∧ now < row.expiresAt then row :: rest else rest
    else activeOf rows

/-- Whether a row comes before another by the time of its plan and its identifier. -/
def Row.earlier (a b : Row) : Prop := a.plannedAt < b.plannedAt ∨ (a.plannedAt = b.plannedAt ∧ a.id < b.id)

instance (a b : Row) : Decidable (a.earlier b) := by unfold Row.earlier; infer_instance

/-- `min(pool, key=...)` -/
def earliest : List Row → Option Row
  | [] => none
  | row :: rows => some (rows.foldl (fun best r => if r.earlier best then r else best) row)

/-- The rows that `matching_incident` chooses from. -/
def choices (rows used active : List Row) : List Row :=
  if used ≠ [] then used else if active ≠ [] then active else rows

/-- Whether an operation had an effect or an intent. -/
def Row.used (row : Row) : Bool := row.effects ≠ [] || row.state.used

/-- `matching_incident` -/
def matchingIncident (actual : Observed) (after : List Network) : Prog (Option Row) := do
  let ledger ← get
  let rows ← lift (matchesOf actual after ledger.rows)
  if rows = [] then return none
  else do
    let used := rows.filter Row.used
    require (used.length ≤ 1) "ambiguous_incident_history_requires_review"
    let active ← activeOf rows
    require (∀ r ∈ choices rows used active, validClock r.plannedAt)
      "incident_receipt_clock_unconfirmed"
    return earliest (choices rows used active)

/-- `save` -/
def save (row : Row) : Prog Unit :=
  transaction fun l => .ok { l with rows := upsert Row.id row l.rows }

/-- `admin_action_reconcile` of an uncertain operation. -/
def reconcile (row : Row) : Prog Answer := do
  let actual ← inspect p
  require (actual.inst = row.inst) "instance_changed_uncertain_operation_requires_reconciliation"
  let state ← lift (reconciled row actual.allowed)
  let now ← clock
  let row := { row with
    state, reconciledFrom := some row.state, observedAtUnix := now
    lastEffectEvidence := some "state_observed_after_uncertain_intent_actor_unconfirmed"
    lastEffectObservedAt := some now }
  save row
  view row storedReceipt false
where
  /-- The state that the observed networks prove. -/
  reconciled (row : Row) (allowed : List Network) : Except String State :=
    if row.state = .restoreIntent ∨ row.state = .restoreUnknown then
      if allowed = row.before then .ok .restored
      else if allowed = row.after then .ok .notAppliedObserved
      else .error "foreign_binding_preserved_no_replay"
    else
      if allowed = row.after then .ok .applied
      else if allowed = row.before then .ok .notAppliedObserved
      else .error "foreign_binding_preserved_no_replay"

/-- A new plan, after the incident was looked up. -/
def planNew (identifier : String) (now : ℚ) (actual : Observed) (after : List Network)
    (prior : Option String) : Prog Answer := do
  admission p now
  let ledger ← get
  require (ledger.rows.length < 64) "binding_history_capacity"
  let row : Row :=
    { id := identifier, state := if actual.allowed = after then .noChange else .planned
      plannedAt := now, observedAtUnix := now, expiresAt := now + planSeconds
      before := actual.allowed, after, afterPeer := actual.peer
      unitSha256 := actual.unitSha256, inst := actual.inst, effects := []
      priorNoEffectPreview := prior, restorePreviews := [], reconciledFrom := none
      lastEffectEvidence := none, lastEffectObservedAt := none }
  save row
  view row currentTarget false

/-- `nodered_plan_reader_binding` of a new operation. -/
def plan (identifier : String) (now : ℚ) : Prog Answer := do
  correlationReadAdmission p now
  let actual ← inspect p
  let after := sorted (p.baseAllow ++ [peerNetwork actual.peer])
  let existing ← matchingIncident actual after
  match existing with
  | none => planNew p identifier now actual after none
  | some row =>
    if row.renewable now then planNew p identifier now actual after (some row.id)
    else view row currentTarget true

/-- `nodered_plan_restore_reader_binding` of an applied operation. -/
def planRestore (row : Row) (now : ℚ) : Prog Answer := do
  admission p now
  require (row.restorePreviews.length < 8) "restore_preview_capacity"
  let actual ← inspect p
  require (actual.inst = row.inst) "instance_changed_since_original_effect"
  require (actual.allowed = row.after ∧ actual.peer = row.afterPeer) "restore_binding_conflict"
  let row := { row with
    restorePreviews := row.restorePreviews ++
      [⟨now, now + planSeconds, actual.unitSha256, actual.peer⟩]
    state := .restorePlanned, observedAtUnix := now }
  save row
  view row storedReceipt false

/-- What an effect changes. -/
structure Plan where
  kind : Kind
  preview : Preview
  expected : List Network
  wanted : List Network

def Kind.intent : Kind → State
  | .apply => .applyIntent
  | .restore => .restoreIntent

def Kind.unknown : Kind → State
  | .apply => .outcomeUnknown
  | .restore => .restoreUnknown

def Kind.done : Kind → State
  | .apply => .applied
  | .restore => .restored

def Kind.expired : Kind → String
  | .apply => "binding_plan_expired"
  | .restore => "restore_plan_expired"

/-- `applying` an operation or restoring it, as its row says. -/
def planOf (row : Row) : Kind → Except String Plan
  | .apply => .ok ⟨.apply, ⟨row.plannedAt, row.expiresAt, row.unitSha256, row.afterPeer⟩,
      row.before, row.after⟩
  | .restore => do
    let preview ← orFail "restore_preview_missing" row.restorePreviews.getLast?
    return ⟨.restore, preview, row.after, row.before⟩

/-- A preview that is still valid. -/
def Preview.covers (preview : Preview) (now : ℚ) : Prop :=
  preview.atUnix ≤ now ∧ now < preview.expiresAt

instance (preview : Preview) (now : ℚ) : Decidable (preview.covers now) := by
  unfold Preview.covers; infer_instance

/-- An operation is the one that its incident is decided by. -/
def canonical (row : Row) (actual : Observed) : Kind → Prog Unit
  | .restore => pure ()
  | .apply => do
    let found ← matchingIncident actual row.after
    require (∃ r ∈ found, r.id = row.id) "incident_already_has_canonical_operation"

/-- The write succeeded, and the networks are the wanted ones. -/
def verify (row : Row) (plan : Plan) (reply : Except String Unit) : Prog Unit := do
  raised reply
  let verified ← inspect p
  require (verified.allowed = plan.wanted ∧ verified.inst = row.inst)
    "binding_write_postverification_unconfirmed"

/-- The write and its verification. -/
def write (row : Row) (plan : Plan) : Prog Unit := do
  let reply : Except String Unit ← ask (Request.setAllow plan.expected plan.wanted)
  verify p row plan reply

/-- The end of an effect: what the write proved is recorded. -/
def settle (row : Row) (plan : Plan) (outcome : Except String Unit) : Prog Answer := do
  let now ← clock
  match outcome with
  | .error _ => do
    let row := { row with state := plan.kind.unknown, observedAtUnix := now }
    save row
    view row storedReceipt false
  | .ok _ => do
    let row := { row with
      state := plan.kind.done, observedAtUnix := now
      lastEffectEvidence := some "native_command_ack_and_postverification"
      lastEffectObservedAt := some now }
    save row
    view row storedReceipt false

/-- The intent is recorded before the write. -/
def perform (row : Row) (plan : Plan) : Prog Answer := do
  let now ← clock
  admission p now
  require (plan.preview.covers now) plan.kind.expired
  let row := { row with
    state := plan.kind.intent, effects := row.effects ++ [⟨plan.kind, now⟩], observedAtUnix := now
    lastEffectEvidence := some "unconfirmed_intent", lastEffectObservedAt := some now }
  save row
  let outcome ← attempt (write p row plan)
  settle row plan outcome

/-- `nodered_apply_reader_binding` and `nodered_restore_reader_binding`, where the state allows
    them. -/
def effect (row : Row) (kind : Kind) (now : ℚ) : Prog Answer := do
  admission p now
  let plan ← lift (planOf row kind)
  require (plan.preview.covers now) kind.expired
  let reply : Except String Unit ← ask Request.waitInactive
  raised reply
  let now ← clock
  admission p now
  require (plan.preview.covers now) kind.expired
  let actual ← inspect p
  require (actual.unitActive = "inactive") "reader_active_no_effect_performed"
  require (actual.inst = row.inst) "instance_changed_since_preview"
  require (actual.peer = plan.preview.peer ∧ actual.unitSha256 = plan.preview.unitSha256)
    "binding_changed_since_plan"
  require (actual.allowed = plan.expected) "binding_compare_conflict"
  canonical row actual kind
  perform p row plan

/-- The action of `admin_action_apply` on an operation with a row. -/
def act (action : Action) (row : Row) (now : ℚ) : Prog Answer :=
  match action with
  | .planRestore =>
    if row.state ≠ .applied ∧ row.state ≠ .restorePlanned then view row storedReceipt false
    else if row.state = .restorePlanned ∧ ∃ v ∈ row.restorePreviews.getLast?, v.covers now then
      view row storedReceipt false
    else planRestore p row now
  | .restore =>
    if row.state = .applied then do
      let _ ← view row storedReceipt false
      return .needsRestorePlan row
    else if row.state ≠ .restorePlanned then view row storedReceipt false
    else effect p row .restore now
  | _ =>
    if row.state ≠ .planned then view row storedReceipt false
    else effect p row .apply now

/-- `request` of a valid request. -/
def request (tool : Tool) (action : Action) (identifier : String) : Prog Answer := do
  let now ← clock
  let ledger ← get
  let row := lookup Row.id identifier ledger.rows
  match tool with
  | .revoke => do
    transaction fun l => .ok { l with revoked := true }
    return .revoked ledger.revoked
  | .status => do
    let row ← lift (orFail "binding_operation_not_found" row)
    view row storedReceipt false
  | .reconcile => do
    let row ← lift (orFail "binding_operation_not_found" row)
    if row.state.busy then reconcile p row else view row storedReceipt false
  | .apply =>
    match action, row with
    | .plan, some row => view row storedReceipt true
    | .plan, none => plan p identifier now
    | _, none => .fail "plan_required_before_effect"
    | action, some row => act p action row now

/-- `request` -/
def handle (tool : String) (args : Json) : Prog Answer := do
  let (tool, action, identifier) ← lift (validate tool args)
  request p tool action identifier

end

end SmartHome.ReaderBinding
