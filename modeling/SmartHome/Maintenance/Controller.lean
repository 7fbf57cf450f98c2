/-
  The maintenance controller (`maintenance_controller.py`): what it observes it records, and a command
  is recorded as an intent before the backend executes it.
-/
import SmartHome.Maintenance.Journal

namespace SmartHome.Maintenance

open Verif Program Mqtt

/-! ## Commands -/

namespace Command

def before : Command → Phase
  | .stopSource => .armed
  | .stopConsumer => .sourceDrained
  | .startConsumer => .consumerStopped
  | .startSource => .consumerReady

def intent : Command → Phase
  | .stopSource => .sourceStopIntent
  | .stopConsumer => .consumerStopIntent
  | .startConsumer => .consumerStartIntent
  | .startSource => .sourceStartIntent

def after : Command → Phase
  | .stopSource => .sourceStopped
  | .stopConsumer => .consumerStopped
  | .startConsumer => .consumerStarted
  | .startSource => .sourceStarted

end Command

/-- `OBSERVATIONS` -/
def observations : List Phase := [.begin, .armed, .sourceDrained, .consumerReady, .newSourceVerified, .complete]

/-! ## What a command needs -/

/-- Two facts that are counters, in order. -/
def Less (bits : ℕ) (v v' : Json) : Prop := ∃ m ∈ uint bits v, ∃ n ∈ uint bits v', m < n

def AtMost (bits : ℕ) (v v' : Json) : Prop := ∃ m ∈ uint bits v, ∃ n ∈ uint bits v', m ≤ n

instance (bits : ℕ) (v v' : Json) : Decidable (Less bits v v') := inferInstanceAs (Decidable (∃ m ∈ uint bits v, _))
instance (bits : ℕ) (v v' : Json) : Decidable (AtMost bits v v') := inferInstanceAs (Decidable (∃ m ∈ uint bits v, _))

namespace Operation
variable (op : Operation)

/-- A fact of a phase. -/
def fact (phase : Phase) (key : String) : Json := (op.facts phase).get key

/-- The time of a phase. -/
def atNs (phase : Phase) : Json := (op.record phase).elim .null fun r => num r.body.atNs

def WindowConfirmed : Prop :=
  op.fact .armed "window_id_sha256" = op.fact .begin "window_id_sha256" ∧
    Less 64 (op.fact .begin "consumer_checkpoint_sequence") (op.fact .armed "consumer_checkpoint_sequence")

def SourceDrained : Prop :=
  op.fact .sourceStopped "binding_sha256" = op.fact .begin "source_binding_sha256" ∧
  op.fact .begin "source_binding_sha256" = op.fact .sourceStopIntent "binding_sha256" ∧
  op.fact .sourceStopped "container_state" = .str "exited" ∧
  op.fact .sourceStopped "exit_code" = .int 0 ∧
  op.fact .sourceStopped "sender_pidfd_exited" = .bool true ∧
  op.fact .sourceStopped "source_epoch" = op.fact .sourceDrained "source_epoch" ∧
  op.fact .sourceDrained "source_epoch" = op.fact .begin "source_epoch" ∧
  op.fact .sourceStopped "source_instance_sha256" = op.fact .sourceDrained "source_instance_sha256" ∧
  op.fact .sourceDrained "source_instance_sha256" = op.fact .begin "source_instance_sha256" ∧
  op.fact .sourceDrained "source_closed" = .bool true ∧
  op.fact .sourceDrained "pending_packet" = .bool false ∧
  op.fact .sourceDrained "active_counts_nonempty" = .bool false ∧
  op.fact .sourceDrained "accepted_frames" = op.fact .sourceDrained "acknowledged_frames" ∧
  AtMost 128 (op.fact .begin "accepted_frames") (op.fact .sourceDrained "accepted_frames") ∧
  op.fact .sourceDrained "unknown_epoch_tails" = op.fact .begin "unknown_epoch_tails" ∧
  op.fact .sourceDrained "reader_instance_sha256" = op.fact .begin "reader_instance_sha256"

def ConsumerStopped : Prop :=
  op.fact .consumerStopped "container_state" = .str "exited" ∧
  op.fact .consumerStopped "exit_code" = .int 0 ∧
  op.fact .consumerStopped "binding_sha256" = op.fact .begin "consumer_binding_sha256" ∧
  op.fact .begin "consumer_binding_sha256" = op.fact .consumerStopIntent "binding_sha256" ∧
  AtMost 64 (op.fact .sourceDrained "consumer_checkpoint_sequence") (op.fact .consumerStopped "consumer_checkpoint_sequence")

def ConsumerReady : Prop :=
  op.fact .consumerStarted "start_boundary_ns" = op.atNs .consumerStartIntent ∧
  op.fact .consumerStarted "binding_sha256" = op.fact .consumerReady "binding_sha256" ∧
  op.fact .consumerReady "binding_sha256" = op.fact .consumerStartIntent "binding_sha256" ∧
  op.fact .consumerReady "consumer_instance_sha256" ≠ op.fact .begin "consumer_instance_sha256" ∧
  op.fact .consumerReady "reader_instance_sha256" = op.fact .begin "reader_instance_sha256" ∧
  AtMost 64 (op.atNs .consumerStartIntent) (op.fact .consumerReady "reader_observed_ns") ∧
  AtMost 64 (op.fact .consumerReady "reader_observed_ns") (op.atNs .consumerReady) ∧
  Less 64 (op.fact .consumerStopped "consumer_checkpoint_sequence") (op.fact .consumerReady "consumer_checkpoint_sequence") ∧
  op.fact .consumerReady "old_source_epoch" = op.fact .begin "source_epoch" ∧
  op.fact .consumerReady "old_source_instance_sha256" = op.fact .begin "source_instance_sha256" ∧
  op.fact .consumerReady "source_closed" = .bool true ∧
  op.fact .consumerReady "source_identity" = .str "verified_exited" ∧
  op.fact .consumerReady "protocol_counts_sha256" = op.fact .sourceDrained "protocol_counts_sha256"

instance : Decidable op.WindowConfirmed := inferInstanceAs (Decidable (_ ∧ _))
instance : Decidable op.SourceDrained :=
  inferInstanceAs (Decidable (_ ∧ _ ∧ _ ∧ _ ∧ _ ∧ _ ∧ _ ∧ _ ∧ _ ∧ _ ∧ _ ∧ _ ∧ _ ∧ _ ∧ _ ∧ _))
instance : Decidable op.ConsumerStopped := inferInstanceAs (Decidable (_ ∧ _ ∧ _ ∧ _ ∧ _))
instance : Decidable op.ConsumerReady :=
  inferInstanceAs (Decidable (_ ∧ _ ∧ _ ∧ _ ∧ _ ∧ _ ∧ _ ∧ _ ∧ _ ∧ _ ∧ _ ∧ _ ∧ _))

/-- What `dispatch_invariants` asks. -/
def Allows : Command → Prop
  | .stopSource => op.WindowConfirmed
  | .stopConsumer => op.WindowConfirmed ∧ op.SourceDrained
  | .startConsumer => op.WindowConfirmed ∧ op.SourceDrained ∧ op.ConsumerStopped
  | .startSource => op.WindowConfirmed ∧ op.SourceDrained ∧ op.ConsumerStopped ∧ op.ConsumerReady

end Operation

/-- `dispatch_invariants` -/
def dispatchInvariants (op : Operation) (command : Command) : Prog Unit := do
  require op.WindowConfirmed "maintenance_window_unconfirmed"
  if command = .stopSource then return
  else
    require op.SourceDrained "maintenance_source_not_drained"
    if command = .stopConsumer then return
    else
      require op.ConsumerStopped "maintenance_consumer_not_stopped"
      if command = .startConsumer then return
      else require op.ConsumerReady "maintenance_consumer_not_ready"

/-! ## The controller -/

inductive State where
  | alreadyRecorded | observationUnavailable | observed | awaitingPreflight | effectBoundaryRejected
  | executionResultUnknown | awaitingObservation
  deriving DecidableEq, Repr

/-- What the controller returns, without what `correlation_facts` says of the operation. -/
structure Result where
  state : State
  dispatched : Bool
  deriving DecidableEq, Repr

section
variable [Sha256]

/-- `_operation` -/
def operation (id : Hex 32) : Prog (Option Operation) := do
  match ← reading fun f => f.find id with
  | none => return none
  | some op =>
    require op.Valid "maintenance_record_invalid"
    require (op.phaseList.head? = some .begin) "maintenance_data_only_operation"
    return some op

/-- `_clock` -/
def clock (op : Option Operation) : Prog (ℕ × Hex 64) := do
  match ← ask (ρ := Reply) Request.clock with
  | none => fail "maintenance_clock_unknown"
  | some (now, domain) =>
    require (now < 2 ^ 64) "maintenance_record_invalid"
    match op with
    | none => return (now, domain)
    | some op =>
      require (∃ r ∈ op.records.head?, domain = r.body.clockDomain) "maintenance_clock_changed"
      require (∃ r ∈ op.records.getLast?, r.body.atNs ≤ now) "maintenance_clock_reversed"
      return (now, domain)

/-- The digest of the last record. -/
def head (op : Operation) : Option (Hex 64) := op.records.getLast?.map Row.sha256

/-- `_append` -/
def appendFacts (approval : Hex 64) (id : Hex 32) (phase : Phase) (facts : Facts) (op : Option Operation) : Prog Receipt := do
  let (now, domain) ← clock op
  append approval ⟨id, phase, facts, now, domain, op.bind head⟩

/-- Facts that are recorded, and what is then returned. -/
def record (approval : Hex 64) (id : Hex 32) (phase : Phase) (facts : Facts) (op : Option Operation) (dispatched : Bool) :
    Prog Result := do
  let _ ← appendFacts approval id phase facts op
  match ← operation id with
  | none => fail "maintenance_operation_missing"
  | some _ => return ⟨.observed, dispatched⟩

/-- The end of `observe`. -/
def observeFacts (approval : Hex 64) (id : Hex 32) (phase : Phase) (purpose : Option Purpose) (op : Option Operation) :
    Prog Result := do
  let authorized ← ask (ρ := Reply) (.authorize op false)
  require (authorized = true) "authorization_refused"
  match ← ask (ρ := Reply) (.facts phase op purpose) with
  | .unavailable => return ⟨.observationUnavailable, false⟩
  | .raised => fail "backend_error"
  | .value facts => record approval id phase facts op false

/-- `observe` -/
def observe (approval : Hex 64) (id : Hex 32) (phase : Phase) (expectedHead : Option (Hex 64)) (purpose : Option Purpose) :
    Prog Result := do
  require (phase ∈ observations) "maintenance_observation_invalid"
  match ← operation id with
  | none =>
    require (phase = .begin ∧ expectedHead = none) "maintenance_parent_changed"
    let state ← reading Files.read
    require (∀ s ∈ state, ∀ op ∈ s.operations, ∃ phase ∈ op.lastPhase, phase ∈ terminal)
      "maintenance_prior_operation_unresolved"
    require (purpose.isSome = true) "maintenance_purpose_invalid"
    observeFacts approval id phase purpose none
  | some op =>
    require (purpose = none) "maintenance_purpose_invalid"
    if (op.record phase).isSome then return ⟨.alreadyRecorded, false⟩
    else
      require (head op = expectedHead) "maintenance_parent_changed"
      observeFacts approval id phase purpose (some op)

/-- The end of `dispatch`: what the command did. -/
def observeEffect (approval : Hex 64) (id : Hex 32) (command : Command) (op : Operation) (dispatched : Bool) : Prog Result := do
  match ← ask (ρ := Reply) (.facts command.after (some op) none) with
  | .unavailable => return ⟨.awaitingObservation, dispatched⟩
  | .raised => fail "backend_error"
  | .value facts => record approval id command.after facts (some op) dispatched

/-- A command that has no intent yet. -/
def dispatchFresh (approval : Hex 64) (id : Hex 32) (command : Command) (op : Operation) : Prog Result := do
  match ← ask (ρ := Reply) (.preflight command op) with
  | .unavailable => return ⟨.awaitingPreflight, false⟩
  | .raised => fail "backend_error"
  | .value facts =>
    let _ ← appendFacts approval id command.intent facts (some op)
    match ← operation id with
    | none => fail "maintenance_operation_missing"
    | some op =>
      match op.record command.intent with
      | none => fail "maintenance_record_invalid"
      | some row =>
        match ← ask (ρ := Reply) (.execute command row) with
        | .rejected => return ⟨.effectBoundaryRejected, false⟩
        | .raised => return ⟨.executionResultUnknown, true⟩
        | .done => observeEffect approval id command op true

/-- The heads that `dispatch` accepts. -/
def parents (op : Operation) (command : Command) : List (Option (Hex 64)) :=
  head op :: (op.record command.intent).elim [] fun r => [r.body.previous]

/-- `dispatch` -/
def dispatch (approval : Hex 64) (id : Hex 32) (command : Command) (expectedHead : Option (Hex 64)) : Prog Result := do
  match ← operation id with
  | none => fail "maintenance_operation_missing"
  | some op =>
    if (op.record command.after).isSome then return ⟨.alreadyRecorded, false⟩
    else
      require (op.lastPhase = some command.before ∨ op.lastPhase = some command.intent) "maintenance_phase_changed"
      require (expectedHead ∈ parents op command) "maintenance_parent_changed"
      dispatchInvariants op command
      let authorized ← ask (ρ := Reply) (.authorize (some op) (op.record command.intent).isNone)
      require (authorized = true) "authorization_refused"
      if (op.record command.intent).isNone then dispatchFresh approval id command op
      else observeEffect approval id command op false

end
end SmartHome.Maintenance
