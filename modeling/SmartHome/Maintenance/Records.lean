/-
  The records of MQTT maintenance operations (`maintenance_journal.py`): what each phase may say, and
  which lists of records are operations.

  Numbers stand for their decimal texts, and digests and identities are hexadecimal texts by type.
-/
import SmartHome.Lib.JsonSort
import SmartHome.Mqtt.Counters

namespace SmartHome.Maintenance

open Verif Mqtt

/-! ## Phases -/

inductive Phase where
  | begin | armed | sourceStopIntent | sourceStopped | sourceDrained | consumerStopIntent | consumerStopped
  | consumerStartIntent | consumerStarted | consumerReady | sourceStartIntent | sourceStarted
  | newSourceVerified | complete
  | frozenBegin | frozenComplete
  | bootstrapBegin | bootstrapWorkerBound | bootstrapRemoteIntent | bootstrapReportRecorded
  | failed | cancelled | rescued
  deriving DecidableEq, Repr

def Phase.name : Phase → String
  | .begin => "begin"
  | .armed => "armed"
  | .sourceStopIntent => "source_stop_intent"
  | .sourceStopped => "source_stopped"
  | .sourceDrained => "source_drained"
  | .consumerStopIntent => "consumer_stop_intent"
  | .consumerStopped => "consumer_stopped"
  | .consumerStartIntent => "consumer_start_intent"
  | .consumerStarted => "consumer_started"
  | .consumerReady => "consumer_ready"
  | .sourceStartIntent => "source_start_intent"
  | .sourceStarted => "source_started"
  | .newSourceVerified => "new_source_verified"
  | .complete => "complete"
  | .frozenBegin => "frozen_begin"
  | .frozenComplete => "frozen_complete"
  | .bootstrapBegin => "bootstrap_begin"
  | .bootstrapWorkerBound => "bootstrap_worker_bound"
  | .bootstrapRemoteIntent => "bootstrap_remote_intent"
  | .bootstrapReportRecorded => "bootstrap_report_recorded"
  | .failed => "failed"
  | .cancelled => "cancelled"
  | .rescued => "rescued"

/-- `PHASES` -/
def phases : List Phase :=
  [.begin, .armed, .sourceStopIntent, .sourceStopped, .sourceDrained, .consumerStopIntent, .consumerStopped,
    .consumerStartIntent, .consumerStarted, .consumerReady, .sourceStartIntent, .sourceStarted,
    .newSourceVerified, .complete]

/-- `FROZEN_PHASES` -/
def frozenPhases : List Phase := [.frozenBegin, .frozenComplete]

/-- `LEGACY_BOOTSTRAP_PHASES` -/
def legacyBootstrapPhases : List Phase := [.bootstrapBegin, .bootstrapRemoteIntent, .bootstrapReportRecorded]

/-- `BOOTSTRAP_PHASES` -/
def bootstrapPhases : List Phase :=
  [.bootstrapBegin, .bootstrapWorkerBound, .bootstrapRemoteIntent, .bootstrapReportRecorded]

/-- The phases that an operation may begin with. -/
def beginnings : List Phase := [.begin, .frozenBegin, .bootstrapBegin]

/-- The phases that may end an operation at any place. -/
def exits : List Phase := [.failed, .cancelled, .rescued]

/-- The phases after which nothing is recorded. -/
def ended : List Phase := [.complete, .failed, .cancelled, .rescued, .frozenComplete, .bootstrapReportRecorded]

/-! ## Facts -/

/-- What a fact may be. -/
inductive Rule where
  | h | u64 | u128 | b | code | state | purpose | identity | reason | closedSource | expiry | unknown | isFalse

/-- `FACTS` -/
def rules : Phase → List (String × Rule)
  | .bootstrapBegin => [("profile_sha256", .h), ("worker_manifest_sha256", .h), ("bootstrap_approval_sha256", .h),
      ("baseline_policy_sha256", .h), ("baseline_manifest_sha256", .h), ("snapshot_operation_sha256", .h),
      ("deadline_ns", .u64)]
  | .bootstrapRemoteIntent => [("bundle_sha256", .h), ("request_sha256", .h), ("dispatch_completed", .isFalse)]
  | .bootstrapWorkerBound => [("pid", .u64), ("start_ticks", .u64), ("interpreter_dev", .u64),
      ("interpreter_ino", .u64), ("interpreter_sha256", .h), ("command_sha256", .h), ("worker_manifest_sha256", .h)]
  | .bootstrapReportRecorded => [("report_sha256", .h), ("independent_acceptance", .isFalse)]
  | .frozenBegin => [("source_authorization_sha256", .h), ("source_approval_sha256", .h),
      ("source_authorization_state", .closedSource), ("source_expires_at", .expiry),
      ("source_runtime_marker_present", .b), ("code_manifest_sha256", .h), ("profile_sha256", .h),
      ("deadline_ns", .u64), ("metadata_integrity", .unknown), ("effects_dispatched", .isFalse)]
  | .frozenComplete => [("snapshot_manifest_sha256", .h), ("source_authorization_sha256", .h),
      ("metadata_integrity", .unknown), ("effects_dispatched", .isFalse)]
  | .begin => [("purpose", .purpose), ("window_id_sha256", .h), ("code_manifest_sha256", .h),
      ("reader_instance_sha256", .h), ("source_epoch", .u128), ("source_instance_sha256", .h),
      ("source_binding_sha256", .h), ("consumer_instance_sha256", .h), ("consumer_binding_sha256", .h),
      ("consumer_checkpoint_sequence", .u64), ("accepted_frames", .u128), ("unknown_epoch_tails", .u128)]
  | .armed => [("window_id_sha256", .h), ("consumer_checkpoint_sha256", .h), ("consumer_checkpoint_sequence", .u64)]
  | .sourceStopIntent | .consumerStopIntent | .consumerStartIntent | .sourceStartIntent =>
      [("binding_sha256", .h), ("expected_state_sha256", .h)]
  | .sourceStopped => [("binding_sha256", .h), ("source_epoch", .u128), ("source_instance_sha256", .h),
      ("container_state", .state), ("exit_code", .code), ("sender_pidfd_exited", .b)]
  | .sourceDrained => [("source_epoch", .u128), ("source_instance_sha256", .h), ("source_closed", .b),
      ("accepted_frames", .u128), ("acknowledged_frames", .u128), ("pending_packet", .b),
      ("active_counts_nonempty", .b), ("unknown_epoch_tails", .u128), ("consumer_checkpoint_sha256", .h),
      ("consumer_checkpoint_sequence", .u64), ("protocol_counts_sha256", .h), ("reader_instance_sha256", .h)]
  | .consumerStopped => [("binding_sha256", .h), ("container_state", .state), ("exit_code", .code),
      ("consumer_checkpoint_sequence", .u64)]
  | .consumerStarted | .sourceStarted => [("binding_sha256", .h), ("start_boundary_ns", .u64)]
  | .consumerReady => [("binding_sha256", .h), ("consumer_instance_sha256", .h), ("consumer_checkpoint_sha256", .h),
      ("consumer_checkpoint_sequence", .u64), ("reader_instance_sha256", .h), ("reader_observed_ns", .u64),
      ("old_source_epoch", .u128), ("old_source_instance_sha256", .h), ("source_closed", .b),
      ("source_identity", .identity), ("protocol_counts_sha256", .h)]
  | .newSourceVerified => [("source_epoch", .u128), ("source_instance_sha256", .h), ("binding_sha256", .h),
      ("started_ns", .u64), ("covered_before_ns", .u64), ("accepted_frames", .u128), ("reader_instance_sha256", .h)]
  | .complete => [("source_epoch", .u128), ("source_instance_sha256", .h), ("binding_sha256", .h),
      ("acknowledged_frames", .u128), ("consumer_checkpoint_sha256", .h), ("consumer_checkpoint_sequence", .u64),
      ("protocol_counts_sha256", .h)]
  | .failed => [("reason", .reason)]
  | .cancelled => [("reason", .reason), ("no_effects_dispatched", .b)]
  | .rescued => [("reason", .reason), ("rescue_receipt_sha256", .h), ("metadata_disabled", .b)]

/-- `REASONS` -/
def reasons : List String :=
  ["authorization_closed", "binding_changed", "source_unknown", "accounting_unknown", "consumer_not_ready",
    "clock_changed", "deadline", "write_failed", "effect_uncertain", "operator_conflict"]

/-- `uint`, where it does not raise -/
def uint (bits : ℕ) : Json → Option ℕ
  | .str s => (decimal? 38 s).filter fun n => n < 2 ^ bits
  | _ => none

/-- One of some words. -/
def oneOf (words : List String) : Json → Bool
  | .str s => words.contains s
  | _ => false

def Rule.allows : Rule → Json → Bool
  | .h, v => (hex? 64 v).isSome
  | .u64, v => (uint 64 v).isSome
  | .u128, v => (uint 128 v).isSome
  | .b, .bool _ => true
  | .b, _ => false
  | .code, .int n => decide (0 ≤ n ∧ n ≤ 255)
  | .code, _ => false
  | .state, v => oneOf ["exited", "running", "paused", "unknown"] v
  | .purpose, v => oneOf ["backup_snapshot", "container_update", "integration_update"] v
  | .identity, v => oneOf ["verified_live", "verified_exited", "unknown"] v
  | .reason, v => oneOf reasons v
  | .closedSource, v => oneOf ["disabled", "expired", "revoked"] v
  | .expiry, v => oneOf ["none"] v || (uint 64 v).isSome
  | .unknown, v => oneOf ["unknown"] v
  | .isFalse, .bool value => !value
  | .isFalse, _ => false

/-- Facts, a dictionary: its members in the order of their keys. -/
abbrev Facts := {kvs : List (String × Json) // (kvs.map Prod.fst).Pairwise (· < ·)}

/-- A fact. -/
def Facts.get (facts : Facts) (key : String) : Json := ((Json.obj facts.1).get? key).getD .null

/-- `validate_facts` -/
def ValidFacts (phase : Phase) (facts : Facts) : Prop :=
  (facts.1.map Prod.fst).Perm ((rules phase).map Prod.fst) ∧
    ∀ r ∈ rules phase, r.2.allows (facts.get r.1) = true

instance (phase : Phase) (facts : Facts) : Decidable (ValidFacts phase facts) :=
  inferInstanceAs (Decidable (_ ∧ _))

/-! ## Records -/

structure Body where
  operationId : Hex 32
  approval : Hex 64
  phase : Phase
  facts : Facts
  atNs : ℕ
  clockDomain : Hex 64
  sequence : ℕ
  previous : Option (Hex 64)
  deriving DecidableEq

def Body.json (b : Body) : Json :=
  .obj [("approval_sha256", .str b.approval.1), ("at_ns", num b.atNs), ("clock_domain_sha256", .str b.clockDomain.1),
    ("facts", .obj b.facts.1), ("operation_id", .str b.operationId.1), ("phase", .str b.phase.name),
    ("previous_sha256", b.previous.elim .null fun h => .str h.1), ("schema_version", .int 1),
    ("sequence", num b.sequence)]

structure Row where
  body : Body
  sha256 : Hex 64
  deriving DecidableEq

def Row.json (r : Row) : Json := .obj [("body", r.body.json), ("sha256", .str r.sha256.1)]

structure Operation where
  operationId : Hex 32
  approval : Hex 64
  records : List Row
  deriving DecidableEq

def Operation.json (op : Operation) : Json :=
  .obj [("approval_sha256", .str op.approval.1), ("operation_id", .str op.operationId.1),
    ("records", .arr (op.records.map Row.json))]

namespace Operation
variable (op : Operation)

/-- The record of a phase. -/
def record (phase : Phase) : Option Row := op.records.find? fun r => r.body.phase = phase

def phaseList : List Phase := op.records.map fun r => r.body.phase

/-- The last phase. -/
def lastPhase : Option Phase := op.phaseList.getLast?

/-- The facts of a phase. -/
def facts (phase : Phase) : Facts := (op.record phase).elim ⟨[], List.Pairwise.nil⟩ fun r => r.body.facts

end Operation

section
variable [Sha256]

/-- `digest` -/
def digest (j : Json) : Hex 64 := sha256 (ascii j.render)

/-- `record_body` -/
def recordBody (operationId : Hex 32) (approval : Hex 64) (phase : Phase) (facts : Facts) (atNs : ℕ)
    (clockDomain : Hex 64) (sequence : ℕ) (previous : Option (Hex 64)) : Except String Body :=
  if ValidFacts phase facts ∧ atNs < 2 ^ 64 then
    .ok ⟨operationId, approval, phase, facts, atNs, clockDomain, sequence, previous⟩
  else .error "maintenance_record_invalid"

/-! ## Operations -/

/-- The phases that an operation goes through. -/
def path : List Phase → List Phase
  | .frozenBegin :: _ => frozenPhases
  | .bootstrapBegin :: .bootstrapRemoteIntent :: _ => legacyBootstrapPhases
  | .bootstrapBegin :: _ => bootstrapPhases
  | _ => phases

namespace Operation
variable (op : Operation) (first : Row)

/-- What `validate_operation` asks of a record: its place, the one before it, and whether it is last. -/
def RowValid (i : ℕ) (previous : Option Row) (last : Bool) (row : Row) : Prop :=
  (row.body.operationId = op.operationId ∧ row.body.approval = op.approval ∧ ValidFacts row.body.phase row.body.facts ∧
    row.body.atNs < 2 ^ 64 ∧ row.body.sequence = i + 1 ∧ row.body.previous = previous.map Row.sha256) ∧
  row.sha256 = digest row.body.json ∧
  (row.body.phase ∈ [Phase.frozenBegin, Phase.bootstrapBegin] →
    ∃ n ∈ uint 64 (row.body.facts.get "deadline_ns"), row.body.atNs < n) ∧
  (row.body.phase = .frozenComplete →
    row.body.facts.get "source_authorization_sha256" = first.body.facts.get "source_authorization_sha256") ∧
  (row.body.phase ∈ exits → 0 < i ∧ last = true ∧
    (row.body.phase = .cancelled → i ≤ 2 ∧ row.body.facts.get "no_effects_dispatched" = .bool true) ∧
    (row.body.phase = .rescued → 3 ≤ i ∧ row.body.facts.get "metadata_disabled" = .bool true)) ∧
  (row.body.phase ∉ exits → (path op.phaseList)[i]? = some row.body.phase) ∧
  (row.body.phase ≠ .failed → row.body.clockDomain = first.body.clockDomain ∧
    ∀ r ∈ previous, r.body.atNs ≤ row.body.atNs) ∧
  ∀ r ∈ previous, r.body.phase ∉ ended

instance (i : ℕ) (previous : Option Row) (last : Bool) (row : Row) : Decidable (op.RowValid first i previous last row) :=
  inferInstanceAs (Decidable ((_ ∧ _ ∧ _ ∧ _ ∧ _ ∧ _) ∧ _ ∧ _ ∧ _ ∧ _ ∧ _ ∧ _ ∧ _))

/-- The records from the place `i` on. -/
def RowsValid : ℕ → Option Row → List Row → Prop
  | _, _, [] => True
  | i, previous, row :: rows => op.RowValid first i previous rows.isEmpty row ∧ RowsValid (i + 1) (some row) rows

instance decidableRowsValid : ∀ (i : ℕ) (previous : Option Row) (rows : List Row),
    Decidable (op.RowsValid first i previous rows)
  | _, _, [] => inferInstanceAs (Decidable True)
  | i, previous, row :: rows =>
    have := decidableRowsValid (i + 1) (some row) rows
    inferInstanceAs (Decidable (op.RowValid first i previous rows.isEmpty row ∧ op.RowsValid first (i + 1) (some row) rows))

/-- `validate_operation` -/
def Valid : Prop :=
  op.records.length ≤ phases.length + 1 ∧ ∃ first ∈ op.records.head?, op.RowsValid first 0 none op.records

instance : Decidable op.Valid := inferInstanceAs (Decidable (_ ∧ _))

end Operation
end
end SmartHome.Maintenance
