/-
  The checkpoints of the observation canvas (`canvas_checkpoint.mjs`): their shape, their
  anchor in the consumer state and what one checkpoint may say after another.
-/
import SmartHome.Mqtt.Consumer.Protocol

namespace SmartHome.Mqtt.Consumer

open Verif

/-! ## Vocabulary -/

/-- `phases` -/
inductive Phase where
  | waiting | tracking | draining | passed | failed | unknown
  deriving DecidableEq, Repr

def Phase.name : Phase → String
  | waiting => "waiting"
  | tracking => "tracking"
  | draining => "draining"
  | passed => "passed"
  | failed => "failed"
  | unknown => "unknown"

def phases : List Phase := [.waiting, .tracking, .draining, .passed, .failed, .unknown]

/-- `reasons` -/
inductive Reason where
  | notStarted | collecting | durationPending | draining | complete | integrityFault
  | latencyOverContract | receiptGap | clockUnknown | readerUnknown | policyChanged
  | historyMissing | windowCapacity | windowInvalid | sourceEpochChange
  deriving DecidableEq, Repr

def Reason.name : Reason → String
  | notStarted => "not_started"
  | collecting => "collecting"
  | durationPending => "duration_pending"
  | draining => "draining"
  | complete => "complete"
  | integrityFault => "integrity_fault"
  | latencyOverContract => "latency_over_contract"
  | receiptGap => "receipt_gap"
  | clockUnknown => "clock_unknown"
  | readerUnknown => "reader_unknown"
  | policyChanged => "policy_changed"
  | historyMissing => "history_missing"
  | windowCapacity => "window_capacity"
  | windowInvalid => "window_invalid"
  | sourceEpochChange => "source_epoch_change"

def reasons : List Reason :=
  [.notStarted, .collecting, .durationPending, .draining, .complete, .integrityFault,
    .latencyOverContract, .receiptGap, .clockUnknown, .readerUnknown, .policyChanged,
    .historyMissing, .windowCapacity, .windowInvalid, .sourceEpochChange]

/-- `violations` -/
inductive Violation where
  | missing | timingUnknown | integrityFaults | receiptGaps | clockConflicts
  | overContractReceipts | readerUnknownObservations
  deriving DecidableEq, Repr

def Violation.name : Violation → String
  | missing => "missing"
  | timingUnknown => "timing_unknown"
  | integrityFaults => "integrity_faults"
  | receiptGaps => "receipt_gaps"
  | clockConflicts => "clock_conflicts"
  | overContractReceipts => "over_contract_receipts"
  | readerUnknownObservations => "reader_unknown_observations"

def violations : List Violation :=
  [.missing, .timingUnknown, .integrityFaults, .receiptGaps, .clockConflicts,
    .overContractReceipts, .readerUnknownObservations]

theorem mem_violations (v : Violation) : v ∈ violations := by cases v <;> decide

instance : Fintype Violation := ⟨⟨violations, by decide⟩, mem_violations⟩

/-- The value that a text names in a list. -/
def named {α : Type} (name : α → String) (xs : List α) : Json → Option α
  | .str s => xs.find? fun x => name x = s
  | _ => none

/-! ## Windows -/

/-- The cut of a window: the stamp of the source that closed it, of either generation. -/
structure Cut where
  acceptedFrames : ℕ
  covered : Bool
  sourceNs : ℕ
  deriving DecidableEq

/-- An observation window. -/
structure Window where
  idSha256 : Hex 64
  phase : Phase
  reason : Reason
  clockDomainSha256 : Hex 64
  startedAtNs : ℕ
  observedAtNs : ℕ
  firstReceiptId : ℕ
  lastReceiptId : ℕ
  baselineCounts : Totals
  acknowledgedCounts : Totals
  maxUpperNsByKind : Kind → Option ℕ
  violations : Violation → ℕ
  eventLatencyMs : ℕ
  windowDurationNs : ℕ
  cut : Option Cut
  deriving DecidableEq

/-- `core`, on a window of the right shape. -/
structure Window.Valid (w : Window) : Prop where
  times : w.startedAtNs ≤ w.observedAtNs ∧ w.observedAtNs < 2 ^ 64
  receipts : w.firstReceiptId ≤ w.lastReceiptId ∧ w.lastReceiptId < 2 ^ 64
  baseline : w.baselineCounts.Valid
  acknowledged : w.acknowledgedCounts.Valid
  grown : ∀ c, w.baselineCounts c ≤ w.acknowledgedCounts c
  maximum : ∀ k, ∀ v ∈ w.maxUpperNsByKind k, v < 2 ^ 64
  violations : ∀ v, w.violations v < 2 ^ 128
  policy : w.eventLatencyMs < 2 ^ 64 ∧ w.windowDurationNs < 2 ^ 64
  cut : ∀ c ∈ w.cut, c.acceptedFrames < 2 ^ 128 ∧ c.sourceNs < 2 ^ 64 ∧
    w.startedAtNs ≤ c.sourceNs ∧ c.sourceNs ≤ w.observedAtNs

theorem Window.valid_iff (w : Window) : w.Valid ↔
    (w.startedAtNs ≤ w.observedAtNs ∧ w.observedAtNs < 2 ^ 64) ∧
    (w.firstReceiptId ≤ w.lastReceiptId ∧ w.lastReceiptId < 2 ^ 64) ∧
    w.baselineCounts.Valid ∧ w.acknowledgedCounts.Valid ∧
    (∀ c, w.baselineCounts c ≤ w.acknowledgedCounts c) ∧
    (∀ k, ∀ v ∈ w.maxUpperNsByKind k, v < 2 ^ 64) ∧ (∀ v, w.violations v < 2 ^ 128) ∧
    (w.eventLatencyMs < 2 ^ 64 ∧ w.windowDurationNs < 2 ^ 64) ∧
    ∀ c ∈ w.cut, c.acceptedFrames < 2 ^ 128 ∧ c.sourceNs < 2 ^ 64 ∧
      w.startedAtNs ≤ c.sourceNs ∧ c.sourceNs ≤ w.observedAtNs :=
  ⟨fun ⟨a, b, c, d, e, f, g, h, i⟩ => ⟨a, b, c, d, e, f, g, h, i⟩,
    fun ⟨a, b, c, d, e, f, g, h, i⟩ => ⟨a, b, c, d, e, f, g, h, i⟩⟩

instance (w : Window) : Decidable w.Valid := decidable_of_iff _ w.valid_iff.symm

/-- What the canvas saw of the reader. -/
structure Observation where
  consumerInstanceSha256 : Hex 64
  readerInstanceSha256 : Hex 64
  clockDomainSha256 : Hex 64
  observedBoottimeNs : ℕ
  sourceEpoch : ℕ
  sourceInstanceSha256 : Hex 64
  sourceExited : Bool
  sourceClosed : Bool
  coveredBeforeNs : ℕ
  acceptedFrames : ℕ
  deriving DecidableEq

inductive RequestState where
  | waiting | capacity | started
  deriving DecidableEq, Repr

def RequestState.name : RequestState → String
  | waiting => "waiting"
  | capacity => "capacity"
  | started => "started"

/-- A request for a window. -/
structure WindowRequest where
  idSha256 : Hex 64
  state : RequestState
  deriving DecidableEq

/-- A checkpoint.  Only the second schema has an observation and a request. -/
structure Checkpoint where
  schemaVersion : ℕ
  sequence : ℕ
  previousSha256 : Option (Hex 64)
  proposalSha : Hex 64
  receiptId : ℕ
  acknowledgedCountsSha256 : Hex 64
  window : Window
  history : List Window
  readerObservation : Option Observation
  windowRequest : Option WindowRequest
  deriving DecidableEq

/-! ## Texts -/

def Cut.json (c : Cut) : Json :=
  if c.covered then
    .obj [("accepted_frames", num c.acceptedFrames), ("covered_before_ns", num c.sourceNs)]
  else .obj [("accepted_frames", num c.acceptedFrames), ("source_emitted_at_ns", num c.sourceNs)]

def violationJson (f : Violation → ℕ) : Json :=
  .obj [("clock_conflicts", num (f .clockConflicts)),
    ("integrity_faults", num (f .integrityFaults)), ("missing", num (f .missing)),
    ("over_contract_receipts", num (f .overContractReceipts)),
    ("reader_unknown_observations", num (f .readerUnknownObservations)),
    ("receipt_gaps", num (f .receiptGaps)), ("timing_unknown", num (f .timingUnknown))]

def Window.json (w : Window) : Json :=
  .obj [("acknowledged_counts", w.acknowledgedCounts.json num),
    ("baseline_counts", w.baselineCounts.json num),
    ("clock_domain_sha256", hexJson w.clockDomainSha256), ("cut", w.cut.elim .null Cut.json),
    ("first_receipt_id", num w.firstReceiptId), ("id_sha256", hexJson w.idSha256),
    ("last_receipt_id", num w.lastReceiptId),
    ("max_upper_ns_by_kind", kindJson fun k => optNum (w.maxUpperNsByKind k)),
    ("observed_at_ns", num w.observedAtNs), ("phase", .str w.phase.name),
    ("policy", .obj [("event_latency_ms", num w.eventLatencyMs),
      ("window_duration_ns", num w.windowDurationNs)]),
    ("reason", .str w.reason.name), ("started_at_ns", num w.startedAtNs),
    ("violations", violationJson w.violations)]

def Observation.json (o : Observation) : Json :=
  .obj [("accepted_frames", num o.acceptedFrames),
    ("clock_domain_sha256", hexJson o.clockDomainSha256),
    ("consumer_instance_sha256", hexJson o.consumerInstanceSha256),
    ("covered_before_ns", num o.coveredBeforeNs),
    ("observed_boottime_ns", num o.observedBoottimeNs),
    ("reader_instance_sha256", hexJson o.readerInstanceSha256),
    ("source_closed", .bool o.sourceClosed), ("source_epoch", num o.sourceEpoch),
    ("source_identity_state", .str (if o.sourceExited then "verified_exited" else "verified_live")),
    ("source_instance_sha256", hexJson o.sourceInstanceSha256)]

def WindowRequest.json (r : WindowRequest) : Json :=
  .obj [("id_sha256", hexJson r.idSha256), ("state", .str r.state.name)]

def Checkpoint.json (c : Checkpoint) : Json :=
  .obj <|
    [("acknowledged_counts_sha256", hexJson c.acknowledgedCountsSha256),
      ("history", .arr (c.history.map Window.json)),
      ("previous_sha256", optHexJson c.previousSha256), ("proposal_sha", hexJson c.proposalSha)] ++
    (if c.schemaVersion = 2 then
      [("reader_observation", c.readerObservation.elim .null Observation.json)] else []) ++
    [("receipt_id", num c.receiptId), ("schema_version", .int c.schemaVersion),
      ("sequence", num c.sequence), ("window", c.window.json)] ++
    (if c.schemaVersion = 2 then
      [("window_request", c.windowRequest.elim .null WindowRequest.json)] else [])

/-! ## Reading a checkpoint -/

def Cut.read (j : Json) : Option Cut := do
  let covered := "covered_before_ns" ∈ j.keys.getD []
  let field := if covered then "covered_before_ns" else "source_emitted_at_ns"
  let m ← closed ["accepted_frames", field] j
  return ⟨← uint 128 (m "accepted_frames"), covered, ← uint 64 (m field)⟩

def Window.read (j : Json) : Option Window := do
  let m ← closed ["id_sha256", "phase", "reason", "clock_domain_sha256", "started_at_ns",
    "observed_at_ns", "first_receipt_id", "last_receipt_id", "baseline_counts",
    "acknowledged_counts", "max_upper_ns_by_kind", "violations", "policy", "cut"] j
  let v ← closed (Consumer.violations.map Violation.name) (m "violations")
  let p ← closed ["event_latency_ms", "window_duration_ns"] (m "policy")
  return {
    idSha256 := ← hex? 64 (m "id_sha256")
    phase := ← named Phase.name phases (m "phase")
    reason := ← named Reason.name reasons (m "reason")
    clockDomainSha256 := ← hex? 64 (m "clock_domain_sha256")
    startedAtNs := ← uint 64 (m "started_at_ns")
    observedAtNs := ← uint 64 (m "observed_at_ns")
    firstReceiptId := ← uint 64 (m "first_receipt_id")
    lastReceiptId := ← uint 64 (m "last_receipt_id")
    baselineCounts := ← counts (m "baseline_counts")
    acknowledgedCounts := ← counts (m "acknowledged_counts")
    maxUpperNsByKind := ← kindTable timestamp (m "max_upper_ns_by_kind")
    violations := ← collect fun x : Violation => uint 128 (v x.name)
    eventLatencyMs := ← uint 64 (p "event_latency_ms")
    windowDurationNs := ← uint 64 (p "window_duration_ns")
    cut := ← onlyIf (m "cut" ≠ .null) Cut.read (m "cut") }

/-- `observation`, on a value that is not null. -/
def Observation.read (j : Json) : Option Observation := do
  let m ← closed ["consumer_instance_sha256", "reader_instance_sha256", "clock_domain_sha256",
    "observed_boottime_ns", "source_epoch", "source_instance_sha256", "source_identity_state",
    "source_closed", "covered_before_ns", "accepted_frames"] j
  return {
    consumerInstanceSha256 := ← hex? 64 (m "consumer_instance_sha256")
    readerInstanceSha256 := ← hex? 64 (m "reader_instance_sha256")
    clockDomainSha256 := ← hex? 64 (m "clock_domain_sha256")
    observedBoottimeNs := ← uint 64 (m "observed_boottime_ns")
    sourceEpoch := ← uint 128 (m "source_epoch")
    sourceInstanceSha256 := ← hex? 64 (m "source_instance_sha256")
    sourceExited := ← named (fun b => if b then "verified_exited" else "verified_live")
      [false, true] (m "source_identity_state")
    sourceClosed := ← boolean (m "source_closed")
    coveredBeforeNs := ← uint 64 (m "covered_before_ns")
    acceptedFrames := ← uint 128 (m "accepted_frames") }

def WindowRequest.read (j : Json) : Option WindowRequest := do
  let m ← closed ["id_sha256", "state"] j
  return ⟨← hex? 64 (m "id_sha256"),
    ← named RequestState.name [.waiting, .capacity, .started] (m "state")⟩

def schemaOf : Option Json → Option ℕ
  | some (.int 1) => some 1
  | some (.int 2) => some 2
  | _ => none

def elements : Json → Option (List Json)
  | .arr xs => some xs
  | _ => none

/-- A checkpoint of the right shape. -/
def Checkpoint.read (j : Json) : Option Checkpoint := do
  let version ← schemaOf (j.get? "schema_version")
  let m ← closed (["schema_version", "sequence", "previous_sha256", "proposal_sha", "receipt_id",
    "acknowledged_counts_sha256", "window", "history"] ++
    if version = 2 then ["reader_observation", "window_request"] else []) j
  let history ← elements (m "history")
  return {
    schemaVersion := version
    sequence := ← uint 64 (m "sequence")
    previousSha256 := ← onlyIf (m "previous_sha256" ≠ .null) (hex? 64) (m "previous_sha256")
    proposalSha := ← hex? 64 (m "proposal_sha")
    receiptId := ← uint 64 (m "receipt_id")
    acknowledgedCountsSha256 := ← hex? 64 (m "acknowledged_counts_sha256")
    window := ← Window.read (m "window")
    history := ← history.mapM Window.read
    readerObservation := ← onlyIf (version = 2 ∧ m "reader_observation" ≠ .null) Observation.read
      (m "reader_observation")
    windowRequest := ← onlyIf (version = 2 ∧ m "window_request" ≠ .null) WindowRequest.read
      (m "window_request") }

/-! ## Validity -/

def maxCheckpointBytes : ℕ := 65536
def maxWindowHistory : ℕ := 8

namespace Checkpoint
variable (c : Checkpoint)

/-- `validateCheckpoint`, on a checkpoint of the right shape. -/
def Valid : Prop :=
  (c.schemaVersion = 1 ∧ c.readerObservation = none ∧ c.windowRequest = none ∨
    c.schemaVersion = 2) ∧
  (∀ o ∈ c.readerObservation, 0 < o.sourceEpoch ∧ o.sourceEpoch < 2 ^ 128 ∧
    o.acceptedFrames < 2 ^ 128 ∧ o.coveredBeforeNs ≤ o.observedBoottimeNs ∧
    o.observedBoottimeNs < 2 ^ 64) ∧
  (0 < c.sequence ∧ c.sequence < 2 ^ 64) ∧ c.receiptId < 2 ^ 64 ∧
  (c.sequence = 1 ↔ c.previousSha256 = none) ∧
  c.window.Valid ∧ c.window.lastReceiptId ≤ c.receiptId ∧
  c.history.length ≤ maxWindowHistory ∧ (∀ w ∈ c.history, w.Valid) ∧
  (c.history.map Window.idSha256 ++ [c.window.idSha256]).Nodup ∧
  c.json.canonical.length ≤ maxCheckpointBytes

instance : Decidable c.Valid := by unfold Valid; infer_instance

section
variable [Sha256]

/-- The digest of a table of totals. -/
def countsDigest (t : Totals) : Hex 64 := digest (t.json num)

/-- `validateCheckpointAnchor`, for the last receipt and the acknowledged counts of a state. -/
def Anchored (lastReceipt : ℕ) (ackedCounts : Totals) : Prop :=
  c.Valid ∧ c.receiptId = lastReceipt ∧ c.acknowledgedCountsSha256 = countsDigest ackedCounts ∧
    ∀ x, c.window.acknowledgedCounts x ≤ ackedCounts x

instance (lastReceipt : ℕ) (ackedCounts : Totals) : Decidable (c.Anchored lastReceipt ackedCounts) := by
  unfold Anchored; infer_instance

end
end Checkpoint

/-- What a window may say after an earlier report on the same window. -/
def Window.Continues (a b : Window) : Prop :=
  (b.phase = .passed ∨ b.phase = .failed ∨ b.phase = .unknown → a = b) ∧
  a.clockDomainSha256 = b.clockDomainSha256 ∧ a.startedAtNs = b.startedAtNs ∧
  a.firstReceiptId = b.firstReceiptId ∧ a.baselineCounts = b.baselineCounts ∧
  (a.eventLatencyMs = b.eventLatencyMs ∧ a.windowDurationNs = b.windowDurationNs) ∧
  b.observedAtNs ≤ a.observedAtNs ∧ b.lastReceiptId ≤ a.lastReceiptId ∧
  (∀ x, b.acknowledgedCounts x ≤ a.acknowledgedCounts x) ∧
  (∀ v, b.violations v ≤ a.violations v) ∧
  (∀ k, ∀ old ∈ b.maxUpperNsByKind k, ∃ now ∈ a.maxUpperNsByKind k, old ≤ now) ∧
  (b.cut.isSome → a.cut = b.cut)

instance (a b : Window) : Decidable (a.Continues b) := by unfold Window.Continues; infer_instance

section
variable [Sha256]

/-- What a checkpoint may say after the previous one. -/
def Checkpoint.Follows (c p : Checkpoint) : Prop :=
  p.Valid ∧ p.schemaVersion ≤ c.schemaVersion ∧ c.sequence = p.sequence + 1 ∧
    c.previousSha256 = some (digest p.json) ∧
    if c.window.idSha256 ≠ p.window.idSha256 then c.history = p.history ++ [p.window]
    else c.history = p.history ∧ c.window.Continues p.window

instance (c p : Checkpoint) : Decidable (c.Follows p) := by
  unfold Checkpoint.Follows; infer_instance

/-- `bindCheckpoint` -/
def Checkpoint.Binds (c : Checkpoint) (previous : Option Checkpoint) (lastReceipt : ℕ)
    (ackedCounts : Totals) (proposal : Hex 64) : Prop :=
  c.Anchored lastReceipt ackedCounts ∧ c.proposalSha = proposal ∧
    (previous = none → c.sequence = 1 ∧ c.previousSha256 = none ∧ c.history = []) ∧
    ∀ p ∈ previous, c.Follows p

instance (c : Checkpoint) (previous : Option Checkpoint) (lastReceipt : ℕ) (ackedCounts : Totals)
    (proposal : Hex 64) : Decidable (c.Binds previous lastReceipt ackedCounts proposal) := by
  unfold Checkpoint.Binds; infer_instance

end
end SmartHome.Mqtt.Consumer
