/-
  The source protocol: frames, the accounting state of the receiver, and the
  transition `accept` from one state to the next (`protocol.py`).

  `decode` reads the bytes of a frame, `State.Valid` is `validate_state`, and `accept`
  checks a frame against the state, adds up its counters and validates the result.
-/
import SmartHome.Mqtt.Counters
import Mathlib.Data.List.ReduceOption
import Mathlib.Tactic.MkIffOfInductiveProp

namespace SmartHome.Mqtt

open Verif

/-! ## Frames -/

/-- One event row of a frame. -/
structure EventRow where
  seq : ℕ
  kind : Kind
  atNs : Option ℕ
  deriving DecidableEq, Repr

/-- A decoded frame. -/
structure Frame where
  source : Hex 32
  wireVersion : ℕ
  final : Bool
  coveredBeforeNs : Option ℕ
  frameSeq : ℕ
  eventSeq : ℕ
  clockFaults : ℕ
  sendFailures : ℕ
  startedNs : Option ℕ
  emittedNs : Option ℕ
  totals : Kind → ℕ
  sourceDropped : Kind → ℕ
  events : List EventRow

def maxFrameBytes : ℕ := 32768
def maxEvents : ℕ := 256

/-- `FIELDS` -/
def fields : List String :=
  ["v", "instance", "started_ns", "frame_seq", "event_seq", "totals", "source_dropped",
    "clock_faults", "send_failures", "emitted_ns", "events"]

/-- `uint`: a decimal text below `2 ^ 64`. -/
def uint : Json → Except String ℕ
  | .str s => do
    let n ← orFail "integer_invalid" (decimal? 19 s)
    need (n < 2 ^ 64) "integer_invalid"
    return n
  | _ => .error "integer_invalid"

def optionalUint : Json → Except String (Option ℕ)
  | .null => .ok none
  | j => (uint j).map some

/-- `closed`: an object with exactly the given keys. -/
def closed (value : Json) (keys : List String) : Except String Unit :=
  need (∃ ks ∈ value.keys, ks.Perm keys) "schema_invalid"

/-- A member that `closed` has found. -/
def member (value : Json) (key : String) : Json := (value.get? key).getD .null

/-- `json.loads(raw.decode('ascii'), object_pairs_hook=pairs)` -/
def loads (raw : Bytes) : Except String Json := do
  need (raw.all fun b => b < 128) "frame_encoding_invalid"
  let value ← orFail "frame_encoding_invalid" (Json.parse (raw.map fun b => Char.ofNat b.toNat))
  need (value.uniqueKeys = true) "frame_encoding_invalid"
  return value

/-- A table with one counter for each kind. -/
def kindTable (value : Json) : Except String (Kind → ℕ) := do
  closed value (kinds.map Kind.name)
  let row ← kinds.mapM fun k => uint (member value k.name)
  return fun k => (row[kinds.idxOf k]?).getD 0

/-- The kind that a value names. -/
def kind? : Json → Option Kind
  | .str s => Kind.ofName s
  | _ => none

/-- The event rows, with sequence numbers above `seq` and at most `eventSeq`. -/
def decodeRows (eventSeq : ℕ) : ℕ → List Json → Except String (List EventRow)
  | _, [] => .ok []
  | seq, row :: rows => do
    closed row ["seq", "kind", "at_ns"]
    let n ← uint (member row "seq")
    need (seq < n ∧ n ≤ eventSeq) "event_sequence_invalid"
    let kind ← orFail "event_sequence_invalid" (kind? (member row "kind"))
    let atNs ← optionalUint (member row "at_ns")
    let rest ← decodeRows eventSeq n rows
    return ⟨n, kind, atNs⟩ :: rest

/-- The keys of a frame of a wire version. -/
def frameKeys (version : ℕ) : List String :=
  fields ++ (if 2 ≤ version then ["final"] else []) ++
    (if version = 3 then ["covered_before_ns"] else [])

/-- The wire version of a frame. -/
def wireVersion : Option Json → Except String ℕ
  | some (.int 1) => .ok 1
  | some (.int 2) => .ok 2
  | some (.int 3) => .ok 3
  | _ => .error "schema_invalid"

def boolean : Json → Except String Bool
  | .bool b => .ok b
  | _ => .error "schema_invalid"

def elements : Json → Except String (List Json)
  | .arr rows => .ok rows
  | _ => .error "event_bound_invalid"

/-- The mark of the last frame, from wire version 2 on. -/
def finalMark (version : ℕ) (value : Json) : Except String Bool :=
  if 2 ≤ version then boolean (member value "final") else .ok false

/-- The coverage stamp, from wire version 3 on. -/
def coverage (version : ℕ) (value : Json) : Except String (Option ℕ) :=
  if version = 3 then optionalUint (member value "covered_before_ns") else .ok none

/-- The frame in a parsed value. -/
def decodeValue (value : Json) : Except String Frame := do
  let version ← wireVersion (value.get? "v")
  closed value (frameKeys version)
  let final ← finalMark version value
  let source ← orFail "instance_invalid" (hex? 32 (member value "instance"))
  let covered ← coverage version value
  let frameSeq ← uint (member value "frame_seq")
  let eventSeq ← uint (member value "event_seq")
  let clockFaults ← uint (member value "clock_faults")
  let sendFailures ← uint (member value "send_failures")
  need (0 < frameSeq) "counter_invalid"
  let started ← optionalUint (member value "started_ns")
  let emitted ← optionalUint (member value "emitted_ns")
  need (∀ c ∈ covered, (∃ e ∈ emitted, c ≤ e) ∧ ∀ s ∈ started, s ≤ c) "source_coverage_invalid"
  let totals ← kindTable (member value "totals")
  let dropped ← kindTable (member value "source_dropped")
  need (∑ k, totals k = eventSeq) "counter_inconsistent"
  need (∀ k, dropped k ≤ totals k) "counter_inconsistent"
  let rows ← elements (member value "events")
  need (rows.length ≤ maxEvents) "event_bound_invalid"
  let events ← decodeRows eventSeq 0 rows
  return ⟨source, version, final, covered, frameSeq, eventSeq, clockFaults, sendFailures,
    started, emitted, totals, dropped, events⟩

/-- `decode` -/
def decode (raw : Bytes) : Except String Frame := do
  need (0 < raw.length ∧ raw.length ≤ maxFrameBytes) "frame_size_invalid"
  let value ← loads raw
  decodeValue value

/-! ## The accounting state -/

/-- The statistics of one kind. -/
structure Row where
  col : Column → ℕ
  maxSourceToReaderNs : Option ℕ
  deriving DecidableEq

namespace Row

def zero : Row := ⟨fun _ => 0, none⟩

/-- The larger of two optional maxima. -/
def maxOpt : Option ℕ → Option ℕ → Option ℕ
  | some a, some b => some (max a b)
  | some a, none => some a
  | none, b => b

/-- Column sums and the larger maximum. -/
def add (a b : Row) : Row :=
  ⟨fun c => a.col c + b.col c, maxOpt a.maxSourceToReaderNs b.maxSourceToReaderNs⟩

/-- The row checks of `validate_state`. -/
@[mk_iff] structure Valid (r : Row) : Prop where
  count : ∀ c, r.col c < 2 ^ 128
  expected : r.col .expected = r.col .observed + r.col .missing
  observed : r.col .observed = r.col .timed + r.col .timingUnknown
  missing : r.col .missing = r.col .sourceDropped + r.col .transportMissing
  maximum : (r.maxSourceToReaderNs = none ∧ r.col .timed = 0) ∨
    (∃ m ∈ r.maxSourceToReaderNs, m < 2 ^ 128 ∧ 0 < r.col .timed)

instance (r : Row) : Decidable r.Valid := decidable_of_iff _ (valid_iff r).symm

end Row

/-- The closing figures of the epoch before the current one. -/
structure EpochSummary where
  epoch : ℕ
  stats : Kind → Row
  reportGaps : ℕ
  clockFaults : ℕ
  sendFailures : ℕ
  tailUnknown : Bool
  deriving DecidableEq

/-- The accounting state.  A key that older versions lack holds the value that the code
    reads in its place: version 2 has `sourceClosed = false` and wire version 1, and only
    version 4 has a `lastCoveredBeforeNs`. -/
structure State where
  version : ℕ
  source : Hex 32
  epoch : ℕ
  startedNs : Option ℕ
  sourceClosed : Bool
  lastSourceWireVersion : ℕ
  previousEpochTailUnknown : Bool
  lastFrameSeq : ℕ
  lastEventSeq : ℕ
  lastFrameHash : Hex 64
  lastTotals : Kind → ℕ
  lastSourceDropped : Kind → ℕ
  lastReaderNs : ℕ
  lastEmittedNs : Option ℕ
  lastCoveredBeforeNs : Option ℕ
  clockFaults : ℕ
  sendFailures : ℕ
  reportGaps : ℕ
  stats : Kind → Row
  lastBatch : Kind → Row
  full24hProven : Bool
  pastStats : Kind → Row
  pastReportGaps : ℕ
  pastClockFaults : ℕ
  pastSendFailures : ℕ
  unknownEpochTails : ℕ
  previousEpochSummary : Option EpochSummary
  deriving DecidableEq

namespace State

/-- What a state says about unknown tails of earlier epochs. -/
def TailsValid (s : State) : Prop :=
  if s.version = 2 then
    s.unknownEpochTails = s.epoch - 1 ∧ (s.previousEpochTailUnknown = true ↔ 1 < s.epoch)
  else
    s.unknownEpochTails ≤ s.epoch - 1 ∧
      if s.epoch = 1 then s.previousEpochTailUnknown = false
      else if s.previousEpochTailUnknown then 0 < s.unknownEpochTails
      else s.unknownEpochTails ≤ s.epoch - 2

instance (s : State) : Decidable s.TailsValid := by unfold TailsValid; infer_instance

/-- What a version 4 state says about its last coverage stamp. -/
def CoveredValid (s : State) : Prop :=
  if s.version = 4 then
    ∀ c ∈ s.lastCoveredBeforeNs, c < 2 ^ 64 ∧ s.lastSourceWireVersion = 3 ∧ c ≤ s.lastReaderNs ∧
      (∀ e ∈ s.lastEmittedNs, c ≤ e) ∧ ∀ b ∈ s.startedNs, b ≤ c
  else s.lastCoveredBeforeNs = none

instance (s : State) : Decidable s.CoveredValid := by unfold CoveredValid; infer_instance

/-- What a state says about the epoch before. -/
def SummaryValid (s : State) : Prop :=
  ∀ p ∈ s.previousEpochSummary, p.epoch < 2 ^ 128 ∧ 0 < p.epoch ∧ p.epoch < s.epoch ∧
    p.reportGaps < 2 ^ 128 ∧ p.tailUnknown = s.previousEpochTailUnknown ∧ (∀ k, (p.stats k).Valid) ∧
    p.clockFaults ≤ s.pastClockFaults ∧ p.sendFailures ≤ s.pastSendFailures

instance (s : State) : Decidable s.SummaryValid := by unfold SummaryValid; infer_instance

/-- `validate_state` -/
@[mk_iff] structure Valid (s : State) : Prop where
  version : s.version = 2 ∨ s.version = 3 ∨ s.version = 4
  unproven : s.full24hProven = false
  wire : if s.version = 2 then s.sourceClosed = false ∧ s.lastSourceWireVersion = 1 else
    (s.lastSourceWireVersion = 1 ∨ s.lastSourceWireVersion = 2 ∨
      (s.version = 4 ∧ s.lastSourceWireVersion = 3)) ∧
    (s.sourceClosed = true → 2 ≤ s.lastSourceWireVersion)
  covered : s.CoveredValid
  epoch : s.epoch < 2 ^ 128 ∧ 0 < s.epoch
  lastFrameSeq : s.lastFrameSeq < 2 ^ 128 ∧ 0 < s.lastFrameSeq
  lastEventSeq : s.lastEventSeq < 2 ^ 128
  lastReaderNs : s.lastReaderNs < 2 ^ 128
  clockFaults : s.clockFaults < 2 ^ 128
  sendFailures : s.sendFailures < 2 ^ 128
  reportGaps : s.reportGaps < 2 ^ 128
  pastReportGaps : s.pastReportGaps < 2 ^ 128
  pastClockFaults : s.pastClockFaults < 2 ^ 128
  pastSendFailures : s.pastSendFailures < 2 ^ 128
  unknownEpochTails : s.unknownEpochTails < 2 ^ 128
  tails : s.TailsValid
  startedNs : ∀ n ∈ s.startedNs, n < 2 ^ 128
  lastEmittedNs : ∀ n ∈ s.lastEmittedNs, n < 2 ^ 128
  lastTotals : ∀ k, s.lastTotals k < 2 ^ 128
  lastSourceDropped : ∀ k, s.lastSourceDropped k < 2 ^ 128
  totals : ∑ k, s.lastTotals k = s.lastEventSeq
  stats : ∀ k, (s.stats k).Valid
  lastBatch : ∀ k, (s.lastBatch k).Valid
  pastStats : ∀ k, (s.pastStats k).Valid
  firstEpoch : s.epoch = 1 → s.pastReportGaps = 0 ∧ s.pastClockFaults = 0 ∧
    s.pastSendFailures = 0 ∧ ∀ k c, (s.pastStats k).col c = 0
  summary : s.SummaryValid

instance (s : State) : Decidable s.Valid := decidable_of_iff _ (valid_iff s).symm

end State

/-! ## The transition -/

namespace Frame

/-- The stamps of the rows of one kind. -/
def rowsOf (f : Frame) (k : Kind) : List (Option ℕ) :=
  (f.events.filter fun r => r.kind = k).map EventRow.atNs

/-- The delays of the rows of one kind that both ends could time. -/
def latencies (f : Frame) (arrivedNs : ℕ) (k : Kind) : List ℕ :=
  if f.emittedNs.isSome ∧ f.startedNs.isSome then (f.rowsOf k).reduceOption.map (arrivedNs - ·)
  else []

/-- How many rows have no stamp. -/
def unknownClocks (f : Frame) : ℕ := f.events.countP fun r => r.atNs.isNone

section
variable (f : Frame) (prior : Option State)

/-- `delta`: how much the total of a kind grew. -/
def delta (k : Kind) : ℕ := f.totals k - (prior.elim 0 fun p => p.lastTotals k)

/-- `source_drop`: how much the dropped counter of a kind grew. -/
def sourceDrop (k : Kind) : ℕ := f.sourceDropped k - (prior.elim 0 fun p => p.lastSourceDropped k)

/-- `missing`: events of a kind that the frame counts without a row. -/
def missing (k : Kind) : ℕ := f.delta prior k - (f.rowsOf k).length

/-- The statistics of the frame alone. -/
def batch (arrivedNs : ℕ) (k : Kind) : Row where
  col
    | .expected => f.delta prior k
    | .observed => (f.rowsOf k).length
    | .missing => f.missing prior k
    | .sourceDropped => f.sourceDrop prior k
    | .transportMissing => f.missing prior k - f.sourceDrop prior k
    | .timed => (f.latencies arrivedNs k).length
    | .timingUnknown => (f.rowsOf k).length - (f.latencies arrivedNs k).length
  maxSourceToReaderNs := (f.latencies arrivedNs k).max?

/-- The checks of a row against the frame and the state before it. -/
def checkRow (arrivedNs : ℕ) (r : EventRow) : Except String Unit := do
  need ((prior.elim 0 State.lastEventSeq) < r.seq) "event_replayed"
  need (∀ at' ∈ r.atNs, at' ≤ arrivedNs ∧ (∀ e ∈ f.emittedNs, at' ≤ e) ∧ ∀ b ∈ f.startedNs, b ≤ at')
    "event_clock_invalid"

/-- The checks of a frame against the state of its own source instance. -/
def check (arrivedNs : ℕ) : Except String Unit := do
  need (∀ p ∈ prior, p.sourceClosed = false) "source_already_closed"
  need (∀ p ∈ prior, p.lastSourceWireVersion ≤ f.wireVersion) "source_wire_downgrade"
  let oldFrame := prior.elim 0 State.lastFrameSeq
  let oldFaults := prior.elim 0 State.clockFaults
  need (oldFrame < f.frameSeq ∧ (prior.elim 0 State.lastEventSeq) ≤ f.eventSeq) "counter_reversed"
  need (∀ p ∈ prior, p.lastReaderNs ≤ arrivedNs) "reader_clock_reversed"
  need (∀ p ∈ prior, p.clockFaults ≤ f.clockFaults ∧ p.sendFailures ≤ f.sendFailures)
    "counter_reversed"
  need (∀ p ∈ prior, ∀ e ∈ f.emittedNs, ∀ l ∈ p.lastEmittedNs, l ≤ e) "source_clock_reversed"
  need (∀ p ∈ prior, ∀ c ∈ f.coveredBeforeNs, ∀ l ∈ p.lastCoveredBeforeNs, l ≤ c)
    "source_coverage_reversed"
  need (∀ e ∈ f.emittedNs, e ≤ arrivedNs) "source_clock_future"
  need (∀ b ∈ f.startedNs, b ≤ arrivedNs ∧ ∀ e ∈ f.emittedNs, b ≤ e) "source_clock_future"
  need (∀ p ∈ prior, f.startedNs = p.startedNs) "source_start_changed"
  need (∀ k, (prior.elim 0 fun p => p.lastTotals k) ≤ f.totals k ∧
    (prior.elim 0 fun p => p.lastSourceDropped k) ≤ f.sourceDropped k) "counter_reversed"
  checkAll (f.checkRow prior arrivedNs) f.events
  need (oldFaults + f.unknownClocks ≤ f.clockFaults) "clock_fault_accounting_invalid"
  need (f.startedNs.isSome ∨ 0 < f.clockFaults) "clock_fault_accounting_invalid"
  need (f.emittedNs.isSome ∨ oldFaults < f.clockFaults) "clock_fault_accounting_invalid"
  need (∀ k, (f.rowsOf k).length + f.sourceDrop prior k ≤ f.delta prior k)
    "event_count_inconsistent"
  need (f.frameSeq = oldFrame + 1 → ∀ k, f.missing prior k = f.sourceDrop prior k)
    "unexplained_consecutive_frame_loss"

end

/-- The state after an admitted frame.  `prior` is the previous state if the frame comes
    from the same source instance. -/
def nextState (f : Frame) (previous prior : Option State) (digest : Hex 64) (arrivedNs : ℕ) :
    State :=
  let ended := if prior.isNone then previous else none
  let tailUnknown := ended.any fun p => !p.sourceClosed
  let version := if f.wireVersion = 3 ∨ (previous.any fun p => p.version = 4) then 4 else 3
  { version
    source := f.source
    epoch := prior.elim (previous.elim 1 fun p => p.epoch + 1) State.epoch
    startedNs := f.startedNs
    sourceClosed := f.final
    lastSourceWireVersion := f.wireVersion
    previousEpochTailUnknown := tailUnknown || prior.any State.previousEpochTailUnknown
    lastFrameSeq := f.frameSeq
    lastEventSeq := f.eventSeq
    lastFrameHash := digest
    lastTotals := f.totals
    lastSourceDropped := f.sourceDropped
    lastReaderNs := arrivedNs
    lastEmittedNs := f.emittedNs
    lastCoveredBeforeNs := if version = 4 then
      f.coveredBeforeNs.or (prior.bind State.lastCoveredBeforeNs) else none
    clockFaults := f.clockFaults
    sendFailures := f.sendFailures
    reportGaps := (prior.elim 0 State.reportGaps) + f.frameSeq - (prior.elim 0 State.lastFrameSeq) - 1
    stats := fun k => (prior.elim Row.zero fun p => p.stats k).add (f.batch prior arrivedNs k)
    lastBatch := f.batch prior arrivedNs
    full24hProven := false
    pastStats := fun k => ended.elim (previous.elim Row.zero fun p => p.pastStats k)
      fun p => (p.pastStats k).add (p.stats k)
    pastReportGaps := (previous.elim 0 State.pastReportGaps) + ended.elim 0 State.reportGaps
    pastClockFaults := (previous.elim 0 State.pastClockFaults) + ended.elim 0 State.clockFaults
    pastSendFailures := (previous.elim 0 State.pastSendFailures) + ended.elim 0 State.sendFailures
    unknownEpochTails := (previous.elim 0 State.unknownEpochTails) + tailUnknown.toNat
    previousEpochSummary := match ended with
      | some p => some ⟨p.epoch, p.stats, p.reportGaps, p.clockFaults, p.sendFailures, tailUnknown⟩
      | none => prior.bind State.previousEpochSummary }

end Frame

inductive Status where
  | accepted | duplicate | unknown
  deriving DecidableEq, Repr

/-- What `accept` returns. -/
structure Result where
  status : Status
  reason : Option String
  state : Option State
  fullGoalProven : Bool
  deriving DecidableEq

section
variable [Sha256]

/-- The part of `accept` that may stop with a reason, on a valid previous state. -/
def acceptValid (previous : Option State) (raw : Bytes) (arrivedNs : ℕ)
    (sourceBindingVerified : Bool) : Except String (Status × Option State) := do
  need (sourceBindingVerified = true) "source_binding_unverified"
  need (arrivedNs < 2 ^ 64) "reader_clock_invalid"
  let f ← decode raw
  let digest := sha256 raw
  let prior := previous.filter fun p => p.source = f.source
  if ∃ p ∈ prior, f.frameSeq = p.lastFrameSeq then
    need (∀ p ∈ prior, digest = p.lastFrameHash) "frame_reuse_conflict"
    return (.duplicate, previous)
  f.check prior arrivedNs
  let state := f.nextState previous prior digest arrivedNs
  need state.Valid "accounting_state_invalid"
  return (.accepted, some state)

/-- `accept` -/
def accept (previous : Option State) (raw : Bytes) (arrivedNs : ℕ)
    (sourceBindingVerified : Bool) : Result :=
  if ∀ p ∈ previous, p.Valid then
    match acceptValid previous raw arrivedNs sourceBindingVerified with
    | .ok (status, state) => ⟨status, none, state, false⟩
    | .error reason => ⟨.unknown, some reason, previous, false⟩
  else ⟨.unknown, some "accounting_state_invalid", none, false⟩

end

end SmartHome.Mqtt
