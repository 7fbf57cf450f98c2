/-
  The durable ledger of the source reader (`receiver_ledger.py`, `handoff_ledger.py`): one
  snapshot row that every operation replaces as a whole.

  An operation computes the body it wants to store; `commit` raises its revision, lets
  `observe` collect what changed into the active bucket, validates the result and stores it.
  A commit that fails for any reason leaves the ledger failed until it is opened again.
-/
import SmartHome.Mqtt.Handoff

namespace SmartHome.Mqtt

open Verif

/-! ## Bodies -/

/-- `last_fault` -/
structure FaultMark where
  kind : Fault
  atNs : ℕ
  clockDomainId : Hex 64
  deriving DecidableEq

/-- The snapshot. -/
structure Body where
  version : ℕ
  revision : ℕ
  readerSessions : ℕ
  acceptedFrames : ℕ
  duplicateFrames : ℕ
  faults : Fault → ℕ
  lastFault : Option FaultMark
  clockDomainId : Hex 64
  state : Option State
  handoff : Handoff
  deriving DecidableEq

section
variable (n : ℕ → Json)

def Row.json (r : Row) : Json :=
  .obj [("expected", n (r.col .expected)),
    ("max_source_to_reader_ns", optJson n r.maxSourceToReaderNs),
    ("missing", n (r.col .missing)), ("observed", n (r.col .observed)),
    ("source_dropped", n (r.col .sourceDropped)), ("timed", n (r.col .timed)),
    ("timing_unknown", n (r.col .timingUnknown)),
    ("transport_missing", n (r.col .transportMissing))]

def EpochSummary.json (s : EpochSummary) : Json :=
  .obj [("clock_faults", n s.clockFaults), ("epoch", n s.epoch), ("report_gaps", n s.reportGaps),
    ("send_failures", n s.sendFailures), ("stats", kindJson fun k => (s.stats k).json n),
    ("tail_unknown", .bool s.tailUnknown)]

/-- A member that may be absent. -/
def memberOpt (key : String) : Option Json → List (String × Json)
  | none => []
  | some v => [(key, v)]

/-- A state; versions 2 and 3 lack the keys that came later. -/
def State.json (s : State) : Json :=
  .obj <|
    [("clock_faults", n s.clockFaults), ("epoch", n s.epoch),
      ("full24h_proven", .bool s.full24hProven), ("instance", hexJson s.source),
      ("last_batch", kindJson fun k => (s.lastBatch k).json n)] ++
    memberOpt "last_covered_before_ns"
      (if s.version = 4 then some (optJson n s.lastCoveredBeforeNs) else none) ++
    [("last_emitted_ns", optJson n s.lastEmittedNs), ("last_event_seq", n s.lastEventSeq),
      ("last_frame_hash", hexJson s.lastFrameHash), ("last_frame_seq", n s.lastFrameSeq),
      ("last_reader_ns", n s.lastReaderNs),
      ("last_source_dropped", kindJson fun k => n (s.lastSourceDropped k))] ++
    memberOpt "last_source_wire_version"
      (if 3 ≤ s.version then some (n s.lastSourceWireVersion) else none) ++
    [("last_totals", kindJson fun k => n (s.lastTotals k)),
      ("past_clock_faults", n s.pastClockFaults), ("past_report_gaps", n s.pastReportGaps),
      ("past_send_failures", n s.pastSendFailures),
      ("past_stats", kindJson fun k => (s.pastStats k).json n)] ++
    memberOpt "previous_epoch_summary" (s.previousEpochSummary.map fun p => p.json n) ++
    [("previous_epoch_tail_unknown", .bool s.previousEpochTailUnknown),
      ("report_gaps", n s.reportGaps), ("send_failures", n s.sendFailures)] ++
    memberOpt "source_closed" (if 3 ≤ s.version then some (.bool s.sourceClosed) else none) ++
    [("started_ns", optJson n s.startedNs), ("stats", kindJson fun k => (s.stats k).json n),
      ("unknown_epoch_tails", n s.unknownEpochTails), ("version", n s.version)]

def Packet.json (p : Packet) : Json :=
  .obj [("sha256", hexJson p.sha256), ("value", p.body.json n)]

def Handoff.json (h : Handoff) : Json :=
  .obj [("ack_clock_conflicts", n h.ackClockConflicts), ("ack_rejections", n h.ackRejections),
    ("acked_buckets", n h.ackedBuckets), ("acked_counts", h.ackedCounts.json n),
    ("active", h.active.json n), ("last_ack", optReceiptJson n h.lastAck),
    ("next_bucket_id", n h.nextBucketId),
    ("published", h.published.elim .null fun p => p.json n), ("version", n h.version)]

def FaultMark.json (m : FaultMark) : Json :=
  .obj [("at_ns", n m.atNs), ("clock_domain_id", hexJson m.clockDomainId),
    ("kind", .str m.kind.name)]

def Body.json (b : Body) : Json :=
  .obj [("accepted_frames", n b.acceptedFrames), ("clock_domain_id", hexJson b.clockDomainId),
    ("duplicate_frames", n b.duplicateFrames), ("faults", faultJson n b.faults),
    ("handoff", b.handoff.json n), ("last_fault", b.lastFault.elim .null fun m => m.json n),
    ("reader_sessions", n b.readerSessions), ("revision", n b.revision),
    ("state", b.state.elim .null fun s => s.json n), ("version", n b.version)]

end

/-- `MAX_BODY` -/
def maxBody : ℕ := 131072

namespace Body
variable (b : Body)

/-- `encode`: the text of the snapshot. -/
def encode : List Char := (b.json fun m => .int m).canonical

/-- `validate` of the source ledger. -/
@[mk_iff] structure BaseValid : Prop where
  version : b.version = 1
  revision : b.revision < 2 ^ 128
  readerSessions : b.readerSessions < 2 ^ 128
  acceptedFrames : b.acceptedFrames < 2 ^ 128
  duplicateFrames : b.duplicateFrames < 2 ^ 128
  faults : ∀ f, b.faults f < 2 ^ 128
  lastFault : ∀ l ∈ b.lastFault, l.atNs < 2 ^ 128
  faulty : ∑ f, b.faults f = 0 ↔ b.lastFault = none
  state : ∀ s ∈ b.state, s.Valid

instance : Decidable b.BaseValid := decidable_of_iff _ (baseValid_iff b).symm

/-- `source_counts` of a body. -/
def sourceCounts : Totals
  | .header .frames => b.acceptedFrames
  | .header .duplicates => b.duplicateFrames
  | .header .sessions => b.readerSessions
  | .header .sourceEpochs => b.state.elim 0 State.epoch
  | .header .reportGaps => b.state.elim 0 fun s => s.pastReportGaps + s.reportGaps
  | .header .unknownEpochTails => b.state.elim 0 State.unknownEpochTails
  | .header .sourceClockFaults => b.state.elim 0 fun s => s.pastClockFaults + s.clockFaults
  | .header .sourceSendFailures => b.state.elim 0 fun s => s.pastSendFailures + s.sendFailures
  | .header .ackRejections => 0
  | .header .ackClockConflicts => 0
  | .fault f => b.faults f
  | .stat k c => b.state.elim 0 fun s => (s.stats k).col c + (s.pastStats k).col c

end Body

/-- `source_counts` -/
def sourceCounts (b : Option Body) : Totals := b.elim 0 Body.sourceCounts

/-- The oldest source time and the longest delay of each kind, with the newest frame. -/
def Bucket.noteTimes (b : Bucket) (s : State) : Bucket :=
  { b with
    oldestSourceNs := fun k => match (s.lastBatch k).maxSourceToReaderNs with
      | some m => if (s.lastBatch k).col .timed = 0 then b.oldestSourceNs k
        else some ((b.oldestSourceNs k).elim (s.lastReaderNs - m) (min · (s.lastReaderNs - m)))
      | none => b.oldestSourceNs k
    maxSocketNs := fun k => if (s.lastBatch k).col .timed = 0 then b.maxSocketNs k
      else Row.maxOpt (b.maxSocketNs k) (s.lastBatch k).maxSourceToReaderNs }

/-- `observe`: collect the growth of the source counts into the active bucket. -/
def observe (old : Option Body) (body : Body) (atNs : ℕ) : Except String Handoff := do
  let before := sourceCounts old
  let after := body.sourceCounts
  need (∀ c, before c ≤ after c ∧ after c - before c < 2 ^ 128) "handoff_state_invalid"
  let delta := after - before
  need (delta (.header .frames) ≤ 1) "handoff_state_invalid"
  if delta = 0 then return body.handoff
  let active := (body.handoff.active.touch atNs body.clockDomainId).add delta
  if delta (.header .frames) = 0 then return { body.handoff with active }
  let state ← orFail "handoff_state_invalid" body.state
  need (∀ k c, delta (.stat k c) = (state.lastBatch k).col c) "handoff_state_invalid"
  need (∀ k, ∀ m ∈ (state.lastBatch k).maxSourceToReaderNs, (state.lastBatch k).col .timed ≠ 0 →
    m ≤ state.lastReaderNs ∧ state.lastReaderNs - m < 2 ^ 64) "handoff_state_invalid"
  return { body.handoff with active := active.noteTimes state }

/-! ## Operations on a body -/

/-- What an operation stores, if anything, and what it returns. -/
structure Attempt (α : Type) where
  store : Option Body
  result : α

namespace Body
variable (b : Body)

/-- `_fault` -/
def fault (kind : Fault) (atNs : ℕ) (domain : Hex 64) : Body :=
  { b with
    faults := Function.update b.faults kind (b.faults kind + 1)
    lastFault := some ⟨kind, atNs, domain⟩ }

/-- `_initial_body` -/
def initial (domain : Hex 64) : Body :=
  ⟨1, 0, 0, 0, 0, fun _ => 0, none, domain, none, Handoff.initial domain⟩

/-- The body at the start of a reader session. -/
def session (domain : Hex 64) (startedNs : ℕ) : Body :=
  let next := { b with readerSessions := b.readerSessions + 1 }
  let next := if b.readerSessions = 0 then next else next.fault .readerRestart startedNs domain
  let next := if b.clockDomainId = domain then next
    else next.fault .clockDomainChanged startedNs domain
  { next with clockDomainId := domain }

/-- `record_fault` -/
def recordFault (kind : Fault) (arrivedNs : ℕ) : Except String (Attempt Unit) :=
  if kind = .readerRestart ∨ kind = .clockDomainChanged then .error "fault_kind_invalid"
  else .ok ⟨some (b.fault kind arrivedNs b.clockDomainId), ()⟩

section
variable [Sha256]

/-- `frame` -/
def frame (packet : Bytes) (arrivedNs : ℕ) (verified : Bool) : Except String (Attempt Status) :=
  if verified = false then
    .ok ⟨some (b.fault .sourceBindingUnverified arrivedNs b.clockDomainId), .unknown⟩
  else
    let result := accept b.state packet arrivedNs true
    match result.status with
    | .unknown => .ok ⟨some (b.fault .sourceFrameRejected arrivedNs b.clockDomainId), .unknown⟩
    | .accepted =>
      .ok ⟨some { b with acceptedFrames := b.acceptedFrames + 1, state := result.state }, .accepted⟩
    | .duplicate => .ok ⟨some { b with duplicateFrames := b.duplicateFrames + 1 }, .duplicate⟩

/-- `publish` -/
def publish (atNs : ℕ) : Except String (Attempt (Option Packet)) :=
  match b.handoff.freeze atNs b.clockDomainId with
  | none => .error "handoff_state_invalid"
  | some (packet, changed, h) => .ok ⟨if changed then some { b with handoff := h } else none, packet⟩

end

/-- `acknowledge` -/
def acknowledge (ack : Json) (atNs : ℕ) : Except String (Attempt AckStatus) :=
  match b.handoff.acknowledge ack atNs b.clockDomainId with
  | none => .error "handoff_state_invalid"
  | some (status, changed, h) => .ok ⟨if changed then some { b with handoff := h } else none, status⟩

end Body

/-! ## The ledger -/

/-- What SQLite does with the transaction of a commit: it commits, it fails and the row stays
    as it was, or it fails although the row was replaced. -/
inductive Sql where
  | committed | lost | kept
  deriving DecidableEq, Repr

/-- An open ledger and its row.  `failed` is the reason of the commit that failed; the code
    keeps only that one did. -/
structure Ledger where
  body : Option Body
  failed : Option String
  row : Option Body
  operationNs : ℕ
  deriving DecidableEq

def sqliteError : String := "sqlite_error"

section
variable [Sha256]

/-- The body that `_commit` stores: the candidate with its revision raised, `_prepare`d and
    validated. -/
def prepare (old : Option Body) (body : Body) (operationNs : ℕ) : Except String Body := do
  let candidate := { body with revision := body.revision + 1 }
  need candidate.BaseValid "ledger_state_invalid"
  let handoff ← observe old candidate operationNs
  let candidate := { candidate with handoff }
  need candidate.BaseValid "ledger_state_invalid"
  need (candidate.handoff.Valid candidate.sourceCounts) "handoff_state_invalid"
  need (candidate.encode.length ≤ maxBody) "ledger_capacity_reached"
  return candidate

namespace Ledger
variable (l : Ledger)

/-- `_commit` -/
def commit (body : Body) (sql : Sql) : Ledger :=
  if l.failed.isSome then l else
  match prepare l.body body l.operationNs with
  | .error reason => { l with failed := some reason }
  | .ok candidate =>
    match sql with
    | .committed => { l with body := some candidate, row := some candidate }
    | .lost => { l with failed := some sqliteError }
    | .kept => { l with row := some candidate, failed := some sqliteError }

/-- `_now` -/
def now (atNs : ℕ) : Except String (Ledger × Body) := do
  need (atNs < 2 ^ 64) "reader_clock_invalid"
  need (l.failed = none) "ledger_not_writable"
  let body ← orFail "ledger_not_writable" l.body
  return ({ l with operationNs := atNs }, body)

/-- Run an operation at a time: commit what it stores and return its result. -/
def perform {α : Type} (atNs : ℕ) (op : Body → Except String (Attempt α)) (sql : Sql) :
    Ledger × Except String α :=
  match l.now atNs with
  | .error reason => (l, .error reason)
  | .ok (l, body) =>
    match op body with
    | .error reason => (l, .error reason)
    | .ok ⟨none, result⟩ => (l, .ok result)
    | .ok ⟨some next, result⟩ =>
      let l := l.commit next sql
      (l, if l.failed.isSome then .error "metadata_commit_failed" else .ok result)

def recordFault (kind : Fault) (arrivedNs : ℕ) (sql : Sql) : Ledger × Except String Unit :=
  l.perform arrivedNs (fun b => b.recordFault kind arrivedNs) sql

def frame (packet : Bytes) (arrivedNs : ℕ) (verified : Bool) (sql : Sql) :
    Ledger × Except String Status :=
  l.perform arrivedNs (fun b => b.frame packet arrivedNs verified) sql

def publish (atNs : ℕ) (sql : Sql) : Ledger × Except String (Option Packet) :=
  l.perform atNs (fun b => b.publish atNs) sql

def acknowledge (ack : Json) (atNs : ℕ) (sql : Sql) : Ledger × Except String AckStatus :=
  l.perform atNs (fun b => b.acknowledge ack atNs) sql

/-- The checks of a row that is read. -/
def readRow : Except String Body := do
  let body ← orFail "ledger_state_invalid" l.row
  need (body.encode.length ≤ maxBody) "ledger_state_invalid"
  need body.BaseValid "ledger_state_invalid"
  need (body.handoff.Valid body.sourceCounts) "handoff_state_invalid"
  return body

/-- Read the row and, unless only creating, start a reader session.  A ledger that cannot be
    opened keeps its row and nothing else. -/
def openRow (domain : Hex 64) (startedNs : ℕ) (startSession : Bool) (sql : Sql) :
    Ledger × Except String Unit :=
  match l.readRow with
  | .error reason => (⟨none, none, l.row, startedNs⟩, .error reason)
  | .ok body =>
    let l : Ledger := ⟨some body, none, l.row, startedNs⟩
    if startSession then
      let l := l.commit (body.session domain startedNs) sql
      (l, if l.failed.isSome then .error "metadata_commit_failed" else .ok ())
    else (l, .ok ())

/-- Open an existing ledger. -/
def reopen (domain : Hex 64) (startedNs : ℕ) (sql : Sql) : Ledger × Except String Unit :=
  if startedNs < 2 ^ 64 then l.openRow domain startedNs true sql
  else (⟨none, none, l.row, startedNs⟩, .error "reader_clock_invalid")

/-- Create a ledger: store the initial body, then open it. -/
def create (domain : Hex 64) (startedNs : ℕ) (startSession : Bool) (first second : Sql) :
    Ledger × Except String Unit :=
  if startedNs < 2 ^ 64 then
    let l := commit ⟨none, none, none, startedNs⟩ (Body.initial domain) first
    if l.failed.isSome then (l, .error "metadata_commit_failed")
    else l.openRow domain startedNs startSession second
  else (⟨none, none, none, startedNs⟩, .error "reader_clock_invalid")

end Ledger
end

/-! ## Runs -/

/-- The operations on a ledger. -/
inductive Op where
  | frame (packet : Bytes) (arrivedNs : ℕ) (verified : Bool)
  | recordFault (kind : Fault) (arrivedNs : ℕ)
  | publish (atNs : ℕ)
  | acknowledge (ack : Json) (atNs : ℕ)
  | reopen (domain : Hex 64) (startedNs : ℕ)

section
variable [Sha256]

/-- One operation, with what SQLite does to its transaction. -/
def Ledger.step (l : Ledger) (sql : Sql) : Op → Ledger
  | .frame packet arrivedNs verified => (l.frame packet arrivedNs verified sql).1
  | .recordFault kind arrivedNs => (l.recordFault kind arrivedNs sql).1
  | .publish atNs => (l.publish atNs sql).1
  | .acknowledge ack atNs => (l.acknowledge ack atNs sql).1
  | .reopen domain startedNs => (l.reopen domain startedNs sql).1

end
end SmartHome.Mqtt
