/-
  The consumer's files (`consumer_store.mjs`): `state.json`, `ack.json` and `prepared.json`,
  each replaced atomically, and the four operations on them.

  An operation either throws before its first write or yields the writes it makes, in order.
  The caller holds the lock, so nothing else writes between them.  What the store reads back
  are its own texts; the files are therefore modelled by what they say.
-/
import SmartHome.Mqtt.Consumer.State

namespace SmartHome.Mqtt.Consumer

open Verif

/-! ## Texts -/

def TimingRow.json (r : TimingRow) : Json :=
  .obj [("max_upper_ns", optNum r.maxUpperNs), ("observed", num r.observed), ("timed", num r.timed),
    ("timing_unknown", num r.timingUnknown)]

def ConsumerState.json (s : ConsumerState) : Json :=
  .obj <|
    [("acked_counts", s.ackedCounts.json num)] ++
    (s.canvasCheckpoint.elim [] fun c => [("canvas_checkpoint", c.json)]) ++
    [("clock_domain_changes", num s.clockDomainChanges), ("last_packet", num s.lastPacket),
      ("last_packet_sha", optHexJson s.lastPacketSha), ("last_receipt", num s.lastReceipt),
      ("last_receipt_sha", optHexJson s.lastReceiptSha),
      ("pending", s.pending.elim .null packetJson),
      ("received_counts", s.receivedCounts.json num),
      ("report_clock_domain_id", optHexJson s.reportClockDomainId),
      ("timing", kindJson fun k => (s.timing k).json),
      ("version", .int (if s.canvasCheckpoint.isSome then 2 else 1))]

section
variable [Sha256]

/-- `wrapper`: a body with its digest. -/
def wrapper (body : Json) : Json :=
  .obj [("body", body), ("schema_version", .int 1), ("sha256", hexJson (digest body))]

/-- The digest of a state, by which proposals name it. -/
def ConsumerState.sha256 (s : ConsumerState) : Hex 64 := digest s.json

/-- What `prepare` proposes: a report, on the state it was computed for. -/
structure Plan where
  baseStateSha : Option (Hex 64)
  report : Envelope
  deriving DecidableEq

def Plan.json (p : Plan) : Json :=
  .obj [("base_state_sha", optHexJson p.baseStateSha), ("report", p.report.json),
    ("schema_version", .int 1)]

/-- The name of a proposal. -/
def Plan.sha256 (p : Plan) : Hex 64 := digest p.json

/-- The name of the proposal to change only the checkpoint of a state. -/
def ConsumerState.checkpointProposal (s : ConsumerState) : Hex 64 :=
  digest (.obj [("base_state_sha", hexJson s.sha256),
    ("operation", .str "canvas_checkpoint_only"), ("schema_version", .int 1)])

/-- `LIMIT` -/
def limit : ℕ := 131072

/-! ## Files -/

/-- The files of the store. -/
structure Files where
  state : Option ConsumerState
  ack : Option Ack
  prepared : Option Plan
  deriving DecidableEq

/-- One atomic replacement. -/
inductive Write where
  | state (s : ConsumerState)
  | ack (a : Ack)
  | prepared (p : Plan)

def Files.write (f : Files) : Write → Files
  | .state s => { f with state := some s }
  | .ack a => { f with ack := some a }
  | .prepared p => { f with prepared := some p }

def Files.empty : Files := ⟨none, none, none⟩

/-- The checks of a state that is read. -/
def ConsumerState.Stored (s : ConsumerState) : Prop :=
  s.Valid ∧ ∀ c ∈ s.canvasCheckpoint, c.Anchored s.lastReceipt s.ackedCounts

instance (s : ConsumerState) : Decidable s.Stored := by
  unfold ConsumerState.Stored; infer_instance

/-! ## Results -/

/-- What `prepareCheckpoint` returns. -/
structure CheckpointPlan where
  proposalSha : Hex 64
  baseStateSha : Hex 64
  receiptId : ℕ
  acknowledgedCounts : Totals
  canvasCheckpoint : Option Checkpoint
  canvasCheckpointSha256 : Option (Hex 64)
  deriving DecidableEq

/-- `_checkpointPlan` -/
def checkpointPlan (s : ConsumerState) : CheckpointPlan :=
  ⟨s.checkpointProposal, s.sha256, s.lastReceipt, s.ackedCounts, s.canvasCheckpoint,
    s.canvasCheckpoint.map fun c => digest c.json⟩

/-- What `prepare` returns. -/
structure Prepared where
  proposalSha : Hex 64
  baseStateSha : Option (Hex 64)
  sourceReportSha : Hex 64
  sourcePacket : Option Packet
  receivedCounts : Totals
  acknowledgedCounts : Totals
  receiptFacts : List Facts
  canvasCheckpoint : Option Checkpoint
  canvasCheckpointSha256 : Option (Hex 64)
  checkpointOnly : Option CheckpointPlan
  clockDomainChanges : ℕ
  ackIntended : Bool
  deriving DecidableEq

/-- What a commit returns: that the proposal is stale, or what was committed. -/
inductive Committed where
  | stalePrepare
  | committed (stateSha : Hex 64) (canvasCheckpointSha256 : Option (Hex 64)) (ackWritten : Bool)
      (ackIntended : Bool)
  deriving DecidableEq

namespace Files
variable (f : Files)

/-- `_state` -/
def readState : Except String (Option ConsumerState) := do
  need (∀ s ∈ f.state, s.Stored) "consumer_state_invalid"
  return f.state

/-! ## Operations -/

/-- `prepare`, on the text of `report.json`. -/
def prepare (report : Option (List Char)) : Except String (List Write × Prepared) := do
  let old ← f.readState
  let raw ← orFail "consumer_file_unavailable" report
  let e ← orFail "metadata_protocol_invalid" (decodeEnvelope raw)
  let result ← transition old e.text
  let plan : Plan := ⟨old.map ConsumerState.sha256, e⟩
  need ((wrapper plan.json).canonical.length ≤ limit) "consumer_capacity_reached"
  let checkpoint := old.bind ConsumerState.canvasCheckpoint
  return ([.prepared plan],
    ⟨plan.sha256, plan.baseStateSha, digest e.bodyJson, result.state.pending,
      result.state.receivedCounts, result.state.ackedCounts, result.receiptFacts, checkpoint,
      checkpoint.map fun c => digest c.json, old.map checkpointPlan,
      result.state.clockDomainChanges, result.ack.isSome⟩)

/-- The state with the checkpoint that a commit binds to it. -/
def withCheckpoint (previous : Option Checkpoint) (s : ConsumerState) (proposal : Hex 64) :
    Option Json → Except String ConsumerState
  | none => do
    need (previous = none) "canvas_checkpoint_required"
    return s
  | some j => do
    let c ← orFail "canvas_checkpoint_invalid" (Checkpoint.read j)
    need (c.Binds previous s.lastReceipt s.ackedCounts proposal) "canvas_checkpoint_invalid"
    let s := { s with canvasCheckpoint := some c }
    need s.Valid "canvas_checkpoint_invalid"
    return s

/-- `commit` -/
def commit (proposal : String) (checkpoint : Option Json) :
    Except String (List Write × Committed) := do
  let sha ← orFail "consumer_proposal_invalid" (hex? 64 (.str proposal))
  let plan ← orFail "consumer_file_unavailable" f.prepared
  if plan.sha256 ≠ sha then return ([], .stalePrepare)
  let old ← f.readState
  if old.map ConsumerState.sha256 ≠ plan.baseStateSha then return ([], .stalePrepare)
  let result ← transition old plan.report.text
  let s ← withCheckpoint (old.bind ConsumerState.canvasCheckpoint) result.state sha checkpoint
  need ((wrapper s.json).canonical.length ≤ limit) "consumer_capacity_reached"
  -- the state is durable before its acknowledgement is
  return (.state s :: (result.ack.map Write.ack).toList,
    .committed s.sha256 (if checkpoint.isSome then s.canvasCheckpoint.map fun c => digest c.json else none)
      (result.ack.isSome && decide (f.ack ≠ result.ack)) result.ack.isSome)

/-- `prepareCheckpoint` -/
def prepareCheckpoint : Except String CheckpointPlan := do
  let old ← f.readState
  let s ← orFail "consumer_history_missing" old
  return checkpointPlan s

/-- `commitCheckpoint` -/
def commitCheckpoint (proposal : String) (checkpoint : Option Json) :
    Except String (List Write × Committed) := do
  let sha ← orFail "consumer_proposal_invalid" (hex? 64 (.str proposal))
  let j ← orFail "consumer_proposal_invalid" checkpoint
  let old ← f.readState
  let s ← orFail "consumer_history_missing" old
  if sha ≠ s.checkpointProposal then return ([], .stalePrepare)
  let c ← orFail "canvas_checkpoint_invalid" (Checkpoint.read j)
  need (c.Binds s.canvasCheckpoint s.lastReceipt s.ackedCounts sha) "canvas_checkpoint_invalid"
  let next := { s with canvasCheckpoint := some c }
  need next.Valid "consumer_state_invalid"
  need ((wrapper next.json).canonical.length ≤ limit) "consumer_capacity_reached"
  return ([.state next], .committed next.sha256 (some (digest c.json)) false false)

end Files

/-! ## Runs -/

/-- The entry points of the store. -/
inductive StoreOp where
  | prepare (report : Option (List Char))
  | commit (proposal : String) (checkpoint : Option Json)
  | prepareCheckpoint
  | commitCheckpoint (proposal : String) (checkpoint : Option Json)

/-- The writes of an operation; none if it throws. -/
def Files.writes (f : Files) : StoreOp → List Write
  | .prepare report => (f.prepare report).toOption.elim [] Prod.fst
  | .commit proposal checkpoint => (f.commit proposal checkpoint).toOption.elim [] Prod.fst
  | .prepareCheckpoint => []
  | .commitCheckpoint proposal checkpoint =>
    (f.commitCheckpoint proposal checkpoint).toOption.elim [] Prod.fst

end
end SmartHome.Mqtt.Consumer
