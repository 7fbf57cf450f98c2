/-
  The durable handoff from the source ledger to the consumer (`handoff.py`): counts are
  collected in an active bucket, frozen into a published packet, and counted as
  acknowledged when the consumer's acknowledgement of the packet is read.
-/
import SmartHome.Mqtt.Protocol

namespace SmartHome.Mqtt

open Verif

/-! ## Counters -/

/-- `FAULTS` -/
inductive Fault where
  | readerRestart | clockDomainChanged | sourceFrameRejected | sourceBindingUnverified
  | transportTruncated | transportAncillaryInvalid | sourceIdentityLost
  deriving DecidableEq, Repr

def Fault.name : Fault → String
  | readerRestart => "reader_restart"
  | clockDomainChanged => "clock_domain_changed"
  | sourceFrameRejected => "source_frame_rejected"
  | sourceBindingUnverified => "source_binding_unverified"
  | transportTruncated => "transport_truncated"
  | transportAncillaryInvalid => "transport_ancillary_invalid"
  | sourceIdentityLost => "source_identity_lost"

def faults : List Fault :=
  [.readerRestart, .clockDomainChanged, .sourceFrameRejected, .sourceBindingUnverified,
    .transportTruncated, .transportAncillaryInvalid, .sourceIdentityLost]

theorem mem_faults (f : Fault) : f ∈ faults := by cases f <;> decide

instance : Fintype Fault := ⟨⟨faults, by decide⟩, mem_faults⟩

/-- `HEADERS` -/
inductive Header where
  | frames | duplicates | sessions | sourceEpochs | reportGaps | unknownEpochTails
  | sourceClockFaults | sourceSendFailures | ackRejections | ackClockConflicts
  deriving DecidableEq, Repr

def Header.name : Header → String
  | frames => "frames"
  | duplicates => "duplicates"
  | sessions => "sessions"
  | sourceEpochs => "source_epochs"
  | reportGaps => "report_gaps"
  | unknownEpochTails => "unknown_epoch_tails"
  | sourceClockFaults => "source_clock_faults"
  | sourceSendFailures => "source_send_failures"
  | ackRejections => "ack_rejections"
  | ackClockConflicts => "ack_clock_conflicts"

def headers : List Header :=
  [.frames, .duplicates, .sessions, .sourceEpochs, .reportGaps, .unknownEpochTails,
    .sourceClockFaults, .sourceSendFailures, .ackRejections, .ackClockConflicts]

theorem mem_headers (h : Header) : h ∈ headers := by cases h <;> decide

instance : Fintype Header := ⟨⟨headers, by decide⟩, mem_headers⟩

/-- The place of one number in a table of totals. -/
inductive Counter where
  | header (h : Header)
  | fault (f : Fault)
  | stat (k : Kind) (c : Column)
  deriving DecidableEq, Repr

def counters : List Counter :=
  headers.map .header ++ faults.map .fault ++ kinds.flatMap fun k => columns.map (.stat k)

theorem mem_counters (c : Counter) : c ∈ counters := by
  cases c with
  | header h => simp [counters, mem_headers]
  | fault f => simp [counters, mem_faults]
  | stat k c => simp [counters, mem_kinds, mem_columns]

instance : Fintype Counter := ⟨⟨counters, by decide⟩, mem_counters⟩

/-- A table of totals: the headers, the faults and the statistics of each kind.  `totals()`
    is the zero table and `add_totals` the pointwise sum. -/
abbrev Totals := Counter → ℕ

/-- The equations between the statistics columns of each kind. -/
def Totals.Balanced (t : Totals) : Prop := ∀ k,
  t (.stat k .expected) = t (.stat k .observed) + t (.stat k .missing) ∧
  t (.stat k .observed) = t (.stat k .timed) + t (.stat k .timingUnknown) ∧
  t (.stat k .missing) = t (.stat k .sourceDropped) + t (.stat k .transportMissing)

instance (t : Totals) : Decidable t.Balanced := by unfold Totals.Balanced; infer_instance

/-- One in one place. -/
def Totals.one (c : Counter) : Totals := Pi.single c 1

/-- `validate_totals` -/
def Totals.Valid (t : Totals) : Prop := (∀ c, t c < 2 ^ 128) ∧ t.Balanced

instance (t : Totals) : Decidable t.Valid := by unfold Totals.Valid; infer_instance

/-! ## Buckets, packets and receipts -/

/-- The counts collected between two publications. -/
structure Bucket where
  clockDomainId : Option (Hex 64)
  clockDomainConflict : Bool
  firstReaderNs : Option ℕ
  lastReaderNs : Option ℕ
  counts : Totals
  oldestSourceNs : Kind → Option ℕ
  maxSocketNs : Kind → Option ℕ
  deriving DecidableEq

namespace Bucket

/-- `empty` -/
def empty (domain : Hex 64) : Bucket :=
  ⟨some domain, false, none, none, 0, fun _ => none, fun _ => none⟩

/-- `touch`: note the time and the clock domain of a change. -/
def touch (b : Bucket) (atNs : ℕ) (domain : Hex 64) : Bucket :=
  let b := if b.counts = 0 then { b with clockDomainId := some domain }
    else if b.clockDomainId ≠ some domain ∨ ∃ l ∈ b.lastReaderNs, atNs < l then
      { b with clockDomainId := none, clockDomainConflict := true }
    else b
  { b with firstReaderNs := b.firstReaderNs.or (some atNs), lastReaderNs := some atNs }

/-- Add to the counts. -/
def add (b : Bucket) (delta : Totals) : Bucket := { b with counts := b.counts + delta }

/-- `validate_bucket` -/
@[mk_iff] structure Valid (b : Bucket) : Prop where
  domain : if b.clockDomainConflict then b.clockDomainId = none else b.clockDomainId.isSome
  counts : b.counts.Valid
  readers : if b.counts = 0 then b.firstReaderNs = none ∧ b.lastReaderNs = none else
    ∃ first ∈ b.firstReaderNs, ∃ last ∈ b.lastReaderNs, first < 2 ^ 64 ∧ last < 2 ^ 64 ∧
      (b.clockDomainConflict = false → first ≤ last)
  oldest : ∀ k, (b.counts (.stat k .timed) = 0 ∧ b.oldestSourceNs k = none) ∨
    (0 < b.counts (.stat k .timed) ∧ ∃ v ∈ b.oldestSourceNs k, v < 2 ^ 64)
  maximum : ∀ k, (b.counts (.stat k .timed) = 0 ∧ b.maxSocketNs k = none) ∨
    (0 < b.counts (.stat k .timed) ∧ ∃ v ∈ b.maxSocketNs k, v < 2 ^ 64)
  ordered : b.clockDomainConflict = false →
    ∀ k, ∀ v ∈ b.oldestSourceNs k, ∃ last ∈ b.lastReaderNs, v ≤ last

instance (b : Bucket) : Decidable b.Valid := decidable_of_iff _ (valid_iff b).symm

end Bucket

/-- The delays of one kind in a receipt. -/
structure AckRow where
  observed : ℕ
  timed : ℕ
  timingUnknown : ℕ
  upperNs : Option ℕ
  deriving DecidableEq

/-- What the producer records when it has read an acknowledgement. -/
structure Receipt where
  bucketId : ℕ
  sha256 : Hex 64
  ackAtNs : ℕ
  ackClockDomainId : Hex 64
  publicationToAckNs : Option ℕ
  clockOrdered : Bool
  sourceToAck : Kind → AckRow
  deriving DecidableEq

/-- `validate_receipt` -/
@[mk_iff] structure Receipt.Valid (r : Receipt) : Prop where
  bucketId : r.bucketId < 2 ^ 64 ∧ 0 < r.bucketId
  ackAtNs : r.ackAtNs < 2 ^ 64
  publication : if r.clockOrdered then ∃ n ∈ r.publicationToAckNs, n < 2 ^ 64
    else r.publicationToAckNs = none
  rows : ∀ k, (r.sourceToAck k).observed < 2 ^ 128 ∧ (r.sourceToAck k).timed < 2 ^ 128 ∧
    (r.sourceToAck k).timingUnknown < 2 ^ 128 ∧
    (r.sourceToAck k).observed = (r.sourceToAck k).timed + (r.sourceToAck k).timingUnknown ∧
    (((r.sourceToAck k).timed = 0 ∧ (r.sourceToAck k).upperNs = none) ∨
      (0 < (r.sourceToAck k).timed ∧ (∃ n ∈ (r.sourceToAck k).upperNs, n < 2 ^ 64) ∧
        r.clockOrdered = true))

instance (r : Receipt) : Decidable r.Valid := decidable_of_iff _ (Receipt.valid_iff r).symm

/-- The body of a packet: a frozen bucket. -/
structure PacketBody where
  bucketId : ℕ
  aggregate : Bucket
  publishedAtNs : ℕ
  publisherClockDomainId : Hex 64
  previousAck : Option Receipt
  deriving DecidableEq

/-- A frozen bucket with the digest of its text. -/
structure Packet where
  body : PacketBody
  sha256 : Hex 64
  deriving DecidableEq

/-! ## Texts

The texts list object members in key order.  The parameter writes a number: the packets and
reports write decimal texts (`stringify`), the ledger's own snapshot writes JSON numbers. -/

section
variable (n : ℕ → Json)

def optJson : Option ℕ → Json
  | none => .null
  | some m => n m

def hexJson {m : ℕ} (h : Hex m) : Json := .str h.1

def optHexJson {m : ℕ} : Option (Hex m) → Json
  | none => .null
  | some h => hexJson h

/-- A table over the kinds. -/
def kindJson (f : Kind → Json) : Json :=
  .obj [("client_offline", f .clientOffline), ("connect", f .connect),
    ("disconnect", f .disconnect), ("publish_in", f .publishIn), ("publish_out", f .publishOut),
    ("subscribe", f .subscribe), ("unsubscribe", f .unsubscribe)]

def columnJson (f : Column → ℕ) : Json :=
  .obj [("expected", n (f .expected)), ("missing", n (f .missing)),
    ("observed", n (f .observed)), ("source_dropped", n (f .sourceDropped)),
    ("timed", n (f .timed)), ("timing_unknown", n (f .timingUnknown)),
    ("transport_missing", n (f .transportMissing))]

def faultJson (f : Fault → ℕ) : Json :=
  .obj [("clock_domain_changed", n (f .clockDomainChanged)),
    ("reader_restart", n (f .readerRestart)),
    ("source_binding_unverified", n (f .sourceBindingUnverified)),
    ("source_frame_rejected", n (f .sourceFrameRejected)),
    ("source_identity_lost", n (f .sourceIdentityLost)),
    ("transport_ancillary_invalid", n (f .transportAncillaryInvalid)),
    ("transport_truncated", n (f .transportTruncated))]

def Totals.json (t : Totals) : Json :=
  .obj [("ack_clock_conflicts", n (t (.header .ackClockConflicts))),
    ("ack_rejections", n (t (.header .ackRejections))),
    ("duplicates", n (t (.header .duplicates))),
    ("faults", faultJson n fun f => t (.fault f)),
    ("frames", n (t (.header .frames))),
    ("report_gaps", n (t (.header .reportGaps))),
    ("sessions", n (t (.header .sessions))),
    ("source_clock_faults", n (t (.header .sourceClockFaults))),
    ("source_epochs", n (t (.header .sourceEpochs))),
    ("source_send_failures", n (t (.header .sourceSendFailures))),
    ("stats", kindJson fun k => columnJson n fun c => t (.stat k c)),
    ("unknown_epoch_tails", n (t (.header .unknownEpochTails)))]

def Bucket.json (b : Bucket) : Json :=
  .obj [("clock_domain_conflict", .bool b.clockDomainConflict),
    ("clock_domain_id", optHexJson b.clockDomainId),
    ("counts", b.counts.json n),
    ("first_reader_ns", optJson n b.firstReaderNs),
    ("last_reader_ns", optJson n b.lastReaderNs),
    ("max_socket_ns", kindJson fun k => optJson n (b.maxSocketNs k)),
    ("oldest_source_ns", kindJson fun k => optJson n (b.oldestSourceNs k))]

def AckRow.json (r : AckRow) : Json :=
  .obj [("observed", n r.observed), ("timed", n r.timed), ("timing_unknown", n r.timingUnknown),
    ("upper_ns", optJson n r.upperNs)]

def Receipt.json (r : Receipt) : Json :=
  .obj [("ack_at_ns", n r.ackAtNs), ("ack_clock_domain_id", hexJson r.ackClockDomainId),
    ("bucket_id", n r.bucketId), ("clock_ordered", .bool r.clockOrdered),
    ("publication_to_ack_ns", optJson n r.publicationToAckNs), ("sha256", hexJson r.sha256),
    ("source_to_ack", kindJson fun k => (r.sourceToAck k).json n)]

def optReceiptJson : Option Receipt → Json
  | none => .null
  | some r => r.json n

def PacketBody.json (v : PacketBody) : Json :=
  .obj [("aggregate", v.aggregate.json n), ("bucket_id", n v.bucketId),
    ("previous_ack", optReceiptJson n v.previousAck), ("published_at_ns", n v.publishedAtNs),
    ("publisher_clock_domain_id", hexJson v.publisherClockDomainId)]

end

/-- `hashlib.sha256(encode(value).encode('ascii')).hexdigest()`, and the consumer's `digest`. -/
def digest [Sha256] (j : Json) : Hex 64 := sha256 (ascii j.canonical)

/-- The digest of a packet body: of its text with decimal numbers. -/
def PacketBody.digest [Sha256] (v : PacketBody) : Hex 64 := Mqtt.digest (v.json num)

/-! ## The handoff record -/

/-- The `handoff` member of the ledger body. -/
structure Handoff where
  version : ℕ
  nextBucketId : ℕ
  ackedBuckets : ℕ
  ackRejections : ℕ
  ackClockConflicts : ℕ
  active : Bucket
  published : Option Packet
  ackedCounts : Totals
  lastAck : Option Receipt
  deriving DecidableEq

/-- `initial` -/
def Handoff.initial (domain : Hex 64) : Handoff :=
  ⟨1, 1, 0, 0, 0, Bucket.empty domain, none, 0, none⟩

/-- The counts in the published packet. -/
def Handoff.publishedCounts (h : Handoff) : Totals :=
  h.published.elim 0 fun p => p.body.aggregate.counts

/-- An acknowledgement as the consumer writes it. -/
structure Ack where
  bucketId : ℕ
  sha256 : Hex 64
  deriving DecidableEq

def Ack.json (a : Ack) : Json :=
  .obj [("bucket_id", num a.bucketId), ("schema_version", .int 1), ("sha256", hexJson a.sha256)]

def ackKeys : List String := ["schema_version", "bucket_id", "sha256"]

/-- The `valid` test of `acknowledge`. -/
def ack? (j : Json) : Option Ack := do
  let keys ← j.keys
  guard (keys ⊆ ackKeys ∧ ackKeys ⊆ keys)
  guard (j.get? "schema_version" = some (.int 1))
  let number ← match j.get? "bucket_id" with
    | some (.str s) => decimal? 19 s
    | _ => none
  guard (number < 2 ^ 64)
  let sha ← (j.get? "sha256").bind (hex? 64)
  return ⟨number, sha⟩

inductive AckStatus where
  | rejected | staleIgnored | duplicate | accepted
  deriving DecidableEq, Repr

namespace PacketBody
variable (v : PacketBody) (atNs : ℕ) (domain : Hex 64)

/-- `ordered`: one clock covers the counts, the publication and the acknowledgement, and it
    did not go back between them. -/
def Ordered : Prop :=
  domain = v.publisherClockDomainId ∧ some v.publisherClockDomainId = v.aggregate.clockDomainId ∧
    v.aggregate.clockDomainConflict = false ∧ v.publishedAtNs ≤ atNs ∧
    (∀ l ∈ v.aggregate.lastReaderNs, l ≤ v.publishedAtNs) ∧ ∀ l ∈ v.aggregate.lastReaderNs, l ≤ atNs

instance : Decidable (v.Ordered atNs domain) := by unfold Ordered; infer_instance

/-- The delays of one kind at the acknowledgement. -/
def ackRow (k : Kind) : AckRow :=
  let oldest := v.aggregate.oldestSourceNs k
  let observed := v.aggregate.counts (.stat k .observed)
  let known := if v.Ordered atNs domain ∧ ∃ o ∈ oldest, o ≤ atNs
    then v.aggregate.counts (.stat k .timed) else 0
  ⟨observed, known, observed - known, if known = 0 then none else oldest.map (atNs - ·)⟩

/-- The receipt of a packet with this body. -/
def receipt (sha256 : Hex 64) : Receipt where
  bucketId := v.bucketId
  sha256 := sha256
  ackAtNs := atNs
  ackClockDomainId := domain
  publicationToAckNs := if v.Ordered atNs domain then some (atNs - v.publishedAtNs) else none
  clockOrdered := v.Ordered atNs domain
  sourceToAck := v.ackRow atNs domain

end PacketBody

namespace Handoff
variable (h : Handoff)

/-- `freeze`: the packet to publish, whether the record changed, and the record after it;
    `none` if it stops. -/
def freeze [Sha256] (atNs : ℕ) (domain : Hex 64) : Option (Option Packet × Bool × Handoff) :=
  match h.published with
  | some p => some (some p, false, h)
  | none =>
    if h.active.counts = 0 then some (none, false, h)
    else if atNs < 2 ^ 64 ∧ h.nextBucketId < 2 ^ 64 then
      let value : PacketBody := ⟨h.nextBucketId, h.active, atNs, domain, h.lastAck⟩
      some (some ⟨value, value.digest⟩, true,
        { h with
          published := some ⟨value, value.digest⟩
          nextBucketId := h.nextBucketId + 1
          active := Bucket.empty domain })
    else none

/-- `reject_ack` -/
def rejectAck (atNs : ℕ) (domain : Hex 64) : Handoff :=
  { h with
    ackRejections := h.ackRejections + 1
    active := (h.active.touch atNs domain).add (Totals.one (.header .ackRejections)) }

/-- The part of `acknowledge` that takes the published packet off. -/
def settle (p : Packet) (atNs : ℕ) (domain : Hex 64) : Handoff :=
  let ordered := p.body.Ordered atNs domain
  { h with
    ackedCounts := h.ackedCounts + p.body.aggregate.counts
    ackedBuckets := h.ackedBuckets + 1
    lastAck := some (p.body.receipt atNs domain p.sha256)
    published := none
    ackClockConflicts := if ordered then h.ackClockConflicts else h.ackClockConflicts + 1
    active := if ordered then h.active
      else (h.active.touch atNs domain).add (Totals.one (.header .ackClockConflicts)) }

/-- `acknowledge`: the status, whether the record changed, and the record after it; `none` if
    it stops. -/
def acknowledge (ack : Json) (atNs : ℕ) (domain : Hex 64) : Option (AckStatus × Bool × Handoff) :=
  if atNs < 2 ^ 64 then
    let rejected := (.rejected, true, h.rejectAck atNs domain)
    match ack? ack with
    | none => some rejected
    | some a =>
      if ∃ r ∈ h.lastAck, a.bucketId < r.bucketId then some (.staleIgnored, false, h)
      else if ∃ r ∈ h.lastAck, a.bucketId = r.bucketId then
        if ∃ r ∈ h.lastAck, a.sha256 = r.sha256 then some (.duplicate, false, h) else some rejected
      else match h.published with
        | none => some rejected
        | some p =>
          if a.bucketId = p.body.bucketId ∧ a.sha256 = p.sha256
          then some (.accepted, true, h.settle p atNs domain) else some rejected
  else none

/-! ## Validity -/

/-- The source counts together with the counters of the acknowledgements. -/
def withAcks (source : Totals) : Totals
  | .header .ackRejections => h.ackRejections
  | .header .ackClockConflicts => h.ackClockConflicts
  | c => source c

section
variable [Sha256]

/-- What `validate` requires of the published packet. -/
@[mk_iff] structure PublishedValid (p : Packet) : Prop where
  bucketId : p.body.bucketId = h.nextBucketId - 1
  publishedAtNs : p.body.publishedAtNs < 2 ^ 64
  previousAck : p.body.previousAck = h.lastAck
  aggregate : p.body.aggregate.Valid
  nonempty : p.body.aggregate.counts ≠ 0
  sha256 : p.body.digest = p.sha256

instance (p : Packet) : Decidable (h.PublishedValid p) :=
  decidable_of_iff _ (publishedValid_iff h p).symm

/-- `validate`, for a body with the given source counts. -/
@[mk_iff] structure Valid (source : Totals) : Prop where
  version : h.version = 1
  nextBucketId : h.nextBucketId < 2 ^ 64 ∧ 0 < h.nextBucketId
  ackedBuckets : h.ackedBuckets < 2 ^ 128
  ackRejections : h.ackRejections < 2 ^ 128
  ackClockConflicts : h.ackClockConflicts < 2 ^ 128
  active : h.active.Valid
  ackedCounts : h.ackedCounts.Valid
  lastAck : ∀ r ∈ h.lastAck, r.Valid ∧ r.bucketId = h.ackedBuckets
  noAck : h.lastAck = none → h.ackedBuckets = 0
  published : ∀ p ∈ h.published, h.PublishedValid p
  ids : h.nextBucketId = h.ackedBuckets + h.published.isSome.toNat + 1
  conserved : h.ackedCounts + h.active.counts + h.publishedCounts = h.withAcks source

instance (source : Totals) : Decidable (h.Valid source) :=
  decidable_of_iff _ (valid_iff h source).symm

end
end Handoff
end SmartHome.Mqtt
