/-
  The consumer's reading of a report (`consumer_protocol.mjs`): the shape of an envelope, its
  digests, and the facts that a receipt of the producer establishes about a counted packet.

  All failures of the source are one exception, here `none`.
-/
import SmartHome.Mqtt.Handoff

namespace SmartHome.Mqtt.Consumer

open Verif

/-! ## Values -/

/-- `uint`: a decimal text below `2 ^ bits`. -/
def uint (bits : ℕ) : Json → Option ℕ
  | .str s => (decimal? 38 s).filter (· < 2 ^ bits)
  | _ => none

/-- `closed`: the members of an object with exactly the given keys. -/
def closed (keys : List String) (j : Json) : Option (String → Json) :=
  if ∃ ks ∈ j.keys, ks.Perm keys then some fun k => (j.get? k).getD .null else none

def boolean : Json → Option Bool
  | .bool b => some b
  | _ => none

/-- A value that must be null unless a condition holds. -/
def onlyIf {α : Type} (p : Prop) [Decidable p] (f : Json → Option α) (j : Json) :
    Option (Option α) :=
  if p then (f j).map some else if j = .null then some none else none

/-- `timestamp` -/
def timestamp (j : Json) : Option (Option ℕ) := onlyIf (j ≠ .null) (uint 64) j

def kindTable {α : Type} (f : Json → Option α) (j : Json) : Option (Kind → α) := do
  let m ← closed (kinds.map Kind.name) j
  collect fun k : Kind => f (m k.name)

def columnTable (j : Json) : Option (Column → ℕ) := do
  let m ← closed (columns.map Column.name) j
  collect fun c : Column => uint 128 (m c.name)

def faultTable (j : Json) : Option (Fault → ℕ) := do
  let m ← closed (faults.map Fault.name) j
  collect fun f : Fault => uint 128 (m f.name)

/-! ## Records -/

/-- A table of totals with the given parts. -/
def totalsOf (header : Header → ℕ) (fault : Fault → ℕ) (stat : Kind → Column → ℕ) : Totals
  | .header x => header x
  | .fault f => fault f
  | .stat k c => stat k c

/-- `counts` -/
def counts (j : Json) : Option Totals := do
  let m ← closed (headers.map Header.name ++ ["faults", "stats"]) j
  let header ← collect fun x : Header => uint 128 (m x.name)
  let fault ← faultTable (m "faults")
  let stat ← kindTable columnTable (m "stats")
  guard (totalsOf header fault stat).Balanced
  return totalsOf header fault stat

/-- `aggregate` -/
def aggregate (j : Json) : Option Bucket := do
  let m ← closed ["clock_domain_id", "clock_domain_conflict", "first_reader_ns", "last_reader_ns",
    "counts", "oldest_source_ns", "max_socket_ns"] j
  let conflict ← boolean (m "clock_domain_conflict")
  let domain ← onlyIf (conflict = false) (hex? 64) (m "clock_domain_id")
  let counts ← counts (m "counts")
  guard (counts ≠ 0)
  let first ← uint 64 (m "first_reader_ns")
  let last ← uint 64 (m "last_reader_ns")
  guard (conflict = false → first ≤ last)
  let oldest ← kindTable timestamp (m "oldest_source_ns")
  guard (∀ k, (oldest k).isSome ↔ 0 < counts (.stat k .timed))
  let longest ← kindTable timestamp (m "max_socket_ns")
  guard (∀ k, (longest k).isSome ↔ 0 < counts (.stat k .timed))
  guard (conflict = false → ∀ k, ∀ v ∈ oldest k, v ≤ last)
  return ⟨domain, conflict, some first, some last, counts, oldest, longest⟩

/-- One row of `receipt`. -/
def ackRow (ordered : Bool) (j : Json) : Option AckRow := do
  let m ← closed ["observed", "timed", "timing_unknown", "upper_ns"] j
  let observed ← uint 128 (m "observed")
  let timed ← uint 128 (m "timed")
  let unknown ← uint 128 (m "timing_unknown")
  guard (observed = timed + unknown)
  guard (0 < timed → ordered = true)
  let upper ← onlyIf (0 < timed) (uint 64) (m "upper_ns")
  return ⟨observed, timed, unknown, upper⟩

/-- `receipt` -/
def receipt (j : Json) : Option Receipt := do
  let m ← closed ["bucket_id", "sha256", "ack_at_ns", "ack_clock_domain_id",
    "publication_to_ack_ns", "clock_ordered", "source_to_ack"] j
  let id ← uint 64 (m "bucket_id")
  guard (0 < id)
  let sha ← hex? 64 (m "sha256")
  let atNs ← uint 64 (m "ack_at_ns")
  let domain ← hex? 64 (m "ack_clock_domain_id")
  let ordered ← boolean (m "clock_ordered")
  let publication ← onlyIf (ordered = true) (uint 64) (m "publication_to_ack_ns")
  let rows ← kindTable (ackRow ordered) (m "source_to_ack")
  return ⟨id, sha, atNs, domain, publication, ordered, rows⟩

section
variable [Sha256]

/-- `packet`, with the last receipt of the report. -/
def packet (j lastJson : Json) (last : Option Receipt) (acked : ℕ) : Option Packet := do
  let m ← closed ["schema_version", "body", "sha256"] j
  guard (m "schema_version" = .int 1)
  let sha ← hex? 64 (m "sha256")
  guard (digest (m "body") = sha)
  let b ← closed ["bucket_id", "aggregate", "published_at_ns", "publisher_clock_domain_id",
    "previous_ack"] (m "body")
  let id ← uint 64 (b "bucket_id")
  guard (id = acked + 1)
  let atNs ← uint 64 (b "published_at_ns")
  let domain ← hex? 64 (b "publisher_clock_domain_id")
  guard ((b "previous_ack").canonical = lastJson.canonical)
  let bucket ← aggregate (b "aggregate")
  return ⟨⟨id, bucket, atNs, domain, last⟩, sha⟩

/-! ## Envelopes -/

/-- A report of the producer. -/
structure Envelope where
  packet : Option Packet
  lastAck : Option Receipt
  ackedBuckets : ℕ
  ackedCounts : Totals
  sourceClockDomainId : Hex 64
  deriving DecidableEq

/-- `report_limit` -/
def reportLimit : ℕ := 65536

/-- The receipt of a report and the number of acknowledged buckets. -/
def lastReceipt (acked : ℕ) (j : Json) : Option (Option Receipt) := do
  let last ← onlyIf (j ≠ .null) receipt j
  guard ((last = none → acked = 0) ∧ ∀ r ∈ last, r.bucketId = acked)
  return last

/-- The members of an envelope body. -/
def envelopeBody (j : Json) : Option Envelope := do
  let b ← closed ["packet", "last_ack", "acked_buckets", "acked_counts", "source_clock_domain_id"] j
  let domain ← hex? 64 (b "source_clock_domain_id")
  let ackedCounts ← counts (b "acked_counts")
  let acked ← uint 64 (b "acked_buckets")
  let last ← lastReceipt acked (b "last_ack")
  let pkt ← onlyIf (b "packet" ≠ .null) (packet · (b "last_ack") last acked) (b "packet")
  return ⟨pkt, last, acked, ackedCounts, domain⟩

/-- The envelope that a parsed value holds. -/
def envelopeValue (j : Json) : Option Envelope := do
  let m ← closed ["schema_version", "body", "sha256"] j
  guard (m "schema_version" = .int 1)
  let sha ← hex? 64 (m "sha256")
  guard (digest (m "body") = sha)
  envelopeBody (m "body")

/-- `decodeEnvelope` -/
def decodeEnvelope (raw : List Char) : Option Envelope := do
  guard (raw.length ≤ reportLimit ∧ raw.all fun c => c.toNat < 128)
  let value ← Json.parse raw
  guard (value.canonical = raw)
  envelopeValue value

/-! ## Texts -/

/-- A packet as it is sent. -/
def packetJson (p : Packet) : Json :=
  .obj [("body", p.body.json num), ("schema_version", .int 1), ("sha256", hexJson p.sha256)]

namespace Envelope

def bodyJson (e : Envelope) : Json :=
  .obj [("acked_buckets", num e.ackedBuckets), ("acked_counts", e.ackedCounts.json num),
    ("last_ack", optReceiptJson num e.lastAck), ("packet", e.packet.elim .null packetJson),
    ("source_clock_domain_id", hexJson e.sourceClockDomainId)]

def json (e : Envelope) : Json :=
  .obj [("body", e.bodyJson), ("schema_version", .int 1), ("sha256", hexJson (digest e.bodyJson))]

/-- The text of a report. -/
def text (e : Envelope) : List Char := e.json.canonical

end Envelope
end

/-! ## Receipt facts -/

/-- `sumCounts` -/
def sumCounts (a b : Totals) : Option Totals :=
  if a.Valid ∧ b.Valid ∧ (a + b).Valid then some (a + b) else none

/-- The facts of one kind. -/
structure KindFacts where
  observed : ℕ
  timed : ℕ
  timingUnknown : ℕ
  sourceToConsumerUpperNs : Option ℕ
  deriving DecidableEq

/-- Nanoseconds as milliseconds, rounded up. -/
def KindFacts.sourceToConsumerUpperMs (f : KindFacts) : Option ℕ :=
  f.sourceToConsumerUpperNs.map fun n => (n + 999999) / 1000000

/-- What a receipt establishes about a counted packet. -/
structure Facts where
  bucketId : ℕ
  clockOrdered : Bool
  byKind : Kind → KindFacts
  ackAtNs : ℕ
  clockDomainSha256 : Hex 64
  deriving DecidableEq

section
variable (p : Packet) (r : Receipt)

/-- `ordered`: one clock covers the packet and its receipt. -/
def Ordered : Prop :=
  r.ackClockDomainId = p.body.publisherClockDomainId ∧
    some r.ackClockDomainId = p.body.aggregate.clockDomainId ∧
    p.body.aggregate.clockDomainConflict = false ∧ p.body.publishedAtNs ≤ r.ackAtNs ∧
    ∃ l ∈ p.body.aggregate.lastReaderNs, l ≤ p.body.publishedAtNs

instance : Decidable (Ordered p r) := by unfold Ordered; infer_instance

/-- The facts of one kind: how many events have a bounded delay, and the bound. -/
def kindFacts (k : Kind) : KindFacts :=
  let source := p.body.aggregate.counts
  let known := if Ordered p r ∧ (p.body.aggregate.oldestSourceNs k).isSome
    then source (.stat k .timed) else 0
  ⟨source (.stat k .observed), known, source (.stat k .observed) - known,
    if 0 < known then (p.body.aggregate.oldestSourceNs k).map (r.ackAtNs - ·) else none⟩

/-- `receiptFacts` -/
def receiptFacts : Option Facts := do
  guard r.Valid
  guard (r.bucketId = p.body.bucketId ∧ r.sha256 = p.sha256)
  guard (r.clockOrdered = decide (Ordered p r))
  guard (r.publicationToAckNs =
    if Ordered p r then some (r.ackAtNs - p.body.publishedAtNs) else none)
  guard (∀ k, r.sourceToAck k = ⟨(kindFacts p r k).observed, (kindFacts p r k).timed,
    (kindFacts p r k).timingUnknown, (kindFacts p r k).sourceToConsumerUpperNs⟩)
  -- a text of a negative difference is never the text of a counter
  guard (∀ k, 0 < (kindFacts p r k).timed → ∀ o ∈ p.body.aggregate.oldestSourceNs k, o ≤ r.ackAtNs)
  return ⟨p.body.bucketId, r.clockOrdered, kindFacts p r, r.ackAtNs, r.ackClockDomainId⟩

end
end SmartHome.Mqtt.Consumer
