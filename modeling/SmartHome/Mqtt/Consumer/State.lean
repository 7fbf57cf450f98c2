/-
  The consumer's accounting (`consumer_state.mjs`): the durable state, what makes it valid,
  and the transition that a report causes.
-/
import SmartHome.Mqtt.Consumer.Checkpoint
import SmartHome.Mqtt.Protocol

namespace SmartHome.Mqtt.Consumer

open Verif

/-! ## States -/

/-- The delays of one kind over all receipts so far. -/
structure TimingRow where
  observed : ℕ
  timed : ℕ
  timingUnknown : ℕ
  maxUpperNs : Option ℕ
  deriving DecidableEq

/-- Add the facts of a receipt. -/
def TimingRow.add (row : TimingRow) (f : KindFacts) : TimingRow :=
  ⟨row.observed + f.observed, row.timed + f.timed, row.timingUnknown + f.timingUnknown,
    Row.maxOpt row.maxUpperNs f.sourceToConsumerUpperNs⟩

/-- The durable state.  A state of version 2 is one with a checkpoint of the canvas. -/
structure ConsumerState where
  lastPacket : ℕ
  lastPacketSha : Option (Hex 64)
  lastReceipt : ℕ
  lastReceiptSha : Option (Hex 64)
  pending : Option Packet
  receivedCounts : Totals
  ackedCounts : Totals
  reportClockDomainId : Option (Hex 64)
  clockDomainChanges : ℕ
  timing : Kind → TimingRow
  canvasCheckpoint : Option Checkpoint
  deriving DecidableEq

/-- `initialState` -/
def initialState : ConsumerState :=
  ⟨0, none, 0, none, none, 0, 0, none, 0, fun _ => ⟨0, 0, 0, none⟩, none⟩

section
variable [Sha256]

/-- The digest of a receipt. -/
def receiptDigest (r : Receipt) : Hex 64 := digest (r.json num)

namespace ConsumerState
variable (s : ConsumerState)

/-- The envelope that `validateState` rebuilds around the pending packet. -/
def pendingEnvelope (p : Packet) (domain : Hex 64) : Envelope :=
  ⟨some p, p.body.previousAck, s.lastReceipt, s.ackedCounts, domain⟩

/-- What `validateState` requires of a pending packet. -/
@[mk_iff] structure PendingValid (p : Packet) : Prop where
  sent : s.lastPacket = s.lastReceipt + 1
  id : p.body.bucketId = s.lastPacket
  sha256 : some p.sha256 = s.lastPacketSha
  previous : if s.lastReceipt = 0 then p.body.previousAck = none
    else ∃ r ∈ p.body.previousAck, some (receiptDigest r) = s.lastReceiptSha
  envelope : ∃ domain ∈ s.reportClockDomainId,
    (decodeEnvelope (s.pendingEnvelope p domain).text).isSome
  received : sumCounts s.ackedCounts p.body.aggregate.counts = some s.receivedCounts

instance (p : Packet) : Decidable (s.PendingValid p) := decidable_of_iff _ (pendingValid_iff s p).symm

/-- `validateState` -/
@[mk_iff] structure Valid : Prop where
  checkpoint : ∀ c ∈ s.canvasCheckpoint, c.Valid ∧ c.receiptId ≤ s.lastReceipt
  ids : s.lastReceipt ≤ s.lastPacket ∧ s.lastPacket ≤ s.lastReceipt + 1
  width : s.lastPacket < 2 ^ 64 ∧ s.lastReceipt < 2 ^ 64
  packetSha : s.lastPacketSha = none ↔ s.lastPacket = 0
  receiptSha : s.lastReceiptSha = none ↔ s.lastReceipt = 0
  changes : s.clockDomainChanges < 2 ^ 128
  acked : s.ackedCounts.Valid
  received : s.receivedCounts.Valid
  pending : ∀ p ∈ s.pending, s.PendingValid p
  settled : s.pending = none → s.lastPacket = s.lastReceipt ∧ s.receivedCounts = s.ackedCounts
  timing : ∀ k, (s.timing k).observed = (s.timing k).timed + (s.timing k).timingUnknown ∧
    (s.timing k).observed = s.ackedCounts (.stat k .observed) ∧
    (s.timing k).timed ≤ s.ackedCounts (.stat k .timed) ∧
    if 0 < (s.timing k).timed then ∃ v ∈ (s.timing k).maxUpperNs, v < 2 ^ 64
    else (s.timing k).maxUpperNs = none

instance : Decidable s.Valid := decidable_of_iff _ (valid_iff s).symm

/-! ## The transition -/

/-- Note the clock domain of a report. -/
def noteClock (domain : Hex 64) : ConsumerState :=
  { s with
    clockDomainChanges :=
      if s.reportClockDomainId.isSome ∧ s.reportClockDomainId ≠ some domain
      then s.clockDomainChanges + 1 else s.clockDomainChanges
    reportClockDomainId := some domain }

/-- The state after the receipt of its pending packet. -/
def settle (p : Packet) (r : Receipt) (f : Facts) : ConsumerState :=
  { s with
    ackedCounts := s.ackedCounts + p.body.aggregate.counts
    lastReceipt := r.bucketId
    lastReceiptSha := some (receiptDigest r)
    timing := fun k => (s.timing k).add (f.byKind k)
    pending := none }

/-- The part of `transition` about the last receipt of a report. -/
def takeReceipt : Option Receipt → Except String (ConsumerState × List Facts)
  | none => do
    need (s.lastReceipt = 0) "producer_counter_reversed"
    return (s, [])
  | some r => do
    need (s.lastReceipt ≤ r.bucketId) "producer_counter_reversed"
    if s.lastReceipt < r.bucketId then
      let p ← orFail "uncorrelated_producer_receipt" s.pending
      need (r.bucketId = s.lastReceipt + 1 ∧ r.bucketId = p.body.bucketId)
        "uncorrelated_producer_receipt"
      let facts ← orFail "producer_receipt_invalid" (receiptFacts p r)
      let _ ← orFail "metadata_protocol_invalid" (sumCounts s.ackedCounts p.body.aggregate.counts)
      return (s.settle p r facts, [facts])
    else
      need (s.lastReceiptSha = some (receiptDigest r)) "producer_receipt_conflict"
      return (s, [])

/-- The state after a new packet. -/
def count (p : Packet) : ConsumerState :=
  { s with
    receivedCounts := s.receivedCounts + p.body.aggregate.counts
    lastPacket := p.body.bucketId
    lastPacketSha := some p.sha256
    pending := some p }

/-- The part of `transition` about the packet of a report. -/
def takePacket : Option Packet → Except String ConsumerState
  | none => do
    need (s.pending = none) "producer_packet_missing"
    return s
  | some p => do
    need (s.lastPacket ≤ p.body.bucketId) "producer_counter_reversed"
    if s.lastPacket < p.body.bucketId then
      need (s.pending = none ∧ p.body.bucketId = s.lastPacket + 1) "uncorrelated_producer_packet"
      let _ ← orFail "metadata_protocol_invalid" (sumCounts s.receivedCounts p.body.aggregate.counts)
      return s.count p
    else
      need (∃ q ∈ s.pending, p.sha256 = q.sha256) "producer_packet_conflict"
      return s

end ConsumerState

/-- `ackFor` -/
def ackFor (p : Packet) : Ack := ⟨p.body.bucketId, p.sha256⟩

/-- What `transition` returns. -/
structure Outcome where
  state : ConsumerState
  ack : Option Ack
  changed : Bool
  receiptFacts : List Facts
  deriving DecidableEq

/-- The checks of the previous state. -/
def checkPrevious (e : Envelope) : Option ConsumerState → Except String Unit
  | none => need (e.ackedBuckets = 0) "consumer_history_missing"
  | some s => need s.Valid "consumer_state_invalid"

/-- `transition` -/
def transition (previous : Option ConsumerState) (raw : List Char) : Except String Outcome := do
  let e ← orFail "producer_report_invalid" (decodeEnvelope raw)
  checkPrevious e previous
  let s := (previous.getD initialState).noteClock e.sourceClockDomainId
  let (s, facts) ← s.takeReceipt e.lastAck
  need (e.ackedBuckets = s.lastReceipt ∧ e.ackedCounts = s.ackedCounts)
    "producer_accounting_conflict"
  let s ← s.takePacket e.packet
  need s.Valid "consumer_state_invalid"
  return ⟨s, s.pending.map ackFor, previous ≠ some s, facts⟩

end
end SmartHome.Mqtt.Consumer
