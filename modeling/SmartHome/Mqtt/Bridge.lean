/-
  The file bridge (`file_bridge.py`): the producer's process between its ledger and two files,
  `report.json` that it writes and `ack.json` that it reads, and the whole system of producer
  and consumer.

  `publish` makes two durable writes, the row of the ledger and then the report.  Between them
  the text to write is a draft of the process; a crash or a failure forgets it.
-/
import SmartHome.Lib.Machine
import SmartHome.Lib.Writes
import SmartHome.Mqtt.Consumer.Store
import SmartHome.Mqtt.Ledger

namespace SmartHome.Mqtt

open Verif

/-- The envelope that `publish` writes around a packet. -/
def Body.envelope (b : Body) (packet : Option Packet) : Consumer.Envelope :=
  ⟨packet, b.handoff.lastAck, b.handoff.ackedBuckets, b.handoff.ackedCounts, b.clockDomainId⟩

/-- `ACK_LIMIT` -/
def ackLimit : ℕ := 4096

/-- The value that `poll_ack` takes from `ack.json`: an empty object unless the text is
    canonical ASCII. -/
def readAck (raw : List Char) : Json :=
  if raw.length ≤ ackLimit ∧ Json.Ascii raw then
    match Json.parse raw with
    | some value => if value.uniqueKeys = true ∧ value.canonical = raw then value else .obj []
    | none => .obj []
  else .obj []

/-! ## The producer -/

/-- The producer's process: the open ledger, the identity of the acknowledgement it polled last,
    and the report it is about to write. -/
structure Producer where
  ledger : Ledger
  ackSeen : Option ℕ
  draft : Option (List Char)

inductive PollStatus where
  | absent | unchanged
  | acknowledged (status : AckStatus)
  deriving DecidableEq, Repr

/-- What the producer does, the replacement of the report apart. -/
inductive ProducerOp where
  | frame (packet : Bytes) (arrivedNs : ℕ) (verified : Bool)
  | recordFault (kind : Fault) (arrivedNs : ℕ)
  | publish (atNs : ℕ)
  | pollAck (atNs : ℕ)
  | reopen (domain : Hex 64) (startedNs : ℕ)

section
variable [Sha256]

namespace Producer
variable (p : Producer)

/-- The first part of `publish`: the packet is frozen and the report is drafted. -/
def publish (atNs : ℕ) (sql : Sql) : Producer × Except String Unit :=
  match p.ledger.publish atNs sql with
  | (l, .error reason) => ({ p with ledger := l, draft := none }, .error reason)
  | (l, .ok packet) =>
    match l.body with
    | none => ({ p with ledger := l, draft := none }, .error "ledger_not_readable")
    | some b =>
      if (b.envelope packet).text.length ≤ Consumer.reportLimit then
        ({ p with ledger := l, draft := some (b.envelope packet).text }, .ok ())
      else ({ p with ledger := l, draft := none }, .error "report_capacity_reached")

/-- `poll_ack`, on the identity and the text of `ack.json`. -/
def pollAck (ack : Option (ℕ × List Char)) (atNs : ℕ) (sql : Sql) :
    Producer × Except String PollStatus :=
  let p := { p with draft := none }
  match ack with
  | none => (p, .ok .absent)
  | some (identity, raw) =>
    if p.ackSeen = some identity then (p, .ok .unchanged) else
    match p.ledger.acknowledge (readAck raw) atNs sql with
    | (l, .error reason) => ({ p with ledger := l }, .error reason)
    | (l, .ok status) => ({ p with ledger := l, ackSeen := some identity }, .ok (.acknowledged status))

/-- One operation.  Any other than `publish` drops a draft: its process has failed, or been
    started again. -/
def step (ack : Option (ℕ × List Char)) (sql : Sql) : ProducerOp → Producer
  | .frame packet arrivedNs verified =>
    { p with ledger := (p.ledger.frame packet arrivedNs verified sql).1, draft := none }
  | .recordFault kind arrivedNs =>
    { p with ledger := (p.ledger.recordFault kind arrivedNs sql).1, draft := none }
  | .publish atNs => (p.publish atNs sql).1
  | .pollAck atNs => (p.pollAck ack atNs sql).1
  | .reopen domain startedNs => ⟨(p.ledger.reopen domain startedNs sql).1, none, none⟩

end Producer

/-! ## The system -/

/-- Producer, consumer and the files between them.  The last two fields are for the statements
    only: the packets that were frozen and the receipts that were recorded, oldest first. -/
structure System where
  producer : Producer
  report : Option (List Char)
  files : Consumer.Files
  ackIdentity : ℕ
  packets : List Packet
  receipts : List Receipt

/-- The packet that a new row has frozen. -/
def frozen (old new : Option Body) : List Packet :=
  if (old.elim 1 fun b => b.handoff.nextBucketId) < new.elim 1 fun b => b.handoff.nextBucketId
  then (new.bind fun b => b.handoff.published).toList else []

/-- The receipt that a new row has recorded. -/
def settled (old new : Option Body) : List Receipt :=
  if (old.elim 0 fun b => b.handoff.ackedBuckets) < new.elim 0 fun b => b.handoff.ackedBuckets
  then (new.bind fun b => b.handoff.lastAck).toList else []

namespace System
variable (s : System)

/-- `ack.json` as the producer finds it. -/
def ackFile : Option (ℕ × List Char) :=
  s.files.ack.map fun a => (s.ackIdentity, a.json.canonical)

/-- The system after the producer's process has changed. -/
def withProducer (p : Producer) : System :=
  { s with
    producer := p
    packets := s.packets ++ frozen s.producer.ledger.row p.ledger.row
    receipts := s.receipts ++ settled s.producer.ledger.row p.ledger.row }

/-- One step of either side.  Only the two writes of `publish` and those of the consumer are
    steps of their own; everything else that happens between two durable writes of a process
    touches nothing that the other side reads.  An operation of the consumer is cut anywhere;
    its `prepare` reads the report that is there. -/
inductive Step : System → Prop
  | producer (sql : Sql) (op : ProducerOp) :
    Step (s.withProducer (s.producer.step s.ackFile sql op))
  | replaceReport (raw : List Char) : s.producer.draft = some raw →
    Step { s with report := some raw, producer := { s.producer with draft := none } }
  | consumer (op : Consumer.StoreOp) (files : Consumer.Files) (identity : ℕ) :
    (∀ report, op = .prepare report → report = s.report) →
    Interrupted Consumer.Files.write (s.files.writes op) s.files files →
    (files.ack = s.files.ack → identity = s.ackIdentity) →
    Step { s with files := files, ackIdentity := identity }

end System

/-- The runs of both sides from a created ledger and an empty consumer. -/
def handoffMachine : Machine System where
  start s := ∃ domain startedNs startSession first second identity,
    let l := (Ledger.create domain startedNs startSession first second).1
    l.row.isSome ∧ s = ⟨⟨l, none, none⟩, none, Consumer.Files.empty, identity, [], []⟩
  step s s' := s.Step s'

end
end SmartHome.Mqtt
