/-
  The snapshot of the collector: its text, whose diagnostics are cut to a budget, and the start
  from it.
-/
import SmartHome.HaNotices.Collector

namespace SmartHome.HaNotices

open Verif Mqtt

/-! ## Rows -/

/-- What a row of a snapshot says of the content of its notice. -/
inductive Content where
  | shown (diagnostics : Json)
  | budgetExhausted | notYetObserved
  deriving DecidableEq

def Content.member : Content → String × Json
  | shown diagnostics => ("diagnostics", diagnostics)
  | budgetExhausted => ("diagnostic_content_state", .str "budget_exhausted")
  | notYetObserved => ("diagnostic_content_state", .str "not_yet_observed")

/-- A notice without its diagnostics. -/
def Notice.members (n : Notice) : List (String × Json) :=
  [("id", .str n.id.1), ("source", .str "homeassistant.persistent_notification"),
    ("observed_at", n.observedAt.json), ("created_or_updated_at", optStampJson n.createdOrUpdatedAt),
    ("origin", .str "not_provided_by_HA"), ("category", .str n.label.category),
    ("summary", .str n.label.summary), ("category_basis", .str n.basis.name),
    ("content_withheld", .bool true), ("destination_delivery", .str "not_applicable"),
    ("collection_error", .null), ("revision", .str n.revision.1)]

structure Row where
  notice : Notice
  content : Content
  deriving DecidableEq

def Row.json (row : Row) : Json := .obj (row.notice.members ++ [row.content.member])

/-- The row of a notice before its diagnostics are added. -/
def Notice.bareRow (n : Notice) : Row :=
  ⟨n, if n.diagnostics.isSome then .budgetExhausted else .notYetObserved⟩

/-- The notice that a row is read as. -/
def Row.read (row : Row) : Notice :=
  { row.notice with
    diagnostics := match row.content with
      | .shown diagnostics => some diagnostics
      | _ => none }

/-! ## Texts -/

def Timing.members (t : Timing) : List (String × Json) :=
  [("schema_version", .int 1), ("frame_kind", .str t.frame.name),
    ("source_occurred_at", optStampJson t.sourceOccurredAt), ("collector_received_at", t.collectorReceivedAt.json),
    ("collector_observed_at", t.collectorObservedAt.json)]

def Event.members (e : Event) : List (String × Json) :=
  [("object_id", .str e.objectId.1), ("revision", .str e.revision.1), ("phase", .str e.phase.name),
    ("id", .str e.id.1), ("sequence", .int e.sequence), ("observed_at", e.observedAt.json),
    ("source", .str "ha_persistent_notification"), ("topic", .str "ha_notification"),
    ("recovery_proven", .bool false), ("source_timing", .obj e.timing.members)]

def Event.json (e : Event) : Json := .obj e.members

/-- What a snapshot says. -/
structure Snapshot where
  observedAt : Stamp
  collectionError : Option CollectionError
  connected : Bool
  lastPong : Option Stamp
  lastEvent : Option Stamp
  latencyMs : Option ℤ
  rows : List Row
  events : List Event
  sequence : ℕ
  dropped : ℕ
  omissions : ℕ
  deriving DecidableEq

def coverage : List String :=
  ["persistent_notifications_only", "no_raw_title_or_body", "not_phone_delivery",
    "removal_is_not_recovery", "processing_latency_not_end_to_end_latency",
    "sanitized_content_tokens_only_no_raw_title_or_body"]

def optSequence (e : Option Event) : Json := e.elim .null fun e => .int e.sequence

namespace Snapshot
variable (o : Snapshot)

/-- `event_retention` -/
def retention : List (String × Json) :=
  [("schema_version", .int 1), ("kind", .str "rolling_source_cache"), ("capacity", .int maxEvents),
    ("evicted_records", .int o.dropped), ("retained_records", .int o.events.length),
    ("first_sequence", optSequence o.events.head?), ("last_sequence", optSequence o.events.getLast?),
    ("counter_semantics", .str "cache_evictions_not_confirmed_delivery_loss")]

/-- The members before the notices. -/
def head : List (String × Json) :=
  [("schema_version", .int 1), ("source_timing_schema_version", .int 1),
    ("source", .str "HA WebSocket persistent_notification/subscribe"), ("observed_at", o.observedAt.json),
    ("collection_error", o.collectionError.elim .null fun e => .str e.name),
    ("connection_state", .str (if o.connected then "subscribed" else "unknown")),
    ("last_transport_confirmation_at", optStampJson o.lastPong),
    ("last_source_event_received_at", optStampJson o.lastEvent),
    ("last_processing_latency_ms", o.latencyMs.elim .null .int), ("coverage", .arr (coverage.map .str))]

/-- The members after the notices. -/
def tail : List (String × Json) :=
  [("events", .arr (o.events.map Event.json)), ("sequence", .int o.sequence), ("dropped", .int o.dropped),
    ("event_retention", .obj o.retention), ("diagnostic_content_enabled", .bool true)]

def json : Json :=
  .obj (o.head ++ [("notifications", .arr (o.rows.map Row.json))] ++ o.tail ++
    [("content_budget_omissions", .int o.omissions)])

/-- The bytes of the text with its newline. -/
def size : ℕ := o.json.bytes + 1

end Snapshot

/-! ## The budget -/

/-- The largest snapshot that is published. -/
def snapshotLimit : ℕ := 524288

/-- The bytes that stay free beside the diagnostics. -/
def reserve : ℕ := 4096

/-- The rows of notices, with the diagnostics that fit the remaining bytes, and the number of the others. -/
def fill : ℤ → List Notice → List Row × ℕ
  | _, [] => ([], 0)
  | remaining, n :: ns =>
    match n.diagnostics with
    | none => (n.bareRow :: (fill remaining ns).1, (fill remaining ns).2)
    | some diagnostics =>
      let full : Row := ⟨n, .shown diagnostics⟩
      let extra : ℤ := full.json.bytes - n.bareRow.json.bytes
      if extra ≤ remaining then (full :: (fill (remaining - extra) ns).1, (fill (remaining - extra) ns).2)
      else (n.bareRow :: (fill remaining ns).1, (fill remaining ns).2 + 1)

namespace NotificationState
variable (s : NotificationState)

/-- The notices by id. -/
def sorted : List Notice := s.current.mergeSort fun a b => decide (a.id.1 ≤ b.id.1)

/-- The snapshot without diagnostics. -/
def bareSnapshot (now : Time) : Snapshot where
  observedAt := now.toISOString
  collectionError := s.error
  connected := s.connected
  lastPong := s.lastPong.map Time.toISOString
  lastEvent := s.lastEvent.map Time.toISOString
  latencyMs := s.latencyMs
  rows := s.sorted.map Notice.bareRow
  events := s.events
  sequence := s.sequence
  dropped := s.dropped
  omissions := 0

/-- `snapshot` -/
def snapshot (now : Time) : Snapshot :=
  let remaining : ℤ := snapshotLimit - reserve - (s.bareSnapshot now).json.bytes
  { s.bareSnapshot now with
    rows := (fill remaining s.sorted).1
    omissions := (fill remaining s.sorted).2 }

variable [Sha256]

/-- The start from a saved snapshot; nothing if it is refused. -/
def restore (saved : Snapshot) : Option NotificationState := do
  guard (saved.rows.length ≤ maxNotices ∧ saved.events.length ≤ maxEvents ∧ saved.sequence < unsafeInteger)
  guard (∀ row ∈ saved.rows, row.read.revision = row.read.revisionOf)
  return { initial with
    current := (saved.rows.map Row.read).foldl (fun ns n => upsert (fun n : Notice => n.id) n ns) []
    events := saved.events
    sequence := saved.sequence
    dropped := saved.dropped
    initialized := true }

end NotificationState
end SmartHome.HaNotices
