/-
  The tables of the native event registry (`registry.py`) and the plan of a delivery
  (`delivery_summary.py`).

  The body of a row is kept as its data, not as its JSON text.  The tables of diagnostics and of
  transport times, which only report, are left out.
-/
import Mathlib.Algebra.Order.Ring.Rat
import SmartHome.Lib.Guard
import SmartHome.Lib.Json
import SmartHome.Lib.Table
import SmartHome.Mqtt.Counters

namespace SmartHome.NativeEvents

open Verif
open SmartHome.Mqtt (isHex)

/-! ## Events -/

/-- `TOPICS` -/
inductive Topic where
  | haNotification | taskTerminal
  deriving DecidableEq, Repr

/-- `SOURCES` -/
inductive Source where
  | haPersistentNotification | registeredTaskStatus
  deriving DecidableEq, Repr

inductive Phase where
  | added | updated | removed | terminal
  deriving DecidableEq, Repr

inductive TerminalState where
  | completed | failed | interrupted | notDispatched
  deriving DecidableEq, Repr

def Topic.name : Topic → String
  | haNotification => "ha_notification"
  | taskTerminal => "task_terminal"

def Source.name : Source → String
  | haPersistentNotification => "ha_persistent_notification"
  | registeredTaskStatus => "registered_task_status"

def Phase.name : Phase → String
  | added => "added"
  | updated => "updated"
  | removed => "removed"
  | terminal => "terminal"

/-- `EVENT_PAIRS`: the source of a topic. -/
def Topic.source : Topic → Source
  | haNotification => .haPersistentNotification
  | taskTerminal => .registeredTaskStatus

/-- `EVENT_PAIRS`: the phases of a topic. -/
def Topic.phases : Topic → List Phase
  | haNotification => [.added, .updated, .removed]
  | taskTerminal => [.terminal]

/-- The data of an event. -/
structure EventData where
  topic : Topic
  source : Source
  phase : Phase
  objectId : String
  revision : String
  operationId : Option String
  terminalState : Option TerminalState
  resultUpdatedAt : Option ℚ
  deriving DecidableEq, Repr

/-- A row of `events`. -/
structure Event where
  id : String
  topic : Topic
  data : EventData
  created : ℚ
  deriving DecidableEq, Repr

/-- `reason` in `event_archive`. -/
inductive Retirement where
  | coveredBySummary | eligibilityWindowElapsed
  deriving DecidableEq, Repr

/-- A row of `event_archive`. -/
structure Archived where
  event : Event
  retiredAt : ℚ
  reason : Retirement
  deriving DecidableEq, Repr

def Archived.id (a : Archived) : String := a.event.id

/-! ## Subscriptions -/

/-- A row of `subscriptions`. -/
structure Subscription where
  id : String
  owner : String
  topics : List Topic
  url : String
  secret : String
  oldSecret : Option String
  rotatedAt : ℚ
  expires : ℚ
  verified : ℚ
  started : ℚ
  active : Bool
  deriving DecidableEq, Repr

/-- `active=1 AND expires>?` -/
def Subscription.live (now : ℚ) (s : Subscription) : Bool := s.active && decide (now < s.expires)

/-- The conditions that Root arms for one attempt of a migration. -/
structure Grant where
  operationId : String
  principal : String
  predecessor : String
  oldUrlHash : String
  oldArgsHash : String
  targetArgsHash : String
  oldStarted : ℚ
  oldExpires : ℚ
  armedAt : ℚ
  expiresAt : ℚ
  deriving DecidableEq, Repr

/-- The candidate that a grant was used for. -/
structure Attempt where
  grant : Grant
  candidate : String
  candidateUrlHash : String
  startedAt : ℚ
  deriving DecidableEq, Repr

/-- `subscription_handover` in `meta`. -/
inductive Handover where
  | armed (g : Grant)
  | verificationIntent (a : Attempt)
  | verificationUnconfirmed (a : Attempt)
  | completed (a : Attempt) (at' : ℚ)
  /-- Any other text. -/
  | invalid
  deriving DecidableEq, Repr

/-- A row of `subscription_transition_markers`. -/
structure Marker where
  predecessor : String
  time : ℚ
  deriving DecidableEq, Repr

/-- A row of `subscription_lineage`. -/
structure Lineage where
  successor : String
  predecessor : String
  deriving DecidableEq, Repr

/-! ## Deliveries -/

/-- `state` in `dispatch`. -/
inductive DispatchState where
  | uncertain | webhookAccepted | deliveryRefused
  deriving DecidableEq, Repr

/-- A row of `dispatch`. -/
structure Dispatch where
  subscription : String
  event : String
  state : DispatchState
  time : ℚ
  deriving DecidableEq, Repr

/-- A row of `delivery_members`. -/
structure Member where
  subscription : String
  event : String
  batch : String
  deriving DecidableEq, Repr

/-- `delivery_kind` -/
inductive Kind where
  | notificationSummary | taskTerminalSummary
  deriving DecidableEq, Repr

def Kind.name : Kind → String
  | notificationSummary => "notification_summary_v1"
  | taskTerminalSummary => "task_terminal_summary_v1"

/-- `current_state` of a group of notifications. -/
inductive CurrentState where
  | unknown | current | removed
  deriving DecidableEq, Repr

/-- The changes of one object in a summary. -/
structure NotificationGroup where
  objectId : String
  currentState : CurrentState
  currentRevision : Option String
  latestKnownPhase : Option Phase
  historicalOrderAmbiguous : Bool
  firstChangeAt : ℚ
  lastChangeAt : ℚ
  changeCount : ℕ
  phaseCounts : List (Phase × ℕ)
  transitionPreview : List Phase
  transitionPreviewOmitted : ℕ
  revisionsCoalesced : ℕ
  deriving DecidableEq, Repr

/-- The terminal state of one task in a summary. -/
structure TerminalGroup where
  objectId : String
  revision : String
  operationId : Option String
  terminalState : Option TerminalState
  observedAt : ℚ
  deriving DecidableEq, Repr

/-- What a batch tells about its groups. -/
inductive Summary where
  | notifications (groups : List NotificationGroup) (sourceObservedAt : Option ℚ)
  | tasks (groups : List TerminalGroup)
  deriving DecidableEq, Repr

/-- The body of a batch. -/
structure Envelope where
  eventId : String
  timestamp : ℚ
  summary : Summary
  coveredEventRecords : ℕ
  remainingGroups : ℕ
  deriving DecidableEq, Repr

/-- A row of `delivery_batches`. -/
structure Batch where
  id : String
  subscription : String
  body : Envelope
  time : ℚ
  deriving DecidableEq, Repr

/-! ## Texts -/

/-- The parts of a callback URL. -/
structure Url where
  hostname : String
  path : String
  query : String
  deriving DecidableEq, Repr

/-- What the code computes from texts: the hash of a text, the length of a batch's text, the parts
    of a callback URL, and whether a signing key can be read. -/
class Texts where
  sha256 : String → String
  size : Envelope → ℕ
  callbackParts : String → Option Url
  keyBytes : String → Bool

export Texts (sha256 callbackParts keyBytes)

/-- `PROJECT` -/
def project : String := "/mnt/data/docker"

/-- `NAME` -/
def observationName : String := "smart_home.observation"

/-- `canonical` -/
def canonicalText (value : Json) : String := String.ofList value.canonical

/-- `args`, as a value. -/
def argsJson (topics : List Topic) : Json :=
  .obj [("project", .str project), ("topics", .arr (topics.map fun t => .str t.name))]

/-- The text that identifies an event. -/
def EventData.identityText (d : EventData) : String :=
  canonicalText (.obj [("project", .str project), ("topic", .str d.topic.name),
    ("source", .str d.source.name), ("phase", .str d.phase.name), ("object_id", .str d.objectId),
    ("revision", .str d.revision)])

/-- The text that identifies a subscription. -/
def subscriptionText (principal : String) (topics : List Topic) (url : String) : String :=
  canonicalText (.arr [.str principal, .str observationName, argsJson topics, .str url])

/-- The text that identifies a batch. -/
def batchText (kind : Kind) (subscription : String) (members : List String) : String :=
  canonicalText (.arr [.str kind.name, .str subscription, .arr (members.map .str)])

section
variable [Texts]

/-- The id of a subscription. -/
def subscriptionId (principal : String) (topics : List Topic) (url : String) : String :=
  sha256 (subscriptionText principal topics url)

/-- `eid` -/
def eventId (d : EventData) : String := sha256 d.identityText

/-- The identity of a batch. -/
def batchId (kind : Kind) (subscription : String) (members : List String) : String :=
  sha256 (batchText kind subscription members)

/-- `hashlib.sha256(canonical(args))` -/
def argsHash (topics : List Topic) : String := sha256 (canonicalText (argsJson topics))

/-- The object of a task's terminal event. -/
def terminalObject (operationId : String) : String :=
  sha256 ("task-terminal-operation-v1:" ++ operationId)

end

/-- `filters`: the topics in their order. -/
def filters (topics : List Topic) : Except String (List Topic) := do
  need (1 ≤ topics.length ∧ topics.length ≤ 2 ∧ topics.Nodup) "scope_refused"
  return [Topic.haNotification, .taskTerminal].filter fun t => t ∈ topics

/-! ## The database -/

structure Db where
  subscriptions : List Subscription
  events : List Event
  archive : List Archived
  dispatch : List Dispatch
  lineage : List Lineage
  markers : List Marker
  batches : List Batch
  members : List Member
  /-- `clock` in `meta` -/
  clock : Option ℚ
  handover : Option Handover

/-- The database after the tables are made. -/
def Db.empty : Db := ⟨[], [], [], [], [], [], [], [], none, none⟩

namespace Db
variable (db : Db)

def subscription? (id : String) : Option Subscription := lookup Subscription.id id db.subscriptions

def marker? (id : String) : Option Marker := lookup Marker.predecessor id db.markers

/-- The data of an event, also when it was archived. -/
def data? (id : String) : Option EventData :=
  ((lookup Event.id id db.events) <|> (lookup Archived.id id db.archive).map Archived.event).map
    Event.data

/-- The ids of the events that are kept. -/
def eventIds : List String := db.events.map Event.id ++ db.archive.map Archived.id

/-- `SELECT * FROM subscriptions WHERE active=1 AND expires>? AND id!=?` -/
def othersLive (now : ℚ) (id : String) : List Subscription :=
  db.subscriptions.filter fun s => s.live now && decide (s.id ≠ id)

/-- A subscription's event has an intent, by itself or as a member of a batch. -/
def covered (subscription event : String) : Prop :=
  (∃ d ∈ db.dispatch, d.subscription = subscription ∧ d.event = event) ∨
    ∃ m ∈ db.members, m.subscription = subscription ∧ m.event = event

instance (subscription event : String) : Decidable (db.covered subscription event) := by
  unfold covered; infer_instance

/-- The event may be delivered for a subscription with these topics. -/
def eligible (now : ℚ) (s : Subscription) (topics : List Topic) (e : Event) : Prop :=
  max (now - 86400) s.started ≤ e.created ∧ e.topic ∈ topics ∧ ¬ db.covered s.id e.id ∧
    ∀ l ∈ db.lineage, l.successor = s.id → ¬ db.covered l.predecessor e.id

instance (now : ℚ) (s : Subscription) (topics : List Topic) (e : Event) :
    Decidable (db.eligible now s topics e) := by unfold eligible; infer_instance

/-- `INSERT INTO events` -/
def insertEvent (e : Event) : Except String Db := do
  need (∀ e' ∈ db.events, e'.id ≠ e.id) "unique_constraint_failed"
  return { db with events := db.events ++ [e] }

/-- `INSERT INTO subscriptions` -/
def insertSubscription (s : Subscription) : Except String Db := do
  need (∀ s' ∈ db.subscriptions, s'.id ≠ s.id) "unique_constraint_failed"
  return { db with subscriptions := db.subscriptions ++ [s] }

/-- `INSERT OR REPLACE INTO subscriptions` -/
def putSubscription (s : Subscription) : Db :=
  { db with subscriptions := put Subscription.id s db.subscriptions }

/-- `UPDATE subscriptions SET ... WHERE id=?` -/
def updateSubscription (id : String) (change : Subscription → Subscription) : Db :=
  { db with subscriptions := amend Subscription.id id change db.subscriptions }

/-- `INSERT INTO subscription_lineage` -/
def insertLineage (l : Lineage) : Except String Db := do
  need (∀ l' ∈ db.lineage, l'.successor ≠ l.successor ∧ l'.predecessor ≠ l.predecessor)
    "unique_constraint_failed"
  return { db with lineage := db.lineage ++ [l] }

/-- `INSERT INTO delivery_batches` -/
def insertBatch (b : Batch) : Except String Db := do
  need (∀ b' ∈ db.batches, b'.id ≠ b.id) "unique_constraint_failed"
  return { db with batches := db.batches ++ [b] }

/-- `INSERT INTO delivery_members` -/
def insertMember (m : Member) : Except String Db := do
  need (∀ m' ∈ db.members, ¬ (m'.subscription = m.subscription ∧ m'.event = m.event))
    "unique_constraint_failed"
  return { db with members := db.members ++ [m] }

/-- `INSERT INTO delivery_members`, one for each member. -/
def insertMembers (subscription batch : String) : List String → Db → Except String Db
  | [], db => .ok db
  | e :: es, db => do
    let db' ← db.insertMember ⟨subscription, e, batch⟩
    insertMembers subscription batch es db'

/-- `INSERT INTO dispatch` -/
def insertDispatch (d : Dispatch) : Except String Db := do
  need (∀ d' ∈ db.dispatch, ¬ (d'.subscription = d.subscription ∧ d'.event = d.event))
    "unique_constraint_failed"
  return { db with dispatch := db.dispatch ++ [d] }

end Db

/-! ## Groups -/

/-- A group, with the events that it covers and the time by which it is ordered. -/
structure Group (α : Type) where
  shown : α
  members : List String
  time : ℚ

/-- The ids and revisions that the collector reported last. -/
abbrev Current := List (String × String)

/-- Rows in the order of their times, and then of their ids. -/
def Event.before (a b : Event) : Bool :=
  decide (a.created < b.created) || (decide (a.created = b.created) && decide (a.id ≤ b.id))

/-- The check of a row in `group_events` and `group_terminal_events`. -/
def Event.checked (topic : Topic) (now : ℚ) (e : Event) : Prop :=
  e.data.topic = topic ∧ e.data.source = topic.source ∧ e.data.phase ∈ topic.phases ∧
    isHex 64 e.data.objectId = true ∧ isHex 64 e.data.revision = true ∧
    now - 86400 ≤ e.created ∧ e.created ≤ now + 1

instance (topic : Topic) (now : ℚ) (e : Event) : Decidable (e.checked topic now) := by
  unfold Event.checked; infer_instance

/-- Equal neighbours become one. -/
def runsOf : List Phase → List Phase
  | [] => []
  | p :: ps => if ps.head? = some p then runsOf ps else p :: runsOf ps

/-- The group of one object, with the events from the first to the last. -/
def notificationGroup (current : Option Current) (objectId : String) (first last : Event)
    (events : List Event) : Group NotificationGroup :=
  let phases := events.map fun e => e.data.phase
  let runs := runsOf phases
  let tied := decide ((events.filter fun e => e.created = last.created).any fun e =>
    e.data.phase ≠ last.data.phase)
  let revision := current.bind fun c => (lookup Prod.fst objectId c).map Prod.snd
  { shown := {
      objectId
      currentState := match current with
        | none => .unknown
        | some c => if (lookup Prod.fst objectId c).isSome then .current else .removed
      currentRevision := revision
      latestKnownPhase := if tied then none else some last.data.phase
      historicalOrderAmbiguous := tied
      firstChangeAt := first.created
      lastChangeAt := last.created
      changeCount := events.length
      phaseCounts := Topic.haNotification.phases.map fun p => (p, phases.count p)
      transitionPreview := runs.take 8
      transitionPreviewOmitted := runs.length - 8
      revisionsCoalesced := events.length - 1 }
    members := events.map Event.id
    time := last.created }

/-- `group_events`, before the groups are sorted. -/
def objectGroups (current : Option Current) (rows : List Event) : List (Group NotificationGroup) :=
  ((rows.map fun e => e.data.objectId).dedup).filterMap fun objectId =>
    let events := (rows.filter fun e => e.data.objectId = objectId).mergeSort Event.before
    match events.head?, events.getLast? with
    | some first, some last => some (notificationGroup current objectId first last events)
    | _, _ => none

/-- The order of groups: current ones first, then the latest change. -/
def laterGroup (a b : Group NotificationGroup) : Bool :=
  let currentA := decide (a.shown.currentState = .current)
  let currentB := decide (b.shown.currentState = .current)
  (currentA && !currentB) || (currentA == currentB &&
    (decide (b.time < a.time) || (decide (a.time = b.time) &&
      decide (b.shown.objectId ≤ a.shown.objectId))))

/-- `group_events` -/
def groupEvents (rows : List Event) (now : ℚ) (current : Option Current) :
    Except String (List (Group NotificationGroup)) := do
  need (rows.length ≤ 256) "summary_scope_unconfirmed"
  need (∀ e ∈ rows, e.checked .haNotification now) "summary_event_unconfirmed"
  return (objectGroups current rows).mergeSort laterGroup

/-- The order of terminal groups. -/
def earlierTask (a b : Group TerminalGroup) : Bool :=
  decide (a.time < b.time) || (decide (a.time = b.time) &&
    (decide (a.shown.objectId < b.shown.objectId) ||
      (decide (a.shown.objectId = b.shown.objectId) && decide (a.shown.revision ≤ b.shown.revision))))

section
variable [Texts]

/-- `group_terminal_events` -/
def groupTerminalEvents (rows : List Event) (now : ℚ) :
    Except String (List (Group TerminalGroup)) := do
  need (rows.length ≤ 256) "terminal_summary_scope_unconfirmed"
  need (∀ e ∈ rows, e.checked .taskTerminal now ∧ e.data.terminalState.isSome ∧
    ∃ op ∈ e.data.operationId, isHex 32 op = true ∧ terminalObject op = e.data.objectId)
    "terminal_summary_event_unconfirmed"
  return (rows.map fun e => (⟨⟨e.data.objectId, e.data.revision, e.data.operationId,
    e.data.terminalState, e.created⟩, [e.id], e.created⟩ : Group TerminalGroup)).mergeSort earlierTask

/-- `MAX_GROUPS` -/
def maxGroups : ℕ := 8

/-- The members of the groups that a batch takes. -/
def batchMembers {α : Type} (groups : List (Group α)) : List String :=
  ((groups.take maxGroups).flatMap Group.members).mergeSort fun a b => decide (a ≤ b)

/-- A planned batch: its identity, its body and its members. -/
structure Plan where
  identity : String
  body : Envelope
  members : List String

/-- `make_batch` and `make_terminal_batch`, where there is a group. -/
def planOf {α : Type} (kind : Kind) (subscription : String) (now : ℚ) (summary : List α → Summary)
    (reason : String) (groups : List (Group α)) : Except String Plan := do
  let members := batchMembers groups
  let body : Envelope :=
    { eventId := batchId kind subscription members
      timestamp := now
      summary := summary ((groups.take maxGroups).map Group.shown)
      coveredEventRecords := members.length
      remainingGroups := groups.length - (groups.take maxGroups).length }
  need (Texts.size body ≤ 16384) reason
  return ⟨batchId kind subscription members, body, members⟩

end

end SmartHome.NativeEvents
