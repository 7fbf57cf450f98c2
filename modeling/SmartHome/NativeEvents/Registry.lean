/-
  The operations of the native event registry (`registry.py`).

  One worker holds the database, so one operation runs at a time; a statement or a transaction is
  one atomic step.  An operation may raise or die at any step.
-/
import SmartHome.Lib.Exclusive
import SmartHome.NativeEvents.Tables

namespace SmartHome.NativeEvents

open Verif Program
open SmartHome.Mqtt (isHex)

/-! ## State -/

/-- What happened so far. -/
structure Record where
  /-- The events that were stored, as `enqueue` reports them. -/
  accepted : List String
  /-- The batches that the sender was called with, and the database at that time. -/
  posts : List (String × Db)
  /-- The grants that were armed, and those that an attempt took. -/
  armed : List Grant
  attempts : List Grant
  /-- The migrations: the predecessor and the row that came after it. -/
  migrations : List (Subscription × Subscription)

/-- The state of the registry and of what surrounds it. -/
structure State where
  db : Db
  /-- The wall clock. -/
  time : ℚ
  /-- `high_clock` -/
  high : Option ℚ
  /-- `current_evidence` -/
  evidence : Option (ℚ × Current)
  record : Record

/-- What the registry asks the outside for. -/
inductive Request where
  | verify (url secret subscription : String)
  | post (url identity : String)
  deriving DecidableEq

/-- The replies: whether the callback gave the challenge back, and the status of a response. -/
abbrev Reply : Request → Type
  | .verify .. => Bool
  | .post .. => Option ℤ

/-- A step of the registry. -/
abbrev Prog := Program State Reply

/-- `self.clock()` -/
def clock : Prog ℚ := do
  let s ← get
  return s.time

/-- A statement, or a transaction, on the database. -/
def execute (f : State → Except String Db) : Prog Unit :=
  commit fun s => do
    let db ← f s
    return ({ s with db }, ())

/-- `INSERT OR REPLACE INTO meta VALUES ('clock',?)`, once per 30 seconds. -/
def Db.noteClock (db : Db) (now : ℚ) : Db :=
  if ∀ old ∈ db.clock, 30 ≤ now - old then { db with clock := some now } else db

/-- The check of the clock in `now`. -/
def observeClock : Prog ℚ :=
  commit fun s => do
    let now := s.time
    let prior := max (s.db.clock.getD now) (s.high.getD now)
    need (prior - 1 ≤ now) "clock_reconciliation_required"
    return ({ s with high := some (max prior now) }, now)

/-- `now` -/
def now : Prog ℚ := do
  let t ← observeClock
  execute fun s => .ok (s.db.noteClock t)
  return t

/-! ## Events -/

/-- The arguments of `enqueue`. -/
structure Enqueue where
  data : EventData
  occurredAt : ℚ

section
variable [Texts]

/-- The checks of a terminal event. -/
def terminalChecked (e : Enqueue) : Prop :=
  (∃ op ∈ e.data.operationId, isHex 32 op = true ∧ terminalObject op = e.data.objectId) ∧
    e.data.terminalState.isSome ∧
    ∀ t ∈ e.data.resultUpdatedAt, 0 ≤ t ∧ t ≤ e.occurredAt + 1

instance (e : Enqueue) : Decidable (terminalChecked e) := by unfold terminalChecked; infer_instance

/-- What `enqueue` returns. -/
structure Enqueued where
  id : String
  duplicate : Bool
  deriving DecidableEq, Repr

/-- `INSERT INTO events` in `enqueue` -/
def storeEvent (e : Event) : Prog Unit :=
  commit fun s => do
    let db ← s.db.insertEvent e
    return ({ s with db, record := { s.record with accepted := s.record.accepted ++ [e.id] } }, ())

/-- `enqueue` -/
def enqueue (e : Enqueue) : Prog Enqueued := do
  let d := e.data
  require (d.source = d.topic.source ∧ d.phase ∈ d.topic.phases ∧ isHex 64 d.objectId = true ∧
    isHex 64 d.revision = true) "unsafe_event"
  require (if d.topic = .taskTerminal then terminalChecked e
    else d.operationId = none ∧ d.terminalState = none ∧ d.resultUpdatedAt = none) "unsafe_event"
  let t ← clock
  require (t - 86400 ≤ e.occurredAt ∧ e.occurredAt ≤ t + 1) "invalid_event_time"
  let s ← get
  match s.db.data? (eventId d) with
  | some existing => do
    require (d.topic = .taskTerminal → existing = d) "terminal_event_identity_conflict"
    return ⟨eventId d, true⟩
  | none => do
    -- Fail closed when full; never remove uncertain receipts to permit retries.
    require (s.db.events.length < 256) "event_storage_full"
    let _ ← now
    storeEvent ⟨eventId d, d.topic, d, e.occurredAt⟩
    return ⟨eventId d, false⟩

/-- Expired subscriptions end in `prune`. -/
def Db.expire (db : Db) (now : ℚ) : Db :=
  { db with subscriptions := db.subscriptions.map fun s =>
      if s.expires ≤ now ∧ (s.active = true ∨ s.secret ≠ "") then
        { s with active := false, secret := "", oldSecret := none }
      else s }

/-- Settled dispatches are forgotten in `prune` after a week. -/
def Db.forget (db : Db) (now : ℚ) : Db :=
  { db with dispatch := db.dispatch.filter fun d =>
      ¬ (d.state ≠ .uncertain ∧ d.time < now - 7 * 86400) }

/-- The event may move to the archive. -/
def Db.retirable (db : Db) (now : ℚ) (e : Event) : Prop :=
  e.created < now - 86400 ∧ (∀ d ∈ db.dispatch, d.event ≠ e.id) ∧
    ∀ m ∈ db.members, m.event = e.id →
      ∀ d ∈ db.dispatch, d.subscription = m.subscription → d.event = m.batch → d.state ≠ .uncertain

instance (db : Db) (now : ℚ) (e : Event) : Decidable (db.retirable now e) := by
  unfold Db.retirable; infer_instance

/-- The archived form of an event. -/
def archivedAs (members : List Member) (now : ℚ) (e : Event) : Archived :=
  ⟨e, now, if ∃ m ∈ members, m.event = e.id then .coveredBySummary else .eligibilityWindowElapsed⟩

/-- `INSERT INTO event_archive` and `DELETE FROM events`, one after the other for each row. -/
def retireRows (now : ℚ) : List Event → Db → Except String Db
  | [], db => .ok db
  | e :: es, db => do
    need (∀ a ∈ db.archive, a.id ≠ e.id) "unique_constraint_failed"
    retireRows now es { db with
      archive := db.archive ++ [archivedAs db.members now e]
      events := remove Event.id e.id db.events }

/-- The transaction of `prune`. -/
def Db.retire (db : Db) (now : ℚ) : Except String Db := do
  let rows := db.events.filter fun e => db.retirable now e
  need (db.archive.length + rows.length ≤ 4096) "event_history_archive_full"
  retireRows now rows db

/-- `prune` -/
def prune : Prog Unit := do
  let t ← now
  execute fun s => .ok (s.db.expire t)
  execute fun s => .ok (s.db.forget t)
  execute fun s => s.db.retire t

/-! ## Subscriptions -/

/-- The parameters of a subscription. -/
structure SubscribeParams where
  name : String
  project : String
  topics : List Topic
  mode : String
  url : String
  secret : String
  cursor : Option String
  ttlMs : Option ℕ

variable (principal : String)

/-- `identity` -/
def identity (name project' : String) (topics : List Topic) (mode url : String) :
    Except String (String × List Topic) := do
  need (name = observationName) "event_refused"
  need (project' = project) "scope_refused"
  let topics ← filters topics
  need (mode = "webhook") "delivery_refused"
  need (callbackParts url).isSome "invalid_callback"
  return (subscriptionId principal topics url, topics)

/-- Both topics, as `filters` gives them. -/
def bothTopics : List Topic := [.haNotification, .taskTerminal]

/-- The path without its last part, if that is an identifier of 32 hexadecimal digits. -/
def pathFamily (path : String) : Option (List Char) :=
  let cs := path.toList
  let n := cs.length - 32
  if isHex 32 (String.ofList (cs.drop n)) = true ∧ (cs.take n).getLast? = some '/' then
    some (cs.take n)
  else none

/-- The form of an armed grant that admits these arguments now. -/
def Grant.admits (g : Grant) (topics : List Topic) (now : ℚ) : Prop :=
  g.principal = principal ∧ isHex 32 g.operationId = true ∧
    (∀ h ∈ [g.predecessor, g.oldUrlHash, g.oldArgsHash, g.targetArgsHash], isHex 64 h = true) ∧
    (∀ t ∈ [g.oldStarted, g.oldExpires, g.armedAt, g.expiresAt], 0 ≤ t) ∧
    g.oldStarted ≤ g.oldExpires ∧ g.armedAt ≤ now ∧ now < g.expiresAt ∧
    g.expiresAt ≤ min (g.armedAt + 300) g.oldExpires ∧ topics = bothTopics ∧
    argsHash topics = g.targetArgsHash

instance (g : Grant) (topics : List Topic) (now : ℚ) :
    Decidable (g.admits principal topics now) := by unfold Grant.admits; infer_instance

/-- The predecessor is the one that the grant names. -/
def Grant.names (g : Grant) (prior : Subscription) (now : ℚ) : Prop :=
  prior.id = g.predecessor ∧ prior.owner = principal ∧ prior.topics = [.haNotification] ∧
    prior.started = g.oldStarted ∧ prior.expires = g.oldExpires ∧ now < prior.expires ∧
    sha256 prior.url = g.oldUrlHash ∧ argsHash prior.topics = g.oldArgsHash

instance (g : Grant) (prior : Subscription) (now : ℚ) :
    Decidable (g.names principal prior now) := by unfold Grant.names; infer_instance

/-- The two callbacks are of one family. -/
def sameFamily (old new : String) : Prop :=
  ∃ p ∈ callbackParts old, ∃ q ∈ callbackParts new, p.hostname = q.hostname ∧ p.query = "" ∧
    q.query = "" ∧ (pathFamily p.path).isSome ∧ pathFamily p.path = pathFamily q.path ∧ old ≠ new

instance (old new : String) : Decidable (sameFamily old new) := by
  unfold sameFamily; infer_instance

/-- `authorize_handover`: the armed grant and the predecessor, if there is a grant at all. -/
def authorizeHandover (db : Db) (topics : List Topic) (url : String) (now : ℚ)
    (predecessor : Option Subscription) : Except String (Option (Grant × Subscription)) :=
  match db.handover with
  | none => .ok none
  | some (.verificationIntent _) | some (.verificationUnconfirmed _) | some (.completed ..) =>
    .error "subscription_handover_consumed"
  | some .invalid => .error "subscription_handover_not_admitted"
  | some (.armed g) => do
    need (g.admits principal topics now) "subscription_handover_not_admitted"
    let prior ← orFail "subscription_handover_not_admitted"
      (predecessor <|> db.subscription? g.predecessor)
    need (g.names principal prior now) "subscription_handover_not_admitted"
    need (prior.active = true ∨ ∃ m ∈ db.marker? prior.id, g.armedAt ≤ m.time ∧ m.time ≤ now ∧
      now - m.time ≤ 300) "subscription_handover_not_admitted"
    need (sameFamily prior.url url) "subscription_handover_not_admitted"
    return some (g, prior)

/-- What a subscription takes over. -/
structure Origin where
  predecessor : Subscription
  grant : Option Grant

/-- The predecessors that were just unsubscribed. -/
def Db.candidates (db : Db) (url : String) (now : ℚ) : List Subscription :=
  db.subscriptions.filter fun s => s.owner = principal ∧ s.url = url ∧ s.active = false ∧
    now < s.expires ∧ s.topics = [.haNotification] ∧
    (∃ m ∈ db.marker? s.id, m.time ≤ now ∧ now - 300 ≤ m.time) ∧
    ∀ l ∈ db.lineage, l.predecessor ≠ s.id

/-- The choice of the predecessor in `_subscribe`. -/
def origin (db : Db) (id : String) (topics : List Topic) (url : String) (now : ℚ) :
    Except String (Option Origin) :=
  match db.othersLive now id with
  | [prior] => do
    need (db.subscription? id = none ∧ topics = bothTopics ∧ prior.owner = principal ∧
      prior.topics = [.haNotification]) "subscription_limit"
    if prior.url = url then
      return some ⟨prior, none⟩
    else
      let handover ← authorizeHandover principal db topics url now (some prior)
      let h ← orFail "subscription_limit" handover
      return some ⟨prior, some h.1⟩
  | _ :: _ :: _ => .error "subscription_limit"
  | [] =>
    if db.subscription? id = none ∧ topics = bothTopics then
      match db.candidates principal url now with
      | [prior] => .ok (some ⟨prior, none⟩)
      | _ :: _ :: _ => .error "subscription_migration_ambiguous"
      | [] => do
        let handover ← authorizeHandover principal db topics url now none
        match handover with
        | some h => return some ⟨h.2, some h.1⟩
        | none =>
          need (∀ s ∈ db.subscriptions, ¬ (s.owner = principal ∧ s.topics = [.haNotification]))
            "subscription_transition_unconfirmed"
          return none
    else .ok none

/-- `begin_handover` -/
def beginHandover (a : Attempt) : Prog Unit :=
  commit fun s => do
    need (s.db.handover = some (.armed a.grant)) "subscription_handover_consumed"
    return ({ s with
      db := { s.db with handover := some (.verificationIntent a) }
      record := { s.record with attempts := s.record.attempts ++ [a.grant] } }, ())

/-- `unconfirmed_handover` -/
def unconfirmedHandover (a : Attempt) : Prog Unit :=
  execute fun s => .ok (if s.db.handover = some (.verificationIntent a) then
    { s.db with handover := some (.verificationUnconfirmed a) } else s.db)

/-- The verification of the callback, under an attempt if there is a grant. -/
def verifyCallback (p : SubscribeParams) (id : String) (attempt : Option Attempt) : Prog Unit := do
  match attempt with
  | some a => beginHandover a
  | none => pure ()
  let verified : Bool ← ask (Request.verify p.url p.secret id)
  match verified, attempt with
  | true, _ => pure ()
  | false, some a => do
    unconfirmedHandover a
    .fail "challenge_failed"
  | false, none => .fail "challenge_failed"

/-- The predecessor is still as it was when it was chosen. -/
def Db.unchanged (db : Db) (now : ℚ) (o : Origin) (attempt : Option Attempt) : Prop :=
  (∃ current ∈ db.subscription? o.predecessor.id, current.active = o.predecessor.active ∧
    current.owner = principal ∧ current.url = o.predecessor.url ∧
    current.topics = o.predecessor.topics ∧ current.started = o.predecessor.started ∧
    current.expires = o.predecessor.expires ∧ now < current.expires) ∧
  (o.predecessor.active = false →
    ∃ m ∈ db.marker? o.predecessor.id, 0 ≤ now - m.time ∧ now - m.time ≤ 300) ∧
  (∀ a ∈ attempt, db.handover = some (.verificationIntent a) ∧ now < a.grant.expiresAt) ∧
  (db.subscriptions.filter (·.live now)).length = if o.predecessor.active then 1 else 0

instance (db : Db) (now : ℚ) (o : Origin) (attempt : Option Attempt) :
    Decidable (db.unchanged principal now o attempt) := by unfold Db.unchanged; infer_instance

/-- The transaction of a migration. -/
def Db.migrate (db : Db) (now : ℚ) (o : Origin) (attempt : Option Attempt) (row : Subscription) :
    Except String Db := do
  need (db.unchanged principal now o attempt) "subscription_migration_changed"
  let ended := if o.predecessor.active then
    db.updateSubscription o.predecessor.id fun s => { s with active := false } else db
  let cleared : Db := { ended with
    markers := remove Marker.predecessor o.predecessor.id ended.markers }
  let stored ← cleared.insertSubscription row
  let linked ← stored.insertLineage ⟨row.id, o.predecessor.id⟩
  return match attempt with
    | some a => { linked with handover := some (.completed a now) }
    | none => linked

/-- The migration, with its record. -/
def migrate (o : Origin) (attempt : Option Attempt) (row : Subscription) : Prog Unit :=
  commit fun s => do
    let db ← s.db.migrate principal s.time o attempt row
    return ({ s with db, record := { s.record with
      migrations := s.record.migrations ++ [(o.predecessor, row)] } }, ())

/-- The row that a subscription stores. -/
def subscriptionRow (p : SubscribeParams) (id : String) (topics : List Topic)
    (old : Option Subscription) (now verified : ℚ) : Subscription :=
  let rotated := old.filter fun o => o.secret ≠ p.secret
  { id, topics, verified
    owner := principal
    url := p.url
    secret := p.secret
    oldSecret := match rotated with
      | some o => some o.secret
      | none => old.bind Subscription.oldSecret
    rotatedAt := if rotated.isSome then now else (old.map Subscription.rotatedAt).getD 0
    expires := now + min (p.ttlMs.getD 86400000) 86400000 / 1000
    started := ((old.filter Subscription.active).map Subscription.started).getD now
    active := true }

/-- The row that takes over from a predecessor. -/
def Origin.row (o : Origin) (row : Subscription) : Subscription :=
  { row with
    oldSecret := none
    rotatedAt := 0
    expires := min row.expires o.predecessor.expires
    started := o.predecessor.started }

/-- A callback is verified unless it was verified a short while ago. -/
def verifiedAt (p : SubscribeParams) (id : String) (attempt : Option Attempt)
    (known : Option Subscription) (now : ℚ) : Prog ℚ :=
  match known with
  | some r => pure r.verified
  | none => do
    verifyCallback p id attempt
    return now

/-- The end of `_subscribe`: a migration if there is a predecessor. -/
def storeSubscription (o : Option Origin) (attempt : Option Attempt) (row : Subscription) : Prog Unit :=
  match o with
  | some o => migrate principal o attempt (o.row row)
  | none => execute fun s => .ok (s.db.putSubscription row)

/-- `_subscribe` -/
def subscribe (approved : Bool) (p : SubscribeParams) : Prog String := do
  require (approved = true) "activation_not_approved"
  let i ← lift (identity principal p.name p.project p.topics p.mode p.url)
  require (p.cursor = none) "invalid_delivery_or_cursor"
  require (keyBytes p.secret = true) "invalid_signing_key"
  let t ← now
  let s ← get
  let old := s.db.subscription? i.1
  let o ← lift (origin principal s.db i.1 i.2 p.url t)
  require (old.isSome = true ∨ s.db.subscriptions.length < 8) "subscription_limit"
  let attempt : Option Attempt :=
    (o.bind Origin.grant).map fun g => ⟨g, i.1, sha256 p.url, t⟩
  let known := old.filter fun r => r.active = true ∧ r.secret = p.secret ∧ t - r.verified ≤ 300
  let verified ← verifiedAt p i.1 attempt known t
  storeSubscription principal o attempt (subscriptionRow principal p i.1 i.2 old t verified)
  return i.1

/-- The transaction of `unsubscribe`. -/
def Db.unsubscribe (db : Db) (id : String) (topics : List Topic) (now : ℚ) : Except String Db := do
  let markers := db.markers.filter fun m => ¬ m.time < now - 300
  let marked := (db.subscription? id).any fun r => r.owner = principal ∧ r.live now ∧
    topics = [.haNotification]
  need (marked = true → markers.length < 8 ∨ ∃ m ∈ markers, m.predecessor = id)
    "subscription_transition_capacity"
  let ended := db.updateSubscription id fun r => if r.owner = principal then
    { r with active := false, secret := "", oldSecret := none } else r
  return { ended with
    markers := if marked then put Marker.predecessor ⟨id, now⟩ markers else markers }

/-- `unsubscribe` -/
def unsubscribe (name project' : String) (topics : List Topic) (mode url : String) : Prog Unit := do
  let i ← lift (identity principal name project' topics mode url)
  let t ← now
  execute fun s => s.db.unsubscribe principal i.1 i.2 t

/-! ## Deliveries -/

/-- `observe_current` -/
def observeCurrent (notifications : Current) (observedAt : ℚ) : Prog Unit := do
  let t ← clock
  require (notifications.length ≤ 512 ∧ 0 ≤ t - observedAt ∧ t - observedAt ≤ 15)
    "summary_current_evidence_unconfirmed"
  require ((notifications.map Prod.fst).Nodup ∧
    ∀ n ∈ notifications, isHex 64 n.1 = true ∧ isHex 64 n.2 = true)
    "summary_current_evidence_unconfirmed"
  atomic (fun s => { s with evidence := some (observedAt, notifications) }) fun _ => pure ()

/-- The evidence of the collector, while it is fresh. -/
def State.fresh (s : State) (now : ℚ) : Option (ℚ × Current) :=
  s.evidence.filter fun e => 0 ≤ now - e.1 ∧ now - e.1 ≤ 15

/-- The events that may be delivered for a subscription. -/
def Db.eligibleRows (db : Db) (now : ℚ) (sub : Subscription) (allowed : Option (List Topic)) :
    List Event :=
  (db.events.filter fun e => db.eligible now sub sub.topics e ∧ ∀ ts ∈ allowed, e.topic ∈ ts).mergeSort
    Event.before

/-- The order of groups of notifications where other events wait too. -/
def olderGroup (rows : List Event) (a b : Group NotificationGroup) : Bool :=
  let oldest (g : Group NotificationGroup) : ℚ :=
    ((rows.filter fun e => e.id ∈ g.members).map Event.created).foldr min g.time
  decide (oldest a < oldest b) || (decide (oldest a = oldest b) &&
    decide (a.shown.objectId ≤ b.shown.objectId))

/-- `summary_plan` and the batch that is made from it, for one subscription. -/
def State.planFor (s : State) (now : ℚ) (sub : Subscription) (allowed : Option (List Topic)) :
    Except String (Option Plan) := do
  need (0 ≤ sub.started ∧ sub.started ≤ now) "summary_subscription_scope_unconfirmed"
  let rows := s.db.eligibleRows now sub allowed
  match rows with
  | [] => return none
  | first :: _ =>
    let selected := rows.filter fun e => e.topic = first.topic
    match first.topic with
    | .taskTerminal =>
      let groups ← groupTerminalEvents selected now
      let plan ← planOf .taskTerminalSummary sub.id now .tasks "terminal_summary_payload_limit" groups
      return some plan
    | .haNotification =>
      let current := (s.fresh now).map Prod.snd
      let groups ← groupEvents selected now current
      let ordered := if ∃ e ∈ rows, e.topic = .taskTerminal then groups.mergeSort (olderGroup selected)
        else groups
      let plan ← planOf .notificationSummary sub.id now
        (.notifications · ((s.fresh now).map Prod.fst)) "summary_payload_limit" ordered
      return some plan

/-- `summary_plan`: the subscription and its batch. -/
def State.plan (s : State) (now : ℚ) (allowed : Option (List Topic)) :
    Except String (Option (Subscription × Plan)) :=
  match s.db.subscriptions.filter fun r => r.live now ∧ r.owner = principal with
  | [] => .ok none
  | [sub] => do
    let plan ← s.planFor now sub allowed
    return plan.map fun p => (sub, p)
  | _ => .error "summary_subscription_scope_unconfirmed"

/-- `MINIMUM_ATTEMPT_SPACING_SECONDS` -/
def minimumAttemptSpacing : ℚ := 600

/-- `MAXIMUM_ATTEMPTS_PER_DAY` -/
def maximumAttemptsPerDay : ℕ := 86400 / 600

/-- The budget of attempts is used up. -/
def Db.budgetHeld (db : Db) (now : ℚ) : Prop :=
  let recent := db.dispatch.filter fun d => now - 86400 < d.time
  maximumAttemptsPerDay ≤ recent.length ∨ ∃ d ∈ recent, now - d.time < minimumAttemptSpacing

instance (db : Db) (now : ℚ) : Decidable (db.budgetHeld now) := by
  unfold Db.budgetHeld; infer_instance

/-- The rows of an intent. -/
def Db.intend (db : Db) (now : ℚ) (sub : Subscription) (plan : Plan) : Except String Db := do
  let db ← db.insertBatch ⟨plan.identity, sub.id, plan.body, now⟩
  let db ← Db.insertMembers sub.id plan.identity plan.members db
  db.insertDispatch ⟨sub.id, plan.identity, .uncertain, now⟩

/-- What `dispatch_one` has to send. -/
inductive Outgoing where
  | budgetHeld | idle
  | batch (sub : Subscription) (plan : Plan)

/-- The transaction of `dispatch_one`. -/
def State.intend (s : State) (now : ℚ) (allowed : Option (List Topic)) :
    Except String (State × Outgoing) := do
  let db := s.db.noteClock now
  if db.budgetHeld now then
    return ({ s with db }, .budgetHeld)
  else
    let plan ← State.plan principal { s with db } now allowed
    match plan with
    | none => return ({ s with db }, .idle)
    | some (sub, plan) =>
      let db ← db.intend now sub plan
      return ({ s with db }, .batch sub plan)

/-- The call of the sender. -/
def post (sub : Subscription) (plan : Plan) : Prog (Option ℤ) := do
  atomic (fun s => { s with record := { s.record with
    posts := s.record.posts ++ [(plan.identity, s.db)] } }) fun _ => pure ()
  ask (Request.post sub.url plan.identity)

/-- The state of a dispatch after its response. -/
def responseState (status : ℤ) : DispatchState :=
  if 200 ≤ status ∧ status < 300 then .webhookAccepted else .deliveryRefused

/-- `dispatch_one` -/
def dispatchOne (approved : Bool) (allowed : Option (List Topic)) : Prog Unit := do
  require (approved = true) "activation_not_approved"
  let t ← observeClock
  let out ← commit fun s => s.intend principal t allowed
  match out with
  | .budgetHeld => pure ()
  | .idle => pure ()
  | .batch sub plan => do
    -- The batch and all its members were committed before anything is sent.
    require (keyBytes sub.secret = true ∧ ∀ k ∈ sub.oldSecret, t - sub.rotatedAt < 300 → k ≠ "" →
      keyBytes k = true) "invalid_signing_key"
    let status ← post sub plan
    match status with
    | none => pure ()
    | some status => do
      execute fun s => .ok { s.db with dispatch := s.db.dispatch.map fun d =>
        if d.subscription = sub.id ∧ d.event = plan.identity then
          { d with state := responseState status } else d }
      if status = 401 ∨ status = 403 ∨ status = 410 then
        execute fun s => .ok (s.db.updateSubscription sub.id fun r => { r with active := false })
      else pure ()

/-! ## Operations -/

/-- An operation of the registry. -/
inductive Operation where
  | enqueue (e : Enqueue)
  | prune
  | subscribe (approved : Bool) (p : SubscribeParams)
  | unsubscribe (name project' : String) (topics : List Topic) (mode url : String)
  | observeCurrent (notifications : Current) (observedAt : ℚ)
  | dispatchOne (approved : Bool) (allowed : Option (List Topic))

/-- The program of an operation. -/
def Operation.program : Operation → Prog Unit
  | .enqueue e => do let _ ← NativeEvents.enqueue e
  | .prune => NativeEvents.prune
  | .subscribe approved p => do let _ ← NativeEvents.subscribe principal approved p
  | .unsubscribe name project' topics mode url =>
    NativeEvents.unsubscribe principal name project' topics mode url
  | .observeCurrent notifications observedAt => NativeEvents.observeCurrent notifications observedAt
  | .dispatchOne approved allowed => NativeEvents.dispatchOne principal approved allowed

end

/-! ## Surroundings -/

/-- What happens around the operations: the clock goes on, as `clockOk` allows, the worker is
    started anew, and Root arms a grant that was not armed before. -/
inductive Surrounding (clockOk : ℚ → ℚ → Prop) : State → State → Prop
  | clock {s : State} {t : ℚ} : clockOk s.time t → Surrounding clockOk s { s with time := t }
  | restart {s : State} : Surrounding clockOk s { s with high := none, evidence := none }
  | arm {s : State} {g : Grant} : g ∉ s.record.armed → Surrounding clockOk s { s with
      db := { s.db with handover := some (.armed g) }
      record := { s.record with armed := s.record.armed ++ [g] } }

/-- One operation at a time. -/
def setting (clockOk : ℚ → ℚ → Prop) : Setting State where
  others := Surrounding clockOk
  possible _ := True
  release s := s

/-- The registry of a new database. -/
def State.Fresh (s : State) : Prop := s.db = .empty ∧ s.record = ⟨[], [], [], [], []⟩

/-- The runs of the registry. -/
def registryMachine [Texts] (principal : String) (clockOk : ℚ → ℚ → Prop) :
    Machine (Desk State Reply Unit) :=
  deskMachine (setting clockOk) State.Fresh fun p => ∃ op : Operation, p = op.program principal

end SmartHome.NativeEvents
