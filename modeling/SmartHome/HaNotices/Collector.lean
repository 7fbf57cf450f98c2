/-
  The collector of notices (`notification_state.cjs`): the current notices, the events of their
  changes, and the snapshot from which the next start goes on.

  Counters are JavaScript numbers: an increment of 2 ^ 53 changes nothing.
-/
import SmartHome.HaNotices.Notices
import SmartHome.Lib.Table

namespace SmartHome.HaNotices

open Verif Mqtt

/-! ## Limits -/

/-- `MAX_NOTICES` -/
def maxNotices : ℕ := 512

/-- `MAX_EVENTS` -/
def maxEvents : ℕ := 256

/-- `Number.MAX_SAFE_INTEGER + 1` -/
def unsafeInteger : ℕ := 2 ^ 53

/-- `n++` -/
def increment (n : ℕ) : ℕ := if n < unsafeInteger then n + 1 else n

/-! ## Events -/

/-- The type of a frame of the subscription. -/
inductive Frame where
  | current | added | updated | removed
  deriving DecidableEq, Repr

def Frame.name : Frame → String
  | current => "current"
  | added => "added"
  | updated => "updated"
  | removed => "removed"

def frames : List Frame := [.current, .added, .updated, .removed]

inductive Phase where
  | added | updated | removed
  deriving DecidableEq, Repr

def Phase.name : Phase → String
  | added => "added"
  | updated => "updated"
  | removed => "removed"

structure Change where
  objectId : Hex 64
  revision : Hex 64
  phase : Phase
  deriving DecidableEq

/-- `source_timing` -/
structure Timing where
  frame : Frame
  sourceOccurredAt : Option Stamp
  collectorReceivedAt : Stamp
  collectorObservedAt : Stamp
  deriving DecidableEq

structure Event extends Change where
  id : Hex 64
  sequence : ℕ
  observedAt : Stamp
  timing : Timing
  deriving DecidableEq

/-! ## State -/

/-- `ERRORS` -/
inductive CollectionError where
  | starting | connectionFailed | connectionClosed | authFailed | credentialRoleRefused
  | subscriptionRefused | invalidResponse | pongTimeout | storageFailed | resourceBudgetExceeded
  deriving DecidableEq, Repr

def CollectionError.name : CollectionError → String
  | starting => "starting"
  | connectionFailed => "connection_failed"
  | connectionClosed => "connection_closed"
  | authFailed => "auth_failed"
  | credentialRoleRefused => "credential_role_refused"
  | subscriptionRefused => "subscription_refused"
  | invalidResponse => "invalid_response"
  | pongTimeout => "pong_timeout"
  | storageFailed => "storage_failed"
  | resourceBudgetExceeded => "resource_budget_exceeded"

def collectionErrors : List CollectionError :=
  [.starting, .connectionFailed, .connectionClosed, .authFailed, .credentialRoleRefused,
    .subscriptionRefused, .invalidResponse, .pongTimeout, .storageFailed, .resourceBudgetExceeded]

structure NotificationState where
  current : List Notice
  events : List Event
  sequence : ℕ
  dropped : ℕ
  initialized : Bool
  error : Option CollectionError
  connected : Bool
  lastPong : Option Time
  lastEvent : Option Time
  latencyMs : Option ℤ
  deriving DecidableEq

namespace NotificationState

/-- The state of a first start. -/
def initial : NotificationState := ⟨[], [], 0, 0, false, some .starting, false, none, none, none⟩

variable (s : NotificationState)

/-- The notice of an id. -/
def notice (id : Hex 64) : Option Notice := lookup (fun n : Notice => n.id) id s.current

/-- The revision of an id. -/
def revisions (id : Hex 64) : Option (Hex 64) := (s.notice id).map Notice.revision

/-- `failure` -/
def failure (reason : String) : NotificationState :=
  { s with
    connected := false
    error := some ((collectionErrors.find? fun e => e.name = reason).getD .invalidResponse) }

/-- `pong` -/
def pong (now : Time) : NotificationState := { s with lastPong := some now }

section
variable [Sha256] (r : Runtime)

/-! ## Frames -/

/-- The notices after one entry of a frame. -/
def merge (frame : Frame) (observedAt : Stamp) (candidate : List Notice) (entry : String × Json) :
    Except String (List Notice) :=
  if item entry.2 "notification_id" ≠ .str entry.1 then .error "invalid_response"
  else
    match r.sanitize entry.2 observedAt with
    | none => .error "invalid_response"
    | some clean =>
      if frame = .removed then .ok (remove (fun n : Notice => n.id) clean.id candidate)
      else .ok (upsert (fun n : Notice => n.id) ⟨clean, clean.revisionOf⟩ candidate)

/-- The type and the entries of a frame that is well formed. -/
def frameOf (event : Json) (now receivedAt : Time) : Except String (Frame × List (String × Json)) :=
  match frames.find? fun f => item event "type" = .str f.name, item event "notifications" with
  | some frame, .obj entries =>
    if receivedAt.ms ≤ now.ms ∧ entries.length ≤ maxNotices then .ok (frame, entries)
    else .error "invalid_response"
  | _, _ => .error "invalid_response"

/-- The notices after a frame. -/
def candidate (frame : Frame) (entries : List (String × Json)) (now : Time) : Except String (List Notice) := do
  let next ← entries.foldlM (merge r frame now.toISOString) (if frame = .current then [] else s.current)
  if next.length > maxNotices then .error "notification_limit" else return next

/-- `changes` -/
def changes (next : List Notice) : List Change :=
  if s.initialized then
    next.filterMap (fun n => match s.notice n.id with
      | none => some ⟨n.id, n.revision, .added⟩
      | some old => if old.revision ≠ n.revision then some ⟨n.id, n.revision, .updated⟩ else none) ++
    s.current.filterMap fun n =>
      if lookup (fun n : Notice => n.id) n.id next = none then
        some ⟨n.id, digest (.arr [.str n.revision.1, .str "removed"]), .removed⟩
      else none
  else []

/-- The event of a change. -/
def event (frame : Frame) (next : List Notice) (now receivedAt : Time) (sequence : ℕ) (c : Change) : Event where
  toChange := c
  id := digest (.arr [.str c.objectId.1, .str c.revision.1, .str c.phase.name])
  sequence := sequence
  observedAt := now.toISOString
  timing := {
    frame := frame
    sourceOccurredAt := if c.phase = .removed then none
      else (lookup (fun n : Notice => n.id) c.objectId next).bind fun n => n.createdOrUpdatedAt
    collectorReceivedAt := receivedAt.toISOString
    collectorObservedAt := now.toISOString }

/-- The events of changes, numbered on. -/
def numbered (frame : Frame) (next : List Notice) (now receivedAt : Time) : ℕ → List Change → List Event
  | _, [] => []
  | sequence, c :: cs =>
    event frame next now receivedAt (increment sequence) c ::
      numbered frame next now receivedAt (increment sequence) cs

/-- The state after the oldest events above the limit are dropped. -/
def trim (s : NotificationState) : NotificationState :=
  { s with
    events := s.events.drop (s.events.length - maxEvents)
    dropped := increment^[s.events.length - maxEvents] s.dropped }

/-- The events that a frame adds. -/
def newEvents (frame : Frame) (next : List Notice) (now receivedAt : Time) : List Event :=
  numbered frame next now receivedAt s.sequence (s.changes next)

/-- The state after a frame that is accepted. -/
def accept (frame : Frame) (next : List Notice) (now receivedAt : Time) : NotificationState :=
  let s' := trim { s with
    events := s.events ++ s.newEvents frame next now receivedAt
    sequence := increment^[(s.changes next).length] s.sequence }
  { s' with
    current := next
    initialized := true
    connected := true
    error := none
    lastEvent := some now
    lastPong := some now
    latencyMs := some (now.ms - receivedAt.ms) }

/-- `apply`: what it returns or throws, and the state that it leaves behind. -/
def apply (event : Json) (now receivedAt : Time) : Except String ℕ × NotificationState :=
  match frameOf event now receivedAt with
  | .error e => (.error e, s)
  | .ok (frame, entries) =>
    match s.candidate r frame entries now with
    | .error e => (.error e, s)
    | .ok next => (.ok (s.changes next).length, s.accept frame next now receivedAt)

end
end NotificationState
end SmartHome.HaNotices
