/-
  `security-light-context-cache`: the node that keeps the last context of the people and of the
  vehicle, in production and in test, and that answers every message with what the light decides on.

  A snapshot is kept if its time is not before the time of the kept one; what is turned away opens
  an episode, which is reported once.  What the node passes on unread (the policies, the lifecycle,
  the test case, the payload) is left out.
-/
import SmartHome.Lib.Number
import SmartHome.SecurityLight.Nodes

namespace SmartHome.SecurityLight.Cache

open Verif

/-! ## Data -/

/-- A cached context.  A flag tells whether the value is `true`; `text` is what `JSON.stringify`
    makes of the context. -/
structure Snapshot where
  /-- `updated_at`, if it is not missing, as `Number` reads it -/
  updatedAt : Option Number
  engineCommunicationFailed : Bool
  engineStateValid : Bool
  engineStale : Bool
  inUse : Bool
  engineOn : Bool
  text : String
  deriving DecidableEq

/-- `Number(context?.updated_at ?? 0)` -/
def Snapshot.at : Option Snapshot → Number
  | some s => s.updatedAt.getD (.fin 0)
  | none => .fin 0

/-- The two caches. -/
inductive Name where
  | people | vehicle
  deriving DecidableEq, Repr

/-- The kind of the messages that bring a snapshot for a cache. -/
def Name.kind : Name → String
  | people => "people_context"
  | vehicle => "vehicle_primary_context"

inductive Reason where
  | futureTimestamp | outOfOrder | missingTimestamp
  deriving DecidableEq, Repr

/-- `reason:incomingAt:oldAt` -/
structure Signature where
  reason : Reason
  incomingAt : Number
  oldAt : Number
  deriving DecidableEq

/-- A series of snapshots that were turned away alike. -/
structure Episode where
  signature : Signature
  reason : Reason
  repeats : ℕ
  startedAt : ℚ
  deriving DecidableEq

/-- A line of the log. -/
inductive Line where
  | missingPolicy
  | episodeEnded (name : Name) (expired : Bool) (reason : Reason) (repeats : ℕ)
  | rejected (test : Bool) (name : Name) (signature : Signature)
  deriving DecidableEq

/-- What the flow keeps in one mode. -/
structure Kept where
  cache : Name → Option Snapshot
  episode : Name → Option Episode
  engineBypassEnabled : Bool
  engineBypassAutomatic : Bool
  engineCommunicationFailed : Bool

structure Flow where
  kept : Mode → Kept
  sunBelowHorizon : Bool
  sunReady : Bool
  log : List Line

namespace Flow

/-- What is kept in a mode changes. -/
def keep (f : Flow) (m : Mode) (k : Kept) : Flow :=
  { f with kept := fun m' => if m' = m then k else f.kept m' }

def write (f : Flow) (l : Line) : Flow := { f with log := f.log ++ [l] }

/-- `set(name, value)` -/
def setCache (f : Flow) (m : Mode) (n : Name) (s : Option Snapshot) : Flow :=
  f.keep m { f.kept m with cache := fun n' => if n' = n then s else (f.kept m).cache n' }

/-- `set(episodeKey, value)` -/
def setEpisode (f : Flow) (m : Mode) (n : Name) (e : Option Episode) : Flow :=
  f.keep m { f.kept m with episode := fun n' => if n' = n then e else (f.kept m).episode n' }

end Flow

/-- A policy, as far as the node reads it: is it there and complete, and the tolerance. -/
structure Policies where
  locationComplete : Bool
  lightComplete : Bool
  /-- `Number(locationPolicy.future_tolerance_seconds)` -/
  futureToleranceSeconds : Number

structure Payload where
  testMode : Bool
  kind : Option String
  updatedAt : Option Number
  context : Option Snapshot
  /-- `sun_below_horizon === true` -/
  sunBelowHorizon : Bool
  /-- `communication_failed`, if it is a boolean -/
  communicationFailed : Option Bool

structure Message where
  /-- `_location_test === true` -/
  locationTest : Bool
  /-- `_location_test_reset === true` -/
  locationTestReset : Bool
  payload : Payload

def Message.testMode (m : Message) : Bool := m.locationTest || m.payload.testMode

def Message.mode (m : Message) : Mode := if m.testMode then .test else .production

/-- `Number(msg.payload?.updated_at ?? msg.payload?.context?.updated_at ?? 0)` -/
def Message.incomingAt (m : Message) : Number :=
  m.payload.updatedAt.getD (Snapshot.at m.payload.context)

/-- `_light_context` -/
structure LightContext where
  testMode : Bool
  kind : Option String
  now : ℚ
  futureMs : Number
  accepted : Bool
  people : Option Snapshot
  vehicle : Option Snapshot
  bypassEnabled : Bool
  bypassAllowed : Bool
  communicationFailed : Bool
  engineAllowed : Bool
  sunReady : Bool
  dark : Bool

/-! ## The cache -/

/-- A message at a time, under the policies of that time. -/
structure Delivery where
  now : ℚ
  policies : Policies
  message : Message

namespace Delivery
variable (d : Delivery)

def futureMs : Number := d.policies.futureToleranceSeconds.times 1000

/-- The latest time that is not in the future. -/
def horizon : Number := d.futureMs.plus d.now

/-- An episode ends after six hours, and when the clock went back behind its start. -/
def expired (e : Episode) : Prop := d.now < e.startedAt ∨ 6 * 60 * 60 * 1000 ≤ d.now - e.startedAt

instance (e : Episode) : Decidable (d.expired e) := by unfold expired; infer_instance

section
variable (n : Name) (f : Flow)

def previousEpisode : Option Episode := (f.kept d.message.mode).episode n

def old : Option Snapshot := (f.kept d.message.mode).cache n

def oldAt : Number := Snapshot.at (d.old n f)

/-- `endEpisode` -/
def endEpisode : Flow :=
  match d.previousEpisode n f with
  | none => f
  | some e =>
    (f.write (.episodeEnded n (decide (d.expired e)) e.reason e.repeats)).setEpisode d.message.mode n none

/-- `reject` -/
def reject (reason : Reason) : Flow :=
  let signature : Signature := ⟨reason, d.message.incomingAt, d.oldAt n f⟩
  match d.previousEpisode n f with
  | some e =>
    if e.signature = signature ∧ ¬ d.expired e then
      f.setEpisode d.message.mode n (some { e with repeats := min (e.repeats + 1) (2 ^ 53 - 1) })
    else ((d.endEpisode n f).setEpisode d.message.mode n (some ⟨signature, reason, 0, d.now⟩)).write
      (.rejected d.message.testMode n signature)
  | none => (f.setEpisode d.message.mode n (some ⟨signature, reason, 0, d.now⟩)).write
      (.rejected d.message.testMode n signature)

/-- Why a snapshot is turned away. -/
def refusal : Option Reason :=
  if d.horizon.lt d.message.incomingAt then some .futureTimestamp
  else if (d.old n f).isSome ∧ d.message.incomingAt.truthy ∧ (d.oldAt n f).truthy ∧
      d.message.incomingAt.lt (d.oldAt n f) then some .outOfOrder
  else if (d.old n f).isSome ∧ ¬ d.message.incomingAt.truthy then some .missingTimestamp
  else none

/-- The snapshot takes the place of the kept one: it is newer, or of the same time and different. -/
def replaces : Prop :=
  (d.old n f = none ∨ (d.message.incomingAt.truthy ∧
    (¬ (d.oldAt n f).truthy ∨ (d.oldAt n f).lt d.message.incomingAt))) ∨
  (d.message.incomingAt.same (d.oldAt n f) ∧
    (d.old n f).map Snapshot.text ≠ d.message.payload.context.map Snapshot.text)

instance : Decidable (d.replaces n f) := by unfold replaces; infer_instance

/-- `updateCache` -/
def updateCache : Bool × Flow :=
  match d.refusal n f with
  | some reason => (false, d.reject n f reason)
  | none =>
    if d.replaces n f then
      (true, (d.endEpisode n f).setCache d.message.mode n d.message.payload.context)
    else (false, d.endEpisode n f)

end

/-- A test starts afresh. -/
def reset (f : Flow) : Flow :=
  if d.message.testMode ∧ d.message.locationTestReset then
    f.keep d.message.mode { f.kept d.message.mode with
      episode := fun _ => none
      engineBypassEnabled := false
      engineBypassAutomatic := false
      engineCommunicationFailed := false }
  else f

/-- The cache that the message has a snapshot for. -/
def target : Option Name :=
  if d.message.payload.kind = some Name.people.kind then some .people
  else if d.message.payload.kind = some Name.vehicle.kind then some .vehicle
  else none

/-- The part of the node that handles the kind of the message. -/
def update (f : Flow) : Bool × Flow :=
  match d.target with
  | some n => d.updateCache n f
  | none =>
    if d.message.payload.kind = some "sun_context" then
      (true, { f with sunBelowHorizon := d.message.payload.sunBelowHorizon })
    else if d.message.payload.kind = some "engine_bypass_context" then
      match d.message.payload.communicationFailed with
      | some b => (true, f.keep d.message.mode { f.kept d.message.mode with
          engineCommunicationFailed := b })
      | none => (true, f)
    else (true, f)

/-- What the light decides on. -/
def lightContext (accepted : Bool) (f : Flow) : LightContext :=
  let kept := f.kept d.message.mode
  let vehicle := kept.cache .vehicle
  let communicationFailed := (vehicle.any Snapshot.engineCommunicationFailed) ||
    kept.engineCommunicationFailed || kept.engineBypassAutomatic
  { testMode := d.message.testMode
    kind := d.message.payload.kind
    now := d.now
    futureMs := d.futureMs
    accepted
    people := kept.cache .people
    vehicle
    bypassEnabled := kept.engineBypassEnabled
    bypassAllowed := kept.engineBypassEnabled && !kept.engineBypassAutomatic && communicationFailed
    communicationFailed
    engineAllowed := (vehicle.any fun v => v.inUse && v.engineOn && v.engineStateValid &&
      !v.engineStale) && !communicationFailed
    sunReady := f.sunReady
    dark := f.sunBelowHorizon }

/-- Both policies are there. -/
def governed : Prop := d.policies.locationComplete = true ∧ d.policies.lightComplete = true

instance : Decidable d.governed := by unfold governed; infer_instance

/-- The node. -/
def handle (f : Flow) : Option LightContext × Flow :=
  if d.governed then
    let r := d.update (d.reset f)
    (some (d.lightContext r.1 r.2), r.2)
  else (none, f.write .missingPolicy)

end Delivery

/-- The flow after a list of messages. -/
def run (f : Flow) (ds : List Delivery) : Flow := ds.foldl (fun f d => (d.handle f).2) f

end SmartHome.SecurityLight.Cache
