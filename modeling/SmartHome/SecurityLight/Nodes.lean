/-
  The nodes of the security light that start, schedule and end an activation
  (`security-light-*.js`), and the ones that bring timers back after a restart.

  Numbers are exact.  The objects that `flow.get` returns are the stored ones: a node that changes
  a lifecycle changes the object, whether it is stored or not.  What the nodes write without one of
  them reading it (pending arrivals, watches, notification latches, logs) is left out.
-/
import Mathlib.Tactic.NormNum
import SmartHome.Lib.Flow
import SmartHome.Lib.Js

namespace SmartHome.SecurityLight

open Verif

/-! ## Policies -/

/-- `location_policy_v1`, as far as it is read here. -/
structure LocationPolicy where
  futureToleranceSeconds : ℚ
  arrivalDedupeMinutes : ℚ
  locationFreshMinutes : ℚ
  vehicleSignalFreshMinutes : ℚ
  deriving DecidableEq, Repr

/-- `security_light_policy_v1`, as `security-light-policy-validate.js` lets it be stored. -/
structure LightPolicy where
  physicalFreshSeconds : ℚ
  offGraceSeconds : ℚ
  backstopMinutes : ℚ
  postOffCooldownMinutes : ℚ
  lifecycleRetentionHours : ℚ
  deadlineSlackMinutes : ℚ
  cooldownMaxMinutes : ℚ
  approachRadiusM : ℚ
  /-- `LIMITS` -/
  limits : (30 ≤ physicalFreshSeconds ∧ physicalFreshSeconds ≤ 600) ∧
    (10 ≤ offGraceSeconds ∧ offGraceSeconds ≤ 300) ∧ (2 ≤ backstopMinutes ∧ backstopMinutes ≤ 60) ∧
    (1 ≤ postOffCooldownMinutes ∧ postOffCooldownMinutes ≤ 30) ∧
    (1 ≤ lifecycleRetentionHours ∧ lifecycleRetentionHours ≤ 168) ∧
    (0 ≤ deadlineSlackMinutes ∧ deadlineSlackMinutes ≤ 10) ∧
    (5 ≤ cooldownMaxMinutes ∧ cooldownMaxMinutes ≤ 120) ∧
    30 ≤ approachRadiusM ∧ approachRadiusM ≤ 350
  deriving DecidableEq, Repr

def LocationPolicy.futureMs (p : LocationPolicy) : ℚ := p.futureToleranceSeconds * 1000

def LightPolicy.physicalFreshMs (p : LightPolicy) : ℚ := p.physicalFreshSeconds * 1000

def LightPolicy.graceMs (p : LightPolicy) : ℚ := p.offGraceSeconds * 1000

def LightPolicy.backstopMs (p : LightPolicy) : ℚ := p.backstopMinutes * 60000

/-- `DEFAULTS` -/
def LightPolicy.defaults : LightPolicy := ⟨120, 90, 15, 5, 24, 1, 30, 350, by norm_num⟩

/-! ## State -/

/-- Production and test have contexts of their own (`contextKey`). -/
inductive Mode where
  | production | test
  deriving DecidableEq, Repr

/-- `security_light_lifecycle_v1` -/
structure Lifecycle where
  version : ℕ
  activeByArrival : Bool
  onSince : Option ℚ
  forceOffAt : Option ℚ
  pendingOffAt : Option ℚ
  pendingOffReason : Option String
  pendingOffSource : Option String
  vehicleRefreshAt : Option ℚ
  vehicleRefreshReason : Option String
  vehicleRefreshSource : Option String
  lastArrivalKey : Option String
  lastArrivalAt : Option ℚ
  cooldownUntil : Option ℚ
  updatedAt : Option ℚ
  deriving DecidableEq, Repr

/-- `{ version: 1 }` -/
def Lifecycle.new : Lifecycle :=
  ⟨1, false, none, none, none, none, none, none, none, none, none, none, none, none⟩

/-- `vehicle_primary_context_v1`; a flag tells whether the value is `true`. -/
structure Vehicle where
  engineOn : Option Bool
  engineStateValid : Bool
  engineStale : Bool
  engineCommunicationFailed : Bool
  telemetryUpdatedAt : JsNumber
  engineUpdatedAt : JsNumber
  telemetryTimestampFuture : Bool
  deriving DecidableEq, Repr

/-- `{}` -/
def Vehicle.empty : Vehicle := ⟨none, false, false, false, .absent, .absent, false⟩

/-- A resident in `people_context_v1`, or the snapshot that an arrival carries. -/
structure Resident where
  ready : Option Bool
  stale : Option Bool
  updatedAt : JsNumber
  currentHome : Option Bool
  state : Option String
  gateDistanceM : Option ℚ
  distanceM : Option ℚ
  deriving DecidableEq, Repr

/-- Who arrives. -/
inductive Source where
  | residentPrimary | residentSecondary
  | other
  deriving DecidableEq, Repr

/-- `people_context_v1` -/
structure People where
  ready : Bool
  resident : Source → Option Resident
  /-- `local_excursions[source].started_at` -/
  excursionStartedAt : Source → Option ℚ

/-- `gps_return_evidence` of a local excursion. -/
structure GpsReturn where
  returning : Bool
  lastAt : Option ℚ
  lastDistance : Option ℚ
  deriving DecidableEq, Repr

/-- A resident's cycle in `security_light_local_excursion_v1`. -/
structure LocalCycle where
  startedAt : Option ℚ
  expiresAt : Option ℚ
  consumedAt : Option ℚ
  gpsReturn : Option GpsReturn
  deriving DecidableEq, Repr

/-- What the nodes know of the surroundings, in one mode. -/
structure Seen where
  physicalState : Option String
  physicalObservedAt : Option ℚ
  physicalUpdatedAt : Option ℚ
  lightReconciled : Bool
  sunReady : Bool
  sunBelowHorizon : Bool
  vehicle : Vehicle
  engineCommunicationFailed : Bool
  people : People
  engineBypassAutomatic : Bool
  localCycle : Source → Option LocalCycle

/-- What a timer is for. -/
inductive DeadlineType where
  | immediate | confirmedOff | backstop
  deriving DecidableEq, Repr

structure Context where
  locationPolicy : Option LocationPolicy
  lightPolicy : Option LightPolicy
  /-- The lifecycles that were made, and which of them is stored. -/
  objects : List Lifecycle
  stored : Mode → Option ℕ
  seen : Mode → Seen
  /-- `security_light_recovery_scheduled` -/
  scheduled : DeadlineType → Option ℚ

namespace Context

/-- `flow.get(lifecycleKey)` -/
def lifecycle (c : Context) (mode : Mode) : Option Lifecycle := (c.stored mode).bind fun i => c.objects[i]?

/-- Where the lifecycle is, or will be after it is made. -/
def slot (c : Context) (mode : Mode) : ℕ := (c.stored mode).getD c.objects.length

/-- The object is changed. -/
def put (c : Context) (i : ℕ) (l : Lifecycle) : Context := { c with objects := c.objects.set i l }

/-- A new object. -/
def make (c : Context) (l : Lifecycle) : Context := { c with objects := c.objects ++ [l] }

/-- `flow.set(lifecycleKey, lifecycle)` -/
def store (c : Context) (mode : Mode) (i : ℕ) : Context :=
  { c with stored := fun m => if m = mode then some i else c.stored m }

/-- The lifecycle of a mode changes, or is made and stored. -/
def keep (c : Context) (mode : Mode) (l : Lifecycle) : Context :=
  match c.stored mode with
  | some i => c.put i l
  | none => (c.make l).store mode c.objects.length

/-- The surroundings change. -/
def see (c : Context) (mode : Mode) (f : Seen → Seen) : Context :=
  { c with seen := fun m => if m = mode then f (c.seen m) else c.seen m }

end Context

/-! ## Messages -/

/-- The payload of an arrival. -/
structure Arrival where
  mode : Mode
  source : Source
  /-- `arrival_resident_snapshot` -/
  snapshot : Option Resident
  /-- `vehicle_primary_gate === "known_engine_on"` -/
  knownEngineOn : Bool
  /-- `vehicle_primary_gate === "manual_bypass_for_unreliable_engine"` -/
  manualBypass : Bool
  engineStale : Bool
  engineBypassAllowed : Bool
  engineDataUnreliable : Bool
  localExcursionReturn : Bool
  localExcursionStartedAt : Option ℚ
  /-- `local_return_evidence === "gps_round_trip"` -/
  gpsRoundTrip : Bool
  arrivalKey : Option String
  deriving DecidableEq, Repr

/-- A timer, when it is set and when it fires. -/
structure Timer where
  mode : Mode
  deadlineType : DeadlineType
  deadlineAt : Option ℚ
  activationAt : Option ℚ
  reason : Option String
  recovered : Bool
  deriving DecidableEq, Repr

/-- A context message at the OFF decision. -/
structure Observation where
  mode : Mode
  /-- `kind === "vehicle_primary_context" && accepted === true` -/
  acceptedVehicle : Bool
  deriving DecidableEq, Repr

/-- A report on the light, if `kind` is `light_physical`. -/
structure Physical where
  signal : Bool
  state : Option String
  updatedAt : Option ℚ
  deriving DecidableEq, Repr

/-- `_light_reconcile` -/
structure Reconcile where
  now : ℚ
  futureMs : ℚ
  policy : LightPolicy
  /-- The lifecycle, as an object. -/
  lifecycle : ℕ
  physical : Physical
  physicalAccepted : Bool
  deadlines : List (DeadlineType × ℚ × Option String)
  deriving DecidableEq, Repr

/-- A message at a node, or an effect. -/
inductive Message where
  | markActive (a : Arrival)
  | offDecision (o : Observation)
  | turnOff (t : Timer)
  | lifecycleLoad (p : Physical)
  | physicalApply (r : Reconcile)
  | recoveryFacts (r : Reconcile)
  | recoveryBuild (r : Reconcile)
  /-- The light is switched on. -/
  | on (a : Arrival)
  /-- The light is switched off; in a test, this is only recorded. -/
  | off (t : Timer)
  deriving DecidableEq, Repr

/-! ## Evidence -/

/-- `withinLightingApproach` -/
def withinLightingApproach (r : Option Resident) (p : LightPolicy) : Prop :=
  ∃ x ∈ r, (x.currentHome = some true ∧ x.state = some "home") ∨
    ∃ d ∈ x.gateDistanceM, 0 ≤ d ∧ d ≤ p.approachRadiusM

instance (r : Option Resident) (p : LightPolicy) : Decidable (withinLightingApproach r p) := by
  unfold withinLightingApproach; infer_instance

/-- Why engine data are no evidence that the car is off. -/
inductive OffReason where
  | engineCommunicationFailed | engineStateInvalid | engineNotOff | engineTimestampInvalid
  | engineObservationStale | engineObservationBeforeActivation
  deriving DecidableEq, Repr

/-- The time of the engine data. -/
def Vehicle.observedAt (v : Vehicle) : Option ℚ := (v.telemetryUpdatedAt.orElse v.engineUpdatedAt).finite

/-- `offEvidence`: the reason against, if there is one. -/
def offEvidence (v : Vehicle) (l : Lifecycle) (p : LocationPolicy) (now : ℚ) : Option OffReason :=
  if v.engineCommunicationFailed = true then some .engineCommunicationFailed
  else if v.engineStateValid ≠ true then some .engineStateInvalid
  else if v.engineOn ≠ some false then some .engineNotOff
  else match v.observedAt with
    | none => some .engineTimestampInvalid
    | some observedAt =>
      if observedAt ≤ 0 ∨ v.telemetryTimestampFuture = true ∨ now + p.futureMs < observedAt then
        some .engineTimestampInvalid
      else if p.vehicleSignalFreshMinutes * 60000 < now - observedAt then some .engineObservationStale
      else match l.onSince with
        | none => some .engineObservationBeforeActivation
        | some onSince =>
          if observedAt ≤ onSince then some .engineObservationBeforeActivation else none

/-- The report on the light is recent. -/
def Seen.physicalFresh (s : Seen) (futureMs freshMs now : ℚ) : Prop :=
  s.physicalObservedAt.getD 0 ≤ now + futureMs ∧ now - s.physicalObservedAt.getD 0 ≤ freshMs

instance (s : Seen) (futureMs freshMs now : ℚ) : Decidable (s.physicalFresh futureMs freshMs now) := by
  unfold Seen.physicalFresh; infer_instance

/-! ## Activation -/

/-- `sourcePeopleContext`: the snapshot of the arrival, unless the cached resident is newer. -/
def sourceResident (cached snapshot : Option Resident) (futureMs now : ℚ) : Option Resident :=
  match snapshot with
  | some e =>
    match e.updatedAt.orZero, ((cached.map Resident.updatedAt).getD .absent).orZero with
    | some at', some known =>
      if e.ready = some true ∧ e.stale ≠ some true ∧ 0 < at' ∧ at' ≤ now + futureMs ∧ known ≤ at' then
        -- of the same time: the fields of the snapshot over those of the cache
        if at' = known then
          match cached with
          | some r => some { e with
              stale := e.stale <|> r.stale
              currentHome := e.currentHome <|> r.currentHome
              state := e.state <|> r.state
              gateDistanceM := e.gateDistanceM <|> r.gateDistanceM
              distanceM := e.distanceM <|> r.distanceM }
          | none => some e
        else some e
      else cached
    | _, _ => cached
  | none => cached

/-- `peopleReadyForArrival` -/
def peopleReady (people : People) (source : Source) (resident : Option Resident) (p : LocationPolicy)
    (now : ℚ) : Prop :=
  source ≠ .other → match resident.bind Resident.ready with
    | some ready => ready = true ∧ ∃ r ∈ resident, r.stale ≠ some true ∧ ∃ at' ∈ r.updatedAt.finite,
        0 < at' ∧ at' ≤ now + p.futureMs ∧ now - at' ≤ p.locationFreshMinutes * 60000
    | none => people.ready = true

instance (people : People) (source : Source) (resident : Option Resident) (p : LocationPolicy)
    (now : ℚ) : Decidable (peopleReady people source resident p now) := by
  unfold peopleReady
  cases resident.bind Resident.ready <;> infer_instance

/-- `localCurrent`: an arrival from a local excursion belongs to the open cycle. -/
def localCurrent (s : Seen) (a : Arrival) (resident : Option Resident) (now : ℚ) : Prop :=
  a.localExcursionReturn = true →
    (s.localCycle a.source).bind LocalCycle.startedAt = a.localExcursionStartedAt ∧
    s.people.excursionStartedAt a.source = (s.localCycle a.source).bind LocalCycle.startedAt ∧
    ∃ cycle ∈ s.localCycle a.source, (∃ e ∈ cycle.expiresAt, now ≤ e) ∧ cycle.consumedAt = none ∧
      (a.gpsRoundTrip = true → ∃ g ∈ cycle.gpsReturn, g.returning = true ∧
        g.lastAt = resident.bind (fun r => r.updatedAt.finite) ∧
        g.lastDistance = resident.bind Resident.distanceM)

instance (s : Seen) (a : Arrival) (resident : Option Resident) (now : ℚ) :
    Decidable (localCurrent s a resident now) := by unfold localCurrent; infer_instance

/-- `engineGateAllowed || bypassAllowed` -/
def engineAllows (s : Seen) (a : Arrival) : Prop :=
  (a.knownEngineOn = true ∧ a.engineStale ≠ true ∧ s.vehicle.engineOn = some true ∧
      s.vehicle.engineStateValid = true ∧ s.vehicle.engineStale ≠ true ∧
      s.vehicle.engineCommunicationFailed ≠ true) ∨
    (a.manualBypass = true ∧ s.engineBypassAutomatic ≠ true ∧ a.engineBypassAllowed = true ∧
      a.engineDataUnreliable = true)

instance (s : Seen) (a : Arrival) : Decidable (engineAllows s a) := by
  unfold engineAllows; infer_instance

/-- `physicalAttemptAllowed`; a test looks at the light of production too. -/
def physicalAllows (s : Seen) (p : LocationPolicy) (q : LightPolicy) (now : ℚ) : Prop :=
  s.physicalState = some "unavailable" ∨
    (s.physicalState = some "off" ∧ s.lightReconciled = true ∧
      s.physicalFresh p.futureMs q.physicalFreshMs now)

instance (s : Seen) (p : LocationPolicy) (q : LightPolicy) (now : ℚ) :
    Decidable (physicalAllows s p q now) := by unfold physicalAllows; infer_instance

/-- `ready` in `mark-active` -/
def arrivalReady (c : Context) (a : Arrival) (p : LocationPolicy) (q : LightPolicy) (now : ℚ) : Prop :=
  let s := c.seen a.mode
  let resident := sourceResident (s.people.resident a.source) a.snapshot p.futureMs now
  localCurrent s a resident now ∧ peopleReady s.people a.source resident p now ∧
    withinLightingApproach resident q ∧ (c.seen .production).sunReady = true ∧
    (c.seen .production).sunBelowHorizon = true ∧ physicalAllows (c.seen .production) p q now ∧
    engineAllows s a

instance (c : Context) (a : Arrival) (p : LocationPolicy) (q : LightPolicy) (now : ℚ) :
    Decidable (arrivalReady c a p q now) := by unfold arrivalReady; infer_instance

/-- The arrival was answered a short while ago. -/
def Lifecycle.repeats (l : Lifecycle) (key : Option String) (p : LocationPolicy) (now : ℚ) : Prop :=
  (∃ k ∈ key, k ≠ "" ∧ l.lastArrivalKey = some k) ∧ l.lastArrivalAt.getD 0 ≤ now + p.futureMs ∧
    now - l.lastArrivalAt.getD 0 < p.arrivalDedupeMinutes * 60000

instance (l : Lifecycle) (key : Option String) (p : LocationPolicy) (now : ℚ) :
    Decidable (l.repeats key p now) := by unfold Lifecycle.repeats; infer_instance

/-- The lifecycle when an activation begins. -/
def Lifecycle.begun (l : Lifecycle) (key : Option String) (q : LightPolicy) (now : ℚ) : Lifecycle :=
  { l with
    version := 1
    activeByArrival := true
    onSince := some now
    forceOffAt := some (now + q.backstopMs)
    pendingOffAt := none
    pendingOffReason := none
    pendingOffSource := none
    vehicleRefreshAt := none
    vehicleRefreshReason := none
    vehicleRefreshSource := none
    lastArrivalKey := key
    lastArrivalAt := some now
    updatedAt := some now }

/-- The cycle of a local excursion is consumed by its arrival. -/
def Seen.consume (s : Seen) (a : Arrival) (now : ℚ) : Seen :=
  { s with localCycle := fun source =>
      if source = a.source ∧ a.localExcursionReturn = true then
        (s.localCycle source).map fun cycle =>
          if cycle.startedAt = a.localExcursionStartedAt then { cycle with consumedAt := some now }
          else cycle
      else s.localCycle source }

/-- `security-light-mark-active.js` -/
def markActive (now : ℚ) (a : Arrival) (c : Context) : Context × List Message :=
  match c.locationPolicy, c.lightPolicy with
  | some p, some q =>
    let l := (c.lifecycle a.mode).getD .new
    if arrivalReady c a p q now ∧ l.activeByArrival ≠ true ∧ ¬ l.repeats a.arrivalKey p now then
      ((c.keep a.mode (l.begun a.arrivalKey q now)).see a.mode fun s => s.consume a now,
        [.on a, .turnOff ⟨a.mode, .backstop, some (now + q.backstopMs), none, none, false⟩])
    else (c, [])
  | _, _ => (c, [])

/-! ## The end of an activation -/

/-- The pending OFF is cancelled. -/
def Lifecycle.cancelled (l : Lifecycle) (now : ℚ) : Lifecycle :=
  { l with pendingOffAt := none, pendingOffReason := none, pendingOffSource := none, updatedAt := some now }

/-- An OFF is scheduled. -/
def Lifecycle.scheduled (l : Lifecycle) (q : LightPolicy) (now : ℚ) : Lifecycle :=
  { l with
    pendingOffAt := some (now + q.graceMs)
    pendingOffReason := some "vehicle_primary_motor_off_confirmado"
    pendingOffSource := some "vehicle_primary"
    updatedAt := some now }

/-- `security-light-off-decision.js` -/
def offDecision (now : ℚ) (o : Observation) (c : Context) : Context × List Message :=
  match c.locationPolicy, c.lightPolicy, c.lifecycle o.mode with
  | some p, some q, some l =>
    let s := c.seen o.mode
    if l.activeByArrival = true ∧ s.sunReady = true ∧ s.lightReconciled = true ∧
        s.physicalFresh p.futureMs q.physicalFreshMs now ∧ o.acceptedVehicle = true then
      if (offEvidence s.vehicle l p now).isSome ∨ s.vehicle.engineCommunicationFailed = true ∨
          s.engineCommunicationFailed = true then
        (c.keep o.mode (l.cancelled now), [])
      else if l.pendingOffAt.isSome then (c, [])
      else
        (c.keep o.mode (l.scheduled q now), [.turnOff ⟨o.mode, .confirmedOff,
          some (now + q.graceMs), l.onSince, some "vehicle_primary_motor_off_confirmado", false⟩])
    else (c, [])
  | _, _, _ => (c, [])

/-- The lifecycle when an activation ends. -/
def Lifecycle.ended (l : Lifecycle) (q : LightPolicy) (now : ℚ) : Lifecycle :=
  { l with
    activeByArrival := false
    onSince := none
    forceOffAt := none
    pendingOffAt := none
    pendingOffReason := none
    pendingOffSource := none
    vehicleRefreshAt := none
    vehicleRefreshReason := none
    vehicleRefreshSource := none
    cooldownUntil := some (now + q.postOffCooldownMinutes * 60000)
    updatedAt := some now }

/-- The checks of `turn-off-if-active`. -/
def turnOffReady (t : Timer) (l : Lifecycle) (s : Seen) (p : LocationPolicy) (q : LightPolicy) (now : ℚ) :
    Prop :=
  if t.deadlineType = .backstop then ∀ f ∈ l.forceOffAt, f ≤ now
  else s.lightReconciled = true ∧ s.physicalFresh p.futureMs q.physicalFreshMs now ∧
    t.deadlineType = .confirmedOff ∧ (∃ f ∈ l.pendingOffAt, f ≤ now) ∧
    t.deadlineAt = l.pendingOffAt ∧ t.activationAt = l.onSince ∧
    offEvidence s.vehicle l p now = none ∧ s.engineCommunicationFailed ≠ true ∧
    s.physicalState = some "on"

instance (t : Timer) (l : Lifecycle) (s : Seen) (p : LocationPolicy) (q : LightPolicy) (now : ℚ) :
    Decidable (turnOffReady t l s p q now) := by unfold turnOffReady; infer_instance

/-- A recovered timer has fired. -/
def Context.fired (c : Context) (t : Timer) : Context :=
  if t.recovered = true then
    { c with scheduled := fun d => if d = t.deadlineType then none else c.scheduled d }
  else c

/-- `security-light-turn-off-if-active.js` -/
def turnOff (now : ℚ) (t : Timer) (c : Context) : Context × List Message :=
  match c.locationPolicy, c.lightPolicy with
  | some p, some q =>
    let c := c.fired t
    match c.lifecycle t.mode with
    | some l =>
      if l.activeByArrival = true ∧ turnOffReady t l (c.seen t.mode) p q now then
        (c.keep t.mode (l.ended q now), [.off t])
      else (c, [])
    | none => (c, [])
  | _, _ => (c, [])

/-! ## Recovery -/

/-- The stored lifecycle is discarded. -/
def Lifecycle.discarded (l : Lifecycle) (futureMs retentionMs now : ℚ) : Prop :=
  l.version ≠ 1 ∨ ∀ u ∈ l.updatedAt, now + futureMs < u ∨ retentionMs < now - u

instance (l : Lifecycle) (futureMs retentionMs now : ℚ) :
    Decidable (l.discarded futureMs retentionMs now) := by unfold Lifecycle.discarded; infer_instance

/-- The deadlines of an active lifecycle fit each other. -/
def Lifecycle.coherent (l : Lifecycle) (futureMs maxDeadlineMs now : ℚ) : Prop :=
  ∃ o ∈ l.onSince, o ≤ now + futureMs ∧ ∃ f ∈ l.forceOffAt, o ≤ f ∧ f ≤ o + maxDeadlineMs

instance (l : Lifecycle) (futureMs maxDeadlineMs now : ℚ) :
    Decidable (l.coherent futureMs maxDeadlineMs now) := by unfold Lifecycle.coherent; infer_instance

/-- The pending OFF fits the activation. -/
def Lifecycle.pendingFits (l : Lifecycle) (p : ℚ) : Prop :=
  l.activeByArrival = true ∧ (∀ o ∈ l.onSince, o ≤ p) ∧ ∀ f ∈ l.forceOffAt, p ≤ f

instance (l : Lifecycle) (p : ℚ) : Decidable (l.pendingFits p) := by
  unfold Lifecycle.pendingFits; infer_instance

/-- The cooldown lies ahead, and not too far. -/
def cooldownFits (q : LightPolicy) (now u : ℚ) : Bool :=
  decide (now < u) && decide (u ≤ now + q.cooldownMaxMinutes * 60000)

/-- An active lifecycle with incoherent deadlines is not taken for ours. -/
def Lifecycle.trusted (l : Lifecycle) (p : LocationPolicy) (q : LightPolicy) (now : ℚ) : Lifecycle :=
  if l.activeByArrival = true ∧
      ¬ l.coherent p.futureMs ((q.backstopMinutes + q.deadlineSlackMinutes) * 60000) now then
    { l with
      activeByArrival := false
      onSince := none
      forceOffAt := none
      pendingOffAt := none
      pendingOffReason := none
      pendingOffSource := none }
  else l

/-- A pending OFF that does not fit is dropped. -/
def Lifecycle.fitted (l : Lifecycle) : Lifecycle :=
  if ∃ f ∈ l.pendingOffAt, ¬ l.pendingFits f then
    { l with pendingOffAt := none, pendingOffReason := none, pendingOffSource := none }
  else l

/-- What `lifecycle-load` makes of a lifecycle. -/
def Lifecycle.loaded (l : Lifecycle) (p : LocationPolicy) (q : LightPolicy) (now : ℚ) : Lifecycle :=
  let l := ({ l.trusted p q now with
    vehicleRefreshAt := none
    vehicleRefreshReason := none
    vehicleRefreshSource := none } : Lifecycle).fitted
  { l with cooldownUntil := l.cooldownUntil.filter (cooldownFits q now) }

/-- `security-light-lifecycle-load.js` -/
def lifecycleLoad (now : ℚ) (m : Physical) (c : Context) : Context × List Message :=
  match c.locationPolicy, c.lightPolicy with
  | some p, some q =>
    let kept := (c.lifecycle .production).filter fun l =>
      ¬ l.discarded p.futureMs (q.lifecycleRetentionHours * 3600000) now
    let i := if kept.isSome then c.slot .production else c.objects.length
    let c' := match kept with
      | some l => c.keep .production (l.loaded p q now)
      | none => c.make ({ Lifecycle.new with updatedAt := some now }.loaded p q now)
    (c', [.physicalApply ⟨now, p.futureMs, q, i, m, true, []⟩])
  | _, _ => (c, [])

/-- A report that is out of order. -/
def Seen.refuses (s : Seen) (m : Physical) (futureMs now : ℚ) : Prop :=
  let updatedAt := m.updatedAt.getD 0
  let previousAt := s.physicalUpdatedAt.getD 0
  now + futureMs < updatedAt ∨ (updatedAt ≠ 0 ∧ previousAt ≠ 0 ∧ updatedAt < previousAt) ∨
    (updatedAt ≠ 0 ∧ previousAt ≠ 0 ∧ updatedAt = previousAt ∧ s.physicalState.isSome ∧
      s.physicalState ≠ m.state)

instance (s : Seen) (m : Physical) (futureMs now : ℚ) : Decidable (s.refuses m futureMs now) := by
  unfold Seen.refuses; infer_instance

/-- What a report tells about the light. -/
def Seen.report (s : Seen) (m : Physical) (now : ℚ) : Seen :=
  { s with
    physicalObservedAt := some now
    physicalUpdatedAt := if m.updatedAt.getD 0 ≠ 0 then m.updatedAt else s.physicalUpdatedAt
    physicalState := some (m.state.getD "unknown")
    lightReconciled := decide (m.state = some "on" ∨ m.state = some "off") }

/-- The report of a reconciliation is out of order. -/
def Context.refuses (c : Context) (r : Reconcile) : Prop :=
  r.physical.signal = true ∧ (c.seen .production).refuses r.physical r.futureMs r.now

instance (c : Context) (r : Reconcile) : Decidable (c.refuses r) := by
  unfold Context.refuses; infer_instance

/-- What is seen after a reconciliation. -/
def Context.reported (c : Context) (r : Reconcile) : Context :=
  if c.refuses r then c.see .production fun s => { s with lightReconciled := false }
  else if r.physical.signal = true then c.see .production fun s => s.report r.physical r.now
  else c

/-- The lifecycle ends if it is active while the light is off. -/
def Context.corrected (c : Context) (r : Reconcile) : List Lifecycle :=
  match c.objects[r.lifecycle]? with
  | some l =>
    if r.physical.signal = true ∧ ¬ c.refuses r ∧ r.physical.state = some "off" ∧
        l.activeByArrival = true then
      c.objects.set r.lifecycle (l.ended r.policy r.now)
    else c.objects
  | none => c.objects

/-- `security-light-physical-apply.js` -/
def physicalApply (r : Reconcile) (c : Context) : Context × List Message :=
  (({ c.reported r with objects := c.corrected r } : Context).store .production r.lifecycle,
    [.recoveryFacts { r with physicalAccepted := decide (¬ c.refuses r) }])

/-- `security-light-recovery-facts.js`, and the switch behind it. -/
def recoveryFacts (r : Reconcile) (c : Context) : Context × List Message :=
  let s := c.seen .production
  let c' := if s.physicalFresh r.futureMs r.policy.physicalFreshMs r.now then c
    else c.see .production fun s => { s with lightReconciled := false }
  match c.objects[r.lifecycle]? with
  | some l =>
    let deadlines := if r.physicalAccepted = true ∧ s.physicalState = some "on" ∧
        l.activeByArrival = true then
      (l.pendingOffAt.map fun f => (DeadlineType.confirmedOff, f, l.pendingOffReason)).toList ++
        (l.forceOffAt.map fun f => (DeadlineType.backstop, f, some "recovered_backstop")).toList else []
    (c', if deadlines = [] then [] else [.recoveryBuild { r with deadlines }])
  | none => (c', [])

/-- `security-light-recovery-build.js` and `-output.js` -/
def recoveryBuild (r : Reconcile) (c : Context) : Context × List Message :=
  let current := fun d => (r.deadlines.find? fun x => x.1 = d).map fun x => x.2.1
  let due := r.deadlines.filter fun x => c.scheduled x.1 ≠ some x.2.1
  let onSince := (c.objects[r.lifecycle]?).bind Lifecycle.onSince
  ({ c with scheduled := current },
    due.map fun x => .turnOff ⟨.production, x.1, some x.2.1, onSince, x.2.2, true⟩)

/-! ## The flow -/

/-- What the nodes do. -/
def nodes : Nodes Context Message := fun now m c =>
  match m with
  | .markActive a => markActive now a c
  | .offDecision o => offDecision now o c
  | .turnOff t => turnOff now t c
  | .lifecycleLoad m => lifecycleLoad now m c
  | .physicalApply r => physicalApply r c
  | .recoveryFacts r => recoveryFacts r c
  | .recoveryBuild r => recoveryBuild r c
  | .on _ => (c, [])
  | .off _ => (c, [])

/-- Arrivals, observations, reports and timers of any content come at any time, so a timer may fire
    late, twice or without having been set; policies and what is seen change as they like. -/
def outside : Outside Context Message where
  start c := c.objects = [] ∧ c.stored = fun _ => none
  enters _ m := match m with
    | .markActive _ | .offDecision _ | .turnOff _ | .lifecycleLoad _ => True
    | _ => False
  others c c' := c'.objects = c.objects ∧ c'.stored = c.stored

/-- The runs of the security light. -/
def lightMachine : Machine (Board Context Message) := flowMachine nodes outside

end SmartHome.SecurityLight
