/-
  The watch over an arrival: `security-light-arrival-pending` enters an approaching resident, and
  `security-light-arrival-watch` asks the resident's phone for its location.

  Times are in milliseconds and numbers of the policy are finite, as they are stored.  The message
  that a pending arrival keeps for its replay, and the diagnostic, are passed on unread and left
  out; of a request, what is copied from the arrival is left out.
-/
import SmartHome.Lib.Number
import SmartHome.SecurityLight.Nodes

namespace SmartHome.SecurityLight.Watch

open Verif

/-! ## Data -/

inductive Retention where
  | whileApproaching | recoveryWindow
  deriving DecidableEq, Repr

/-- `security_light_pending_arrival_v1` -/
structure Pending where
  queuedAt : ℚ
  expiresAt : ℚ
  eventAt : Number
  retention : Retention
  source : String
  stage : Option String
  deriving DecidableEq

/-- What the watch keeps of a resident. -/
structure Record where
  source : String
  eventAt : Number
  createdAt : ℚ
  attempts : ℕ
  lastRefreshAt : Option ℚ
  waitingForCallback : Bool
  positionObservedAt : Option ℚ
  failureReported : Bool
  deriving DecidableEq

/-- What the flow keeps in one mode. -/
structure Kept where
  shared : Option Pending
  byResident : String → Option Pending
  /-- `security_light_arrival_watch_v1`, if it is of version 1 -/
  watches : Option (String → Option Record)

abbrev Flow := Mode → Kept

/-- `["resident_primary", "resident_secondary"]` -/
def residents : List String := ["resident_primary", "resident_secondary"]

/-- What is kept in a mode changes. -/
def Flow.keep (f : Flow) (m : Mode) (k : Kept) : Flow := fun m' => if m' = m then k else f m'

/-! ## Pending arrivals -/

/-- `_light_arrival` -/
structure Arrival where
  mode : Mode
  source : String
  stage : Option String
  eventAt : Number
  queuedAt : ℚ
  arrivalRecoveryMs : ℚ

namespace Arrival
variable (a : Arrival)

/-- `data.resident_arrival` -/
def residentArrival : Bool := residents.contains a.source

def residentApproach : Bool := a.residentArrival && a.stage = some "approach"

def existing (k : Kept) : Option Pending :=
  (k.byResident a.source).or (k.shared.filter fun p => p.source = a.source)

/-- The arrival is not older than the one that is pending. -/
def taken (k : Kept) : Prop :=
  ∀ p ∈ a.existing k, p.eventAt.finite = none ∨ p.eventAt.le a.eventAt

instance (k : Kept) : Decidable (a.taken k) := by unfold taken; infer_instance

def pending : Pending where
  queuedAt := a.queuedAt
  expiresAt := a.queuedAt + a.arrivalRecoveryMs
  eventAt := a.eventAt
  retention := if a.residentApproach then .whileApproaching else .recoveryWindow
  source := a.source
  stage := a.stage

/-- The watch of the resident starts afresh. -/
def record : Record where
  source := a.source
  eventAt := a.eventAt
  createdAt := a.queuedAt
  attempts := 0
  lastRefreshAt := none
  waitingForCallback := false
  positionObservedAt := none
  failureReported := false

/-- What the watch keeps of the resident. -/
def oldWatch (k : Kept) : Option Record := k.watches.bind fun ws => ws a.source

/-- The arrival enters the watch. -/
def enters (k : Kept) : Prop := a.taken k ∧ a.residentApproach = true ∧
  ∀ w ∈ a.oldWatch k, w.eventAt.le a.eventAt

instance (k : Kept) : Decidable (a.enters k) := by unfold enters; infer_instance

/-- `security-light-arrival-pending` -/
def handle (f : Flow) : Flow :=
  let k := f a.mode
  if a.taken k then
    f.keep a.mode {
      shared := some a.pending
      byResident := if a.residentArrival then
        fun s => if s = a.source then some a.pending else k.byResident s else k.byResident
      watches := if a.enters k then
        some fun s => if s = a.source then some a.record else k.watches.bind fun ws => ws s
        else k.watches }
  else f

end Arrival

/-! ## The watch -/

/-- A resident in `people_context_v1`; a flag tells whether the value is `true`. -/
structure Seen where
  ready : Bool
  stale : Bool
  /-- `Number(resident.updated_at)` -/
  updatedAt : Number
  state : Option String
  currentHome : Bool

/-- `_light_context`, as far as the watch reads it. -/
structure Tick where
  mode : Mode
  now : ℚ
  futureMs : ℚ
  freshnessMs : ℚ
  refreshMs : ℚ
  resident : String → Option Seen
  arrivalArmed : String → Bool
  activeByArrival : Bool
  engineAllowed : Bool
  bypassAllowed : Bool
  sunReady : Bool
  dark : Bool
  /-- `location_authorization_just_became_valid` -/
  justAuthorized : Bool

/-- `retryMs` -/
def retryMs : ℚ := 60 * 1000

inductive Reason where
  | authorizedLocationStale | refreshBeforeStale
  deriving DecidableEq, Repr

/-- What is sent to the phone's refresh. -/
inductive Probe where
  /-- `arrival_location_refresh` -/
  | refresh (source : String) (reason : Reason) (attempt : ℕ) (requestedAt : ℚ)
  /-- `arrival_location_refresh_failed` -/
  | failed (source : String) (attempt : ℕ) (requestedAt : Option ℚ)
  deriving DecidableEq

namespace Tick
variable (t : Tick) (source : String)

def observedAt : Option ℚ := (t.resident source).bind fun r => r.updatedAt.finite

/-- The position of the resident, if it is current. -/
def current : Option ℚ :=
  if (t.resident source).any fun r => r.ready && !r.stale then
    (t.observedAt source).filter fun o => 0 < o ∧ o ≤ t.now + t.futureMs ∧ t.now - o ≤ t.freshnessMs
  else none

/-- The watch over the resident ends. -/
def ends : Prop :=
  ((t.current source).isSome ∧ (t.resident source).any (fun r => r.currentHome || r.state = some "home")) ∨
  ((t.current source).isSome ∧ ¬ (t.resident source).any (fun r => r.state = some "near_home")) ∨
  t.arrivalArmed source = false ∨ t.activeByArrival = true

instance : Decidable (t.ends source) := by unfold ends; infer_instance

def nearHome : Bool := (t.resident source).any fun r => r.state = some "near_home" && !r.currentHome

/-- `ageMs >= refreshMs` -/
def old : Prop := ∀ o ∈ t.observedAt source, t.refreshMs ≤ t.now - o

instance : Decidable (t.old source) := by unfold old; infer_instance

/-- `previousObservation`, if it is finite. -/
def previousObservation (w : Record) : Option ℚ := w.positionObservedAt.or w.eventAt.finite

/-- `newObservation`: the watch takes the position for a new one. -/
def newObservation (w : Record) : Option ℚ :=
  (t.current source).filter fun o => ∃ p ∈ previousObservation w, p < o

/-- The record with the new position. -/
def observed (w : Record) : Record :=
  match t.newObservation source w with
  | some o => { w with
      positionObservedAt := some o
      attempts := 0
      lastRefreshAt := none
      failureReported := false }
  | none => w

/-- A new position brings the arrival back. -/
def replays (w : Record) : Bool := (t.newObservation source w).isSome && t.nearHome source &&
  w.waitingForCallback && (t.engineAllowed || t.bypassAllowed) && t.sunReady && t.dark

def retryReady (w : Record) : Prop := ∀ l ∈ w.lastRefreshAt, l ≤ 0 ∨ retryMs ≤ t.now - l

instance (w : Record) : Decidable (t.retryReady w) := by unfold retryReady; infer_instance

/-- `authorizationNeedsCurrent` -/
def authorizationNeedsCurrent (w : Record) : Bool := t.justAuthorized && t.nearHome source &&
  (t.current source).isNone && decide (w.attempts < 2)

/-- A probe is sent. -/
def probes (w : Record) : Prop := w.attempts < 2 ∧ t.retryReady w ∧
  ((t.nearHome source = true ∧ t.old source ∧ w.attempts = 0) ∨
    (t.nearHome source = true ∧ w.waitingForCallback = true ∧ t.old source ∧ 0 < w.attempts) ∨
    t.authorizationNeedsCurrent source w = true)

instance (w : Record) : Decidable (t.probes source w) := by unfold probes; infer_instance

/-- The failure of two probes is reported. -/
def reports (w : Record) : Bool := t.nearHome source && (t.current source).isNone &&
  decide (2 ≤ w.attempts) && !w.failureReported

/-- What becomes of the record of a resident, and what is sent. -/
def visit (w : Record) : Option Record × List Probe :=
  if t.ends source then (none, [])
  else
    let isNew := (t.newObservation source w).isSome
    let w' := t.observed source w
    if t.replays source w then (some { w' with waitingForCallback := false }, [])
    else
      let w' := { w' with waitingForCallback := w'.waitingForCallback && !isNew }
      let failures := if t.reports source w' then
        [Probe.failed source w'.attempts w'.lastRefreshAt] else []
      let w' := { w' with failureReported := w'.failureReported || t.reports source w' }
      if t.probes source w' then
        (some { w' with
          attempts := w'.attempts + 1
          lastRefreshAt := some t.now
          waitingForCallback := true },
          failures ++ [.refresh source (if t.authorizationNeedsCurrent source w' then
            .authorizedLocationStale else .refreshBeforeStale) (w'.attempts + 1) t.now])
      else (some w', failures)

/-- What is sent for a resident. -/
def sent (k : Kept) : List Probe :=
  ((k.watches.bind fun ws => ws source).map fun w => (t.visit source w).2).getD []

/-- `security-light-arrival-watch`, and `phone_refresh_request` -/
def handle (f : Flow) : Flow × List Probe :=
  let k := f t.mode
  (f.keep t.mode { k with
      watches := k.watches.map fun ws source => if source ∈ residents then
        (ws source).bind fun w => (t.visit source w).1 else ws source },
    residents.flatMap fun source => t.sent source k)

end Tick

end SmartHome.SecurityLight.Watch
