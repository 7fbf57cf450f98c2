/-
  `people-refresh-decide`: the node that asks a phone for a new location, at most so often.

  Times are in milliseconds and numbers are exact.  The record is read back as it was stored, so
  its numbers are finite; what the node writes without reading it (the time of the last run) is
  left out, and so are the texts of the status and of the notice that is taken back.
-/
import Mathlib.Tactic.NormNum
import SmartHome.Lib.Number

namespace SmartHome.PeopleRefresh

open Verif

/-! ## Policy -/

/-- The part of `location_policy_v1` that the node reads, as `location-policy-validate` lets it be
    stored. -/
structure Policy where
  nearHomeRefreshMinutes : ℚ
  peopleRefreshMinutes : ℚ
  retrySeconds : ℚ
  attempts : ℕ
  backoffMinutes : ℚ
  backoffMaxMinutes : ℚ
  locationFreshMinutes : ℚ
  futureToleranceSeconds : ℚ
  /-- `people_approach_radius_m` and `people_approach_refresh_seconds` may be missing. -/
  approachRadiusM : Number
  approachRefreshSeconds : Number
  /-- `LIMITS` -/
  limits : (3 ≤ nearHomeRefreshMinutes ∧ nearHomeRefreshMinutes ≤ 14) ∧
    (3 ≤ peopleRefreshMinutes ∧ peopleRefreshMinutes ≤ 14) ∧
    (60 ≤ retrySeconds ∧ retrySeconds ≤ 300) ∧ (1 ≤ attempts ∧ attempts ≤ 5) ∧
    (15 ≤ backoffMinutes ∧ backoffMinutes ≤ 60) ∧
    (60 ≤ backoffMaxMinutes ∧ backoffMaxMinutes ≤ 240) ∧
    (1 ≤ locationFreshMinutes ∧ locationFreshMinutes ≤ 120) ∧
    0 ≤ futureToleranceSeconds ∧ futureToleranceSeconds ≤ 300

namespace Policy
variable (p : Policy)

/-- `DEFAULTS` -/
def defaults : Policy := ⟨5, 10, 60, 3, 30, 240, 15, 60, .fin 1500, .fin 60, by norm_num⟩

def retryMs : ℚ := p.retrySeconds * 1000

/-- How long a role waits after its last request. -/
def interval (attempts : ℕ) : ℚ :=
  if p.attempts ≤ attempts then
    min p.backoffMaxMinutes (p.backoffMinutes * 2 ^ min 10 (attempts - p.attempts)) * 60000
  else p.retryMs

/-- `validPast` -/
def validPast (now : ℚ) (x : Option ℚ) : Prop :=
  ∃ q ∈ x, 0 < q ∧ q ≤ now + p.futureToleranceSeconds * 1000

instance (now : ℚ) (x : Option ℚ) : Decidable (p.validPast now x) := by
  unfold validPast; infer_instance

end Policy

/-! ## Data -/

inductive Role where
  | residentPrimary | residentSecondary
  deriving DecidableEq, Repr

def Role.name : Role → String
  | residentPrimary => "resident_primary"
  | residentSecondary => "resident_secondary"

/-- A resident in `people_context_v1`; a flag tells whether the value is `true`. -/
structure Resident where
  ready : Bool
  stale : Bool
  /-- `Number(resident.updated_at)` -/
  updatedAt : Number
  state : Option String
  /-- `distance_m`, if it is a number -/
  distanceM : Option Number

/-- `people_context_v1` -/
structure People where
  resident : Role → Option Resident
  arrivalArmed : Role → Bool

inductive Diagnostic where
  | withoutNewEvidence | awaitingEvidence | currentEvidence
  deriving DecidableEq, Repr

/-- What the record keeps of a role. -/
structure Entry where
  failureNotified : Bool
  awaitingEvidence : Bool
  attempts : ℕ
  lastSuccessAt : Option ℚ
  observedAtBeforeRequest : Option ℚ
  lastRequestAt : Option ℚ
  nextAllowedAt : Option ℚ
  diagnostic : Option Diagnostic
  deriving DecidableEq

/-- `{}` -/
def Entry.new : Entry := ⟨false, false, 0, none, none, none, none, none⟩

/-- `observed_at_before_request ?? last_success_at ?? 0` -/
def Entry.priorObservation (e : Entry) : ℚ :=
  (e.observedAtBeforeRequest.or e.lastSuccessAt).getD 0

/-- A request for a location. -/
structure Request where
  role : Role
  test : Bool
  origin : String
  recovery : Bool
  attempt : ℕ
  requestedAt : ℚ
  transportRetryPending : Bool
  cooldownMinutes : ℚ
  deriving DecidableEq

/-- A message for the node. -/
structure Command where
  locationTest : Bool
  kind : Option String
  source : Option String
  reason : Option String
  /-- `resident_departure_force === true` -/
  departureForce : Bool
  testMode : Bool
  origin : Option String

namespace Command
variable (c : Command)

def explicit : Bool := c.kind = some "arrival_location_refresh"

def test : Bool := c.locationTest || c.testMode

/-- The node has something to do. -/
def handled : Bool := (c.explicit || c.kind = some "refresh_command") &&
  !(c.reason = some "resident_departure" && c.departureForce)

/-- The command is about the role. -/
def covers (r : Role) : Bool := !c.explicit || c.source = some r.name

end Command

/-! ## One role -/

/-- What the node sees when it looks at a role. -/
structure View where
  now : ℚ
  policy : Policy
  command : Command
  role : Role
  resident : Resident
  armed : Bool

namespace View
variable (v : View)

def observed : Option ℚ := v.resident.updatedAt.finite

/-- The location is recent. -/
def current : Prop := v.resident.ready = true ∧ v.resident.stale = false ∧
  v.policy.validPast v.now v.observed ∧
  ∀ o ∈ v.observed, v.now - o ≤ v.policy.locationFreshMinutes * 60000

instance : Decidable v.current := by unfold current; infer_instance

/-- There is new evidence: a recent location, observed after what is known. -/
def evidence (e : Entry) : Option ℚ :=
  if v.current then v.observed.filter fun o => e.priorObservation < o else none

/-- The entry with the new evidence. -/
def reset (e : Entry) : Entry :=
  match v.evidence e with
  | some o => { e with
      awaitingEvidence := false
      attempts := 0
      lastSuccessAt := some o
      observedAtBeforeRequest := some o }
  | none => e

def attempts (e : Entry) : ℕ := min 20 (v.reset e).attempts

/-- The last request, if its time is valid. -/
def lastRequest (e : Entry) : Option ℚ :=
  if v.policy.validPast v.now e.lastRequestAt then e.lastRequestAt else none

def pending (e : Entry) : Bool := (v.reset e).awaitingEvidence

def failed (e : Entry) : Bool := v.pending e && decide (v.policy.attempts ≤ v.attempts e ∧
  v.policy.retryMs ≤ v.now - (v.lastRequest e).getD 0)

def interval (e : Entry) : ℚ := v.policy.interval (v.attempts e)

def approachInterval : Number := v.policy.approachRefreshSeconds.times 1000

/-- The resident is on the way home and close. -/
def returningNearby : Prop := v.armed = true ∧ v.current ∧ v.resident.state ≠ some "home" ∧
  (∃ d ∈ v.resident.distanceM, d.finite.isSome ∧ ¬ d.lt (.fin 0) ∧ ¬ v.policy.approachRadiusM.lt d ∧
    v.policy.approachRadiusM ≠ .nan) ∧
  ∃ i ∈ v.approachInterval.finite, 0 < i

instance : Decidable v.returningNearby := by unfold returningNearby; infer_instance

def ageLimit : ℚ :=
  if v.returningNearby then v.approachInterval.finite.getD 0
  else (if v.resident.state = some "near_home" then v.policy.nearHomeRefreshMinutes
    else v.policy.peopleRefreshMinutes) * 60000

def due : Prop := v.command.explicit = true ∨ ¬ v.current ∨ ∃ o ∈ v.observed, v.ageLimit ≤ v.now - o

instance : Decidable v.due := by unfold due; infer_instance

def nextAllowedAt (e : Entry) : ℚ := ((v.lastRequest e).map (· + v.interval e)).getD v.now

/-- A location is asked for. -/
def asks (e : Entry) : Prop := v.due ∧ v.nextAllowedAt e - 500 ≤ v.now

instance (e : Entry) : Decidable (v.asks e) := by unfold asks; infer_instance

/-- The entry before a request. -/
def looked (e : Entry) : Entry := { v.reset e with
  failureNotified := false
  nextAllowedAt := some (v.nextAllowedAt e)
  diagnostic := some (if v.failed e then .withoutNewEvidence
    else if v.pending e then .awaitingEvidence else .currentEvidence) }

/-- The entry afterwards. -/
def entry (e : Entry) : Entry :=
  if v.asks e then { v.looked e with
    attempts := v.attempts e + 1
    awaitingEvidence := true
    diagnostic := some .awaitingEvidence
    lastRequestAt := some v.now
    observedAtBeforeRequest := if v.policy.validPast v.now v.observed then v.observed else none }
  else v.looked e

def request (e : Entry) : Option Request :=
  if v.asks e then some {
    role := v.role
    test := v.command.test
    origin := v.command.origin.getD "localizacao_pessoas"
    recovery := !decide v.current
    attempt := v.attempts e + 1
    requestedAt := v.now
    transportRetryPending := decide (v.attempts e + 1 < v.policy.attempts)
    cooldownMinutes := v.interval e / 60000 }
  else none

/-- A notice of an earlier version is taken back. -/
def alert (e : Entry) : Option Role := if e.failureNotified then some v.role else none

end View

/-! ## The node -/

/-- `security_people_location_refresh_v2` -/
abbrev Record := Role → Option Entry

/-- A run of the node: the message, the time and what the contexts hold. -/
structure Call where
  now : ℚ
  /-- The policy, if all its numbers are there. -/
  policy : Option Policy
  command : Command
  people : People

/-- What the node sees of a role, if it looks at the role. -/
def Call.view (c : Call) (r : Role) : Option View :=
  if c.command.handled && c.command.covers r then
    match c.policy, c.people.resident r with
    | some policy, some resident => some ⟨c.now, policy, c.command, r, resident, c.people.arrivalArmed r⟩
    | _, _ => none
  else none

/-- What is recorded of a role after the run. -/
def Call.entry (c : Call) (r : Role) (e : Option Entry) : Option Entry :=
  match c.view r with
  | some v => some (v.entry (e.getD .new))
  | none => e

def Call.record (c : Call) (record : Record) : Record := fun r => c.entry r (record r)

/-- What the node sends. -/
structure Output where
  primary : Option Request
  secondary : Option Request
  alerts : List Role
  waiting : Bool

/-- The node; there is an output if anything is sent. -/
def Call.output (c : Call) (record : Record) : Option Output :=
  let request r := (c.view r).bind fun v => v.request ((record r).getD .new)
  let alert r := (c.view r).bind fun v => v.alert ((record r).getD .new)
  let waiting r := ((c.record record r).bind Entry.diagnostic) = some .withoutNewEvidence
  let alerts := [alert .residentPrimary, alert .residentSecondary].filterMap id
  if (request .residentPrimary).isSome ∨ (request .residentSecondary).isSome ∨ alerts ≠ [] then
    some ⟨request .residentPrimary, request .residentSecondary, alerts,
      waiting .residentPrimary || waiting .residentSecondary⟩
  else none

/-- The two records, of production and of tests. -/
abbrev Records := Bool → Record

def Call.step (c : Call) (records : Records) : Records :=
  fun test => if test = c.command.test then c.record (records test) else records test

def run (calls : List Call) : Records :=
  calls.foldl (fun records c => c.step records) fun _ _ => none

end SmartHome.PeopleRefresh
