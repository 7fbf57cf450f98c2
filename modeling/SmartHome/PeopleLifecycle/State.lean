/-
  The state of the people lifecycle: `people-lifecycle-state-load` copies it into a message, and
  `people-lifecycle-finalize` merges the message back.

  Times are in milliseconds.  The values are JSON values, so their texts are equal exactly when
  they are.
-/
import Mathlib.Algebra.Order.Ring.Rat
import SmartHome.Lib.Table
import SmartHome.Lib.ThreeWay

namespace SmartHome.PeopleLifecycle

open Verif

/-! ## Entries -/

/-- The fields that are merged. -/
inductive Field where
  | arrivalArmed | externalSince | localExcursions | homeArrivalCandidates
  deriving DecidableEq, Repr

structure Excursion where
  startedAt : ℚ
  expiresAt : ℚ
  deriving DecidableEq

structure Candidate where
  observedAt : ℚ
  expiresAt : ℚ
  deriving DecidableEq

/-- The value of an entry; the time of `external_since` may be `null`. -/
abbrev Field.Value : Field → Type
  | .arrivalArmed => Bool
  | .externalSince => Option ℚ
  | .localExcursions => Excursion
  | .homeArrivalCandidates => Candidate

instance : (f : Field) → DecidableEq f.Value
  | .arrivalArmed => inferInstanceAs (DecidableEq Bool)
  | .externalSince => inferInstanceAs (DecidableEq (Option ℚ))
  | .localExcursions => inferInstanceAs (DecidableEq Excursion)
  | .homeArrivalCandidates => inferInstanceAs (DecidableEq Candidate)

/-- The entries of a field by role; an entry may be missing. -/
abbrev Entries (f : Field) := String → Option f.Value

/-- `Object.keys(data.people)` -/
def residents : List String := ["resident_primary", "resident_secondary"]

/-! ## The stores -/

/-- `security_people_recovery_v1` -/
structure Recovery where
  /-- The version is 1. -/
  current : Bool
  recentArrivals : List (String × ℚ)
  /-- A field may be missing. -/
  fields : (f : Field) → Option (Entries f)
  updatedAt : Option ℚ

/-- The two stores. -/
structure Store where
  /-- `people_arrival_armed` -/
  armed : Option (Entries .arrivalArmed)
  recovery : Option Recovery

/-- A field of the record, where it is one of this version. -/
def Store.field (s : Store) (f : Field) : Option (Entries f) :=
  (s.recovery.filter Recovery.current).bind (Recovery.fields · f)

/-- `policy`, in milliseconds. -/
structure Policy where
  futureMs : ℚ
  arrivalDedupeMs : ℚ
  excursionMaxMs : ℚ
  recoveryMs : ℚ

/-- `_people`: what the message holds of the state. -/
structure Data where
  testMode : Bool
  policy : Policy
  entries : (f : Field) → Entries f
  recentArrivals : List (String × ℚ)
  /-- `state_baseline` -/
  baseline : Option ((f : Field) → Entries f)

/-! ## Load -/

/-- The arrivals that are kept. -/
def freshArrivals (policy : Policy) (now : ℚ) (arrivals : List (String × ℚ)) : List (String × ℚ) :=
  arrivals.filter fun entry =>
    decide (entry.2 ≤ now + policy.futureMs) && decide (now - entry.2 ≤ policy.arrivalDedupeMs)

/-- `validExternalAt` -/
def ValidExternalAt (policy : Policy) (now at' : ℚ) : Prop := 0 < at' ∧ at' ≤ now + policy.futureMs

instance (policy : Policy) (now at' : ℚ) : Decidable (ValidExternalAt policy now at') := by
  unfold ValidExternalAt; infer_instance

def Excursion.Valid (policy : Policy) (now : ℚ) (x : Excursion) : Prop :=
  0 < x.startedAt ∧ x.startedAt ≤ now + policy.futureMs ∧ now ≤ x.expiresAt ∧
    x.expiresAt - x.startedAt ≤ policy.excursionMaxMs + 1000

instance (policy : Policy) (now : ℚ) (x : Excursion) : Decidable (x.Valid policy now) := by
  unfold Excursion.Valid; infer_instance

def Candidate.Valid (policy : Policy) (now : ℚ) (x : Candidate) : Prop :=
  0 < x.observedAt ∧ x.observedAt ≤ now + policy.futureMs ∧ now ≤ x.expiresAt ∧ x.observedAt < x.expiresAt ∧
    x.expiresAt - x.observedAt ≤ policy.recoveryMs + 1000

instance (policy : Policy) (now : ℚ) (x : Candidate) : Decidable (x.Valid policy now) := by
  unfold Candidate.Valid; infer_instance

/-- What is loaded for a resident. -/
def Store.loaded (policy : Policy) (now : ℚ) (s : Store) : (f : Field) → Entries f
  | .arrivalArmed => fun role =>
    -- the record is read where the other store is empty
    some (decide (((s.armed.or (s.field .arrivalArmed)).bind fun e => e role) = some true))
  | .externalSince => fun role =>
    some (((s.field .externalSince).bind fun e => e role).join.filter fun at' => ValidExternalAt policy now at')
  | .localExcursions => fun role =>
    ((s.field .localExcursions).bind fun e => e role).filter fun x => x.Valid policy now
  | .homeArrivalCandidates => fun role =>
    ((s.field .homeArrivalCandidates).bind fun e => e role).filter fun x => x.Valid policy now

/-- `people-lifecycle-state-load` -/
def load (testMode : Bool) (policy : Policy) (now : ℚ) (s : Store) : Data where
  testMode := testMode
  policy := policy
  entries f role := if role ∈ residents then s.loaded policy now f role else none
  recentArrivals := freshArrivals policy now ((s.recovery.filter Recovery.current).elim [] Recovery.recentArrivals)
  baseline := some fun f role => if role ∈ residents then s.loaded policy now f role else none

/-! ## Finalize -/

/-- The entries of a field after the merge. -/
def Data.merged (data : Data) (latest : Option Recovery) (f : Field) : Entries f :=
  match data.baseline, (latest.filter Recovery.current).bind (Recovery.fields · f) with
  | some baseline, some entries => fun role =>
    if role ∈ residents ∧ data.entries f role = baseline f role then entries role else data.entries f role
  | _, _ => data.entries f

/-- The stores after `people-lifecycle-finalize`. -/
def finalize (now : ℚ) (data : Data) (s : Store) : Store where
  armed := some (data.merged s.recovery .arrivalArmed)
  recovery := some {
    current := true
    -- the arrivals of the message win
    recentArrivals := freshArrivals data.policy now
      (data.recentArrivals.foldl (fun rows row => upsert Prod.fst row rows) (s.recovery.elim [] Recovery.recentArrivals))
    fields f := some (data.merged s.recovery f)
    updatedAt := some now }

end SmartHome.PeopleLifecycle
