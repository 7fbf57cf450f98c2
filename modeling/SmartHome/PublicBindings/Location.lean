/-
  The location selector of the public bindings (`location.py`): the signature of a location, the
  age of a location as it is tracked live, and as it is recovered from recorded states.

  A time is the number of microseconds since the epoch.  Finite floats are exact; zero has one sign.
-/
import SmartHome.Lib.Guard
import SmartHome.Lib.Number

namespace SmartHome.PublicBindings

open Verif

/-! ## Numbers -/

/-- The value of an attribute.  A missing attribute is `none`, as `attributes.get` has it. -/
inductive Value where
  | none
  | bool (b : Bool)
  | int (n : ℤ)
  | float (x : Number)
  | str (s : String)
  | other
  deriving DecidableEq

/-- The exceptions of `float`. -/
inductive Failure where
  | typeError | valueError | overflowError
  deriving DecidableEq, Repr

/-- The magnitude of an integer with 53 significant bits, ties to even. -/
def nearest (n : ℕ) : ℕ :=
  let unit := 2 ^ (n.log2 - 52)
  let up := unit < 2 * (n % unit) ∨ 2 * (n % unit) = unit ∧ n / unit % 2 = 1
  (n / unit + if up then 1 else 0) * unit

/-- `float(n)` -/
def ofInt (n : ℤ) : Except Failure Number :=
  if 2 ^ 1024 ≤ nearest n.natAbs then .error .overflowError
  else .ok (.fin (n.sign * nearest n.natAbs : ℤ))

section
variable (read : String → Option Number)

/-- `float(value)`, where `read` is how a text is read, if it is a number. -/
def float : Value → Except Failure Number
  | .bool b => .ok (.fin (if b then 1 else 0))
  | .int n => ofInt n
  | .float x => .ok x
  | .str s => orFail .valueError (read s)
  | .none | .other => .error .typeError

/-- `_number`: what is not a finite number is no number, but an integer may be too large. -/
def number (value : Value) : Except Failure (Option ℚ) :=
  match value with
  | .bool _ | .none => .ok none
  | _ => match float read value with
    | .ok x => .ok x.finite
    | .error .typeError | .error .valueError => .ok none
    | .error .overflowError => .error .overflowError

/-! ## Observations -/

abbrev Time := ℤ

structure LocationState where
  entityId : String
  attributes : String → Value
  lastChanged : Time
  lastUpdated : Time

structure Signature where
  latitude : ℚ
  longitude : ℚ
  gpsAccuracy : Option ℚ
  deriving DecidableEq

structure LocationObservation where
  signature : Signature
  observedAt : Time
  deriving DecidableEq

abbrev LocationObservations := String → Option LocationObservation

/-- `_location_signature` -/
def locationSignature (state : LocationState) : Except Failure (Option Signature) := do
  let latitude ← number read (state.attributes "latitude")
  let longitude ← number read (state.attributes "longitude")
  match latitude, longitude with
  | some latitude, some longitude =>
    let gpsAccuracy ← number read (state.attributes "gps_accuracy")
    return some ⟨latitude, longitude, gpsAccuracy⟩
  | _, _ => return none

/-- `observations[entity] = observation` -/
def LocationObservations.set (observations : LocationObservations) (entity : String)
    (observation : LocationObservation) : LocationObservations :=
  fun e => if e = entity then some observation else observations e

/-- `update_location_observation`: whether the observation changed, and the observations. -/
def updateLocationObservation (authoritativeObservedAt : Option Time) (authoritative : Bool)
    (observations : LocationObservations) (state : LocationState) :
    Except Failure (Bool × LocationObservations) := do
  match ← locationSignature read state with
  | none => return (false, observations)
  | some signature =>
    let previous := observations state.entityId
    let changed := previous.any fun p => p.signature ≠ signature
    let observedAt :=
      if authoritative then
        match authoritativeObservedAt, previous with
        | some at', _ => at'
        | none, some p => p.observedAt
        | none, none => 0
      else if changed then state.lastUpdated
      else (previous.map LocationObservation.observedAt).getD state.lastChanged
    return (changed || previous.any fun p => p.observedAt ≠ observedAt,
      observations.set state.entityId ⟨signature, observedAt⟩)

/-- One round of `recover_location_observation`. -/
def recoverStep (recovered : Option LocationObservation) (state : LocationState) :
    Except Failure (Option LocationObservation) := do
  match ← locationSignature read state with
  | none => return recovered
  | some signature =>
    if recovered.all fun r => r.signature ≠ signature then
      return some ⟨signature, state.lastUpdated⟩
    else return recovered

/-- `recover_location_observation` -/
def recoverLocationObservation (states : List LocationState) :
    Except Failure (Option LocationObservation) := states.foldlM (recoverStep read) none

/-- `update_location_observation` on a sequence of states, without a provider's time. -/
def track (states : List LocationState) : Except Failure LocationObservations :=
  states.foldlM (fun observations state => do
    let r ← updateLocationObservation read none false observations state
    return r.2) fun _ => none

end

end SmartHome.PublicBindings
