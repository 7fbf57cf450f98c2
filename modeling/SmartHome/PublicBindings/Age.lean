/-
  The age of a location that is recovered from history is the age that was tracked live.

  Both functions are folds over the states that keep the first state of the final run of equal
  signatures (`observationOf`); they differ in the time that they take for the very first one.
-/
import SmartHome.Lib.Runs
import SmartHome.PublicBindings.Location

namespace SmartHome.PublicBindings

open Verif

variable (read : String → Option Number)

/-! ## States that can be read -/

/-- An integer that no float can hold. -/
def Value.TooLarge : Value → Prop
  | .int n => 2 ^ 1024 ≤ nearest n.natAbs
  | _ => False

instance (v : Value) : Decidable v.TooLarge := by unfold Value.TooLarge; split <;> infer_instance

theorem number_error {v : Value} : (∃ e, number read v = .error e) ↔ v.TooLarge := by
  cases v with
  | int n =>
    by_cases h : 2 ^ 1024 ≤ nearest n.natAbs
    · have hn : ofInt n = .error .overflowError := if_pos h
      exact iff_of_true ⟨.overflowError, by simp only [number, float, hn]⟩ h
    · have hn : ofInt n = .ok (.fin (n.sign * nearest n.natAbs : ℤ)) := if_neg h
      exact iff_of_false (by simp [number, float, hn]) h
  | str s =>
    cases hs : read s <;> simp [number, float, orFail, hs, Value.TooLarge]
  | none => simp [number, Value.TooLarge]
  | bool b => simp [number, Value.TooLarge]
  | float x => simp [number, float, Value.TooLarge]
  | other => simp [number, float, Value.TooLarge]

/-- A coordinate, or the accuracy beside two coordinates, is too large. -/
def LocationState.Overflows (s : LocationState) : Prop :=
  (s.attributes "latitude").TooLarge ∨ (s.attributes "longitude").TooLarge ∨
    (∃ x, number read (s.attributes "latitude") = .ok (some x)) ∧
    (∃ y, number read (s.attributes "longitude") = .ok (some y)) ∧
    (s.attributes "gps_accuracy").TooLarge

theorem locationSignature_error {s : LocationState} :
    (∃ e, locationSignature read s = .error e) ↔ s.Overflows read := by
  unfold LocationState.Overflows locationSignature
  simp only [← number_error read]
  cases h1 : number read (s.attributes "latitude") with
  | error e => simp [bind, Except.bind]
  | ok latitude =>
    cases h2 : number read (s.attributes "longitude") with
    | error e => simp [bind, Except.bind]
    | ok longitude =>
      cases latitude with
      | none => simp
      | some x =>
        cases longitude with
        | none => simp
        | some y =>
          cases h3 : number read (s.attributes "gps_accuracy") with
          | error e => simp [bind, Except.bind]
          | ok accuracy => simp

/-! ## The first state of the final run -/

/-- The states with a location, and their signatures. -/
def located (states : List LocationState) : List (Signature × LocationState) :=
  states.filterMap fun s =>
    match locationSignature read s with
    | .ok (some signature) => some (signature, s)
    | _ => none

/-- What the final run of equal signatures says, where `time` is the time of its first state; it
    depends on whether the run goes back to the first state of all. -/
def observationOf (time : Bool → LocationState → Time) (vs : List (Signature × LocationState)) :
    Option LocationObservation :=
  match finalRun Prod.fst vs with
  | [] => none
  | (signature, first) :: rest => some ⟨signature, time (decide (rest.length + 1 = vs.length)) first⟩

/-- The time of a run, live: `last_changed` if the signature never changed. -/
def liveTime (whole : Bool) (first : LocationState) : Time :=
  if whole then first.lastChanged else first.lastUpdated

/-- The time of a run in recorded states. -/
def recordedTime (_ : Bool) (first : LocationState) : Time := first.lastUpdated

section
variable (time : Bool → LocationState → Time) (vs : List (Signature × LocationState))

theorem observationOf_signature :
    (observationOf time vs).map LocationObservation.signature = vs.getLast?.map Prod.fst := by
  unfold observationOf
  cases h : finalRun Prod.fst vs with
  | nil =>
    have : vs = [] := by
      by_contra hne
      exact finalRun_ne_nil hne h
    simp [this]
  | cons v rest =>
    have hkey := finalRun_key Prod.fst vs v (by simp [h])
    simp [hkey]

/-- A further state with a location. -/
theorem observationOf_concat (signature : Signature) (s : LocationState) :
    observationOf time (vs ++ [(signature, s)]) =
      match observationOf time vs with
      | none => some ⟨signature, time true s⟩
      | some p => if p.signature = signature then some p else some ⟨signature, time false s⟩ := by
  have hsig := observationOf_signature time vs
  unfold observationOf at hsig ⊢
  rw [finalRun_concat]
  cases h : finalRun Prod.fst vs with
  | nil =>
    have : vs = [] := by
      by_contra hne
      exact finalRun_ne_nil hne h
    simp [this]
  | cons v rest =>
    rw [h] at hsig
    have hne : vs ≠ [] := by
      rintro rfl
      simp at h
    have hlen : 0 < vs.length := List.length_pos_iff.2 hne
    simp only [Option.map_some] at hsig
    rw [← hsig]
    by_cases hk : v.1 = signature
    · simp [hk]
    · have hne' : vs.length ≠ 0 := hlen.ne'
      simp [hk, hne']

end

/-! ## The two folds -/

section
variable {read} {states : List LocationState} {s : LocationState} {entity : String}
variable {observations : LocationObservations}

theorem located_concat : located read (states ++ [s]) = located read states ++
    match locationSignature read s with
    | .ok (some signature) => [(signature, s)]
    | _ => [] := by
  unfold located
  rw [List.filterMap_append]
  congr 1
  rw [List.filterMap_cons, List.filterMap_nil]
  split <;> rename_i h
  · split at h
    · cases h
    · rfl
  · split at h
    · cases h
      rfl
    · cases h

/-- One state, tracked live. -/
theorem track_concat {o : Option Signature} (hs : locationSignature read s = .ok o)
    (he : s.entityId = entity) (ht : track read states = .ok observations)
    (ho : observations entity = observationOf liveTime (located read states)) :
    ∃ observations', track read (states ++ [s]) = .ok observations' ∧
      observations' entity = observationOf liveTime (located read (states ++ [s])) := by
  have htrack : track read (states ++ [s]) = (do
      let r ← updateLocationObservation read none false observations s
      return r.2) := by
    rw [track, List.foldlM_append]
    rw [track] at ht
    rw [ht]
    simp
  rw [htrack, located_concat, hs]
  unfold updateLocationObservation
  rw [hs, he]
  cases o with
  | none => exact ⟨observations, rfl, by simpa using ho⟩
  | some signature =>
    simp only [ok_bind, pure_eq_ok]
    refine ⟨_, rfl, ?_⟩
    rw [observationOf_concat, ← ho]
    cases hp : observations entity with
    | none => simp [LocationObservations.set, liveTime]
    | some p =>
      by_cases hsig : p.signature = signature
      · subst hsig
        simp [LocationObservations.set]
      · simp [LocationObservations.set, hsig, liveTime]

/-- One state, recovered. -/
theorem recover_concat {o : Option Signature} (hs : locationSignature read s = .ok o)
    (hr : recoverLocationObservation read states =
      .ok (observationOf recordedTime (located read states))) :
    recoverLocationObservation read (states ++ [s]) =
      .ok (observationOf recordedTime (located read (states ++ [s]))) := by
  have hrec : recoverLocationObservation read (states ++ [s]) =
      recoverStep read (observationOf recordedTime (located read states)) s := by
    rw [recoverLocationObservation, List.foldlM_append]
    rw [recoverLocationObservation] at hr
    rw [hr, ok_bind, List.foldlM_cons]
    cases recoverStep read (observationOf recordedTime (located read states)) s <;> rfl
  rw [hrec, located_concat, hs]
  unfold recoverStep
  rw [hs]
  cases o with
  | none => simp
  | some signature =>
    simp only [ok_bind]
    rw [observationOf_concat]
    cases hp : observationOf recordedTime (located read states) with
    | none => simp [recordedTime]
    | some p =>
      by_cases hsig : p.signature = signature
      · simp [hsig]
      · simp [hsig, recordedTime]

/-- **Both folds keep the first state of the final run.** -/
theorem folds_eq (he : ∀ s ∈ states, s.entityId = entity)
    (hs : ∀ s ∈ states, ¬ s.Overflows read) :
    (∃ observations, track read states = .ok observations ∧
      observations entity = observationOf liveTime (located read states)) ∧
    recoverLocationObservation read states =
      .ok (observationOf recordedTime (located read states)) := by
  induction states using List.reverseRecOn with
  | nil => exact ⟨⟨fun _ => none, rfl, rfl⟩, rfl⟩
  | append_singleton states s ih =>
    obtain ⟨⟨observations, ht, ho⟩, hr⟩ := ih (fun t h => he t (List.mem_append_left _ h))
      fun t h => hs t (List.mem_append_left _ h)
    have hlast : s ∈ states ++ [s] := List.mem_append_right _ (List.mem_singleton_self s)
    have hok : ∃ o, locationSignature read s = .ok o := by
      cases h : locationSignature read s with
      | error e => exact absurd ((locationSignature_error read).1 ⟨e, h⟩) (hs s hlast)
      | ok o => exact ⟨o, rfl⟩
    obtain ⟨o, hok⟩ := hok
    exact ⟨track_concat hok (he s hlast) ht ho, recover_concat hok hr⟩

/-- A state that cannot be read stops the tracking. -/
theorem track_stops (h : s ∈ states) (hs : s.Overflows read) :
    ∀ observations, track read states ≠ .ok observations := by
  obtain ⟨e, hse⟩ := (locationSignature_error read).2 hs
  obtain ⟨before, after, rfl⟩ := List.append_of_mem h
  intro observations ht
  rw [track, List.foldlM_append, bind_ok] at ht
  obtain ⟨o, -, ht⟩ := ht
  rw [List.foldlM_cons, bind_ok] at ht
  obtain ⟨o', ho, -⟩ := ht
  rw [bind_ok] at ho
  obtain ⟨r, hr, -⟩ := ho
  rw [updateLocationObservation, hse] at hr
  cases hr

/-- A state that brings no location, or the last one again. -/
def Repeats (read : String → Option Number) (states : List LocationState) (s : LocationState) : Prop :=
  locationSignature read s = .ok none ∨ ∃ signature, locationSignature read s = .ok (some signature) ∧
    (located read states).getLast?.map Prod.fst = some signature

theorem Repeats.not_overflows (h : Repeats read states s) : ¬ s.Overflows read := by
  rw [← locationSignature_error]
  rintro ⟨e, he⟩
  rcases h with h | ⟨signature, h, -⟩
  · rw [he] at h
    cases h
  · rw [he] at h
    cases h

/-- States that repeat the last location do not change the observation. -/
theorem observationOf_repeats (time : Bool → LocationState → Time) {more : List LocationState}
    (h : ∀ s ∈ more, Repeats read states s) :
    observationOf time (located read (states ++ more)) = observationOf time (located read states) := by
  induction more using List.reverseRecOn with
  | nil => rw [List.append_nil]
  | append_singleton more s ih =>
    have ih := ih fun t ht => h t (List.mem_append_left _ ht)
    rw [← List.append_assoc, located_concat]
    rcases h s (List.mem_append_right _ (List.mem_singleton_self s)) with hn | ⟨signature, hs, hlast⟩
    · simpa [hn] using ih
    · rw [← observationOf_signature time, Option.map_eq_some_iff] at hlast
      obtain ⟨p, hp, hsig⟩ := hlast
      simp [hs, observationOf_concat, ih, hp, hsig]

/-- The signature changed at least once. -/
def Changed (vs : List (Signature × LocationState)) : Prop := ∃ v ∈ vs, ∃ w ∈ vs, v.1 ≠ w.1

/-- After a change, the time of the first state of all plays no part. -/
theorem observationOf_changed {vs : List (Signature × LocationState)} (h : Changed vs) :
    observationOf liveTime vs = observationOf recordedTime vs := by
  unfold observationOf
  cases hr : finalRun Prod.fst vs with
  | nil => rfl
  | cons v rest =>
    have hne : rest.length + 1 ≠ vs.length := by
      intro hlen
      have hall : finalRun Prod.fst vs = vs :=
        (finalRun_suffix vs).eq_of_length (by rw [hr, List.length_cons, hlen])
      obtain ⟨a, ha, b, hb, hab⟩ := h
      have h1 := finalRun_key Prod.fst vs a (by rwa [hall])
      have h2 := finalRun_key Prod.fst vs b (by rwa [hall])
      exact hab (Option.some.inj (h1.symm.trans h2))
    simp [liveTime, recordedTime, hne]

end

/-! ## The age -/

/-- Tracking the states yields the last location and the time since which it is known, recovering
    them yields the same once the location changed, and what repeats the location keeps the time. -/
structure AgeKept (entity : String) (states : List LocationState) : Prop where
  tracked : ∃ observations, track read states = .ok observations ∧
    observations entity = observationOf liveTime (located read states) ∧
    (observations entity).map LocationObservation.signature =
      (located read states).getLast?.map Prod.fst
  recovered : Changed (located read states) → ∃ observations, track read states = .ok observations ∧
    recoverLocationObservation read states = .ok (observations entity)
  extended : ∀ more, (∀ s ∈ more, s.entityId = entity ∧ Repeats read states s) →
    ∃ observations observations', track read states = .ok observations ∧
      track read (states ++ more) = .ok observations' ∧ observations' entity = observations entity ∧
      recoverLocationObservation read (states ++ more) = recoverLocationObservation read states

/-- **Location age recovered from history is the age tracked live**, for exactly the sequences
    without an integer that is too large for a float. -/
theorem location_age_kept {entity : String} {states : List LocationState}
    (he : ∀ s ∈ states, s.entityId = entity) :
    AgeKept read entity states ↔ ∀ s ∈ states, ¬ s.Overflows read := by
  constructor
  · rintro ⟨⟨observations, ht, -⟩, -, -⟩ s hs hover
    exact track_stops hs hover observations ht
  · intro hs
    obtain ⟨⟨observations, ht, ho⟩, hr⟩ := folds_eq he hs
    refine ⟨⟨observations, ht, ho, ?_⟩, fun hc => ⟨observations, ht, ?_⟩, fun more hmore => ?_⟩
    · rw [ho, observationOf_signature]
    · rw [hr, ho, observationOf_changed hc]
    · have he' : ∀ s ∈ states ++ more, s.entityId = entity := fun s h =>
        (List.mem_append.1 h).elim (he s) fun h => (hmore s h).1
      have hs' : ∀ s ∈ states ++ more, ¬ s.Overflows read := fun s h =>
        (List.mem_append.1 h).elim (hs s) fun h => (hmore s h).2.not_overflows
      obtain ⟨⟨observations', ht', ho'⟩, hr'⟩ := folds_eq he' hs'
      have hrep : ∀ time, observationOf time (located read (states ++ more)) =
          observationOf time (located read states) :=
        fun time => observationOf_repeats time fun s h => (hmore s h).2
      exact ⟨observations, observations', ht, ht', by rw [ho', ho, hrep],
        by rw [hr', hr, hrep]⟩

/-- A report of a phone. -/
def report (latitude longitude : Value) (at' : Time) : LocationState where
  entityId := "device_tracker.phone"
  attributes k := if k = "latitude" then latitude else if k = "longitude" then longitude else .none
  lastChanged := at' - 5
  lastUpdated := at'

theorem location_age_kept_sample : AgeKept (fun _ => none) "device_tracker.phone"
    [report (.float (.fin 1)) (.int 7) 10, report (.float .nan) (.int 7) 20,
      report (.float (.fin 2)) (.int 7) 30, report (.float (.fin 2)) (.int 7) 40,
      report .none (.bool true) 50] := by
  refine (location_age_kept _ (by decide)).2 fun s hs h => ?_
  have hsmall : ∀ s ∈ [report (.float (.fin 1)) (.int 7) 10, report (.float .nan) (.int 7) 20,
      report (.float (.fin 2)) (.int 7) 30, report (.float (.fin 2)) (.int 7) 40,
      report .none (.bool true) 50], ∀ k ∈ ["latitude", "longitude", "gps_accuracy"],
        ¬ (s.attributes k).TooLarge := by decide +kernel
  rcases h with h | h | ⟨-, -, h⟩
  · exact hsmall s hs _ (by decide) h
  · exact hsmall s hs _ (by decide) h
  · exact hsmall s hs _ (by decide) h

/-- A latitude of `10 ^ 400` stops the tracking with an `OverflowError`. -/
theorem location_age_lost :
    ¬ AgeKept (fun _ => none) "device_tracker.phone" [report (.int (10 ^ 400)) (.int 7) 10] := by
  rintro ⟨⟨observations, ht, -⟩, -, -⟩
  exact track_stops (List.mem_singleton_self _) (.inl (by decide +kernel)) observations ht

end SmartHome.PublicBindings
