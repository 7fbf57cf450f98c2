/-
  What the requests of a role look like over whole runs: when the counter is reset, how it grows,
  and how long the role waits.

  A log keeps, beside the records, what happened to each role, newest first.  `View.tracks` says
  that the record agrees with the log, and that one look at a role adds only events that follow
  from those before (`Event.Follows`).
-/
import Mathlib.Data.List.Induction
import Mathlib.Tactic.Linarith
import Mathlib.Tactic.Positivity
import SmartHome.PeopleRefresh.Decide

namespace SmartHome.PeopleRefresh

open Verif

/-! ## Events -/

/-- What happened to a role when the node looked at it. -/
inductive Event where
  /-- New evidence reset the counter. -/
  | reset (v : View) (observed : ℚ)
  /-- A location was asked for, for which time. -/
  | request (v : View) (attempt : ℕ)

/-- The observation that a request records. -/
def View.recorded (v : View) : Option ℚ :=
  if v.policy.validPast v.now v.observed then v.observed else none

/-- The counter after the events. -/
def counter : List Event → ℕ
  | [] => 0
  | .reset _ _ :: _ => 0
  | .request _ attempt :: _ => attempt

/-- The evidence of the last reset. -/
def lastReset : List Event → Option ℚ
  | [] => none
  | .reset _ observed :: _ => some observed
  | .request _ _ :: es => lastReset es

/-- What the last request or reset recorded. -/
def lastRecorded : List Event → Option ℚ
  | [] => none
  | .reset _ observed :: _ => some observed
  | .request v _ :: _ => v.recorded

/-- What new evidence has to be newer than: what the last request recorded, or else the evidence
    of the last reset. -/
def baseline (es : List Event) : ℚ := ((lastRecorded es).or (lastReset es)).getD 0

/-- The time of the last request. -/
def lastAsked : List Event → Option ℚ
  | [] => none
  | .reset _ _ :: es => lastAsked es
  | .request v _ :: _ => some v.now

/-- The event may come after the others. -/
def Event.Follows : Event → List Event → Prop
  | .reset v observed, older => v.current ∧ v.observed = some observed ∧ baseline older < observed
  | .request v attempt, older => attempt = min 20 (counter older) + 1 ∧
    ∀ t ∈ lastAsked older, t + v.policy.interval (min 20 (counter older)) - 500 ≤ v.now

/-- Every event follows from those before. -/
def Sound (es : List Event) : Prop := ∀ newer x older, es = newer ++ x :: older → x.Follows older

theorem sound_nil : Sound [] := by
  intro newer x older h
  cases newer <;> cases h

theorem Sound.cons {x : Event} {es : List Event} (h : Sound es) (hx : x.Follows es) :
    Sound (x :: es) := by
  intro newer y older he
  cases newer with
  | nil =>
    cases he
    exact hx
  | cons z newer =>
    rw [List.cons_append, List.cons.injEq] at he
    exact h newer y older he.2

/-! ## One look at a role -/

namespace View
variable (v : View) (e : Entry)

/-- What happens, newest first. -/
def events : List Event :=
  (if v.asks e then [.request v (v.attempts e + 1)] else []) ++
    ((v.evidence e).map (Event.reset v)).toList

end View

/-- The entry agrees with the events up to a time. -/
structure Tracks (e : Entry) (es : List Event) (now : ℚ) : Prop where
  attempts : e.attempts = counter es
  recorded : e.observedAtBeforeRequest = lastRecorded es
  success : e.lastSuccessAt = lastReset es
  asked : e.lastRequestAt = lastAsked es
  past : ∀ t ∈ lastAsked es, 0 < t ∧ t ≤ now

theorem Tracks.later {e : Entry} {es : List Event} {now now' : ℚ} (h : Tracks e es now)
    (hn : now ≤ now') : Tracks e es now' :=
  { h with past := fun t ht => ⟨(h.past t ht).1, (h.past t ht).2.trans hn⟩ }

namespace View
variable {v : View} {e : Entry} {es : List Event}

/-- New evidence is entered. -/
theorem tracks_reset (ht : Tracks e es v.now) (hs : Sound es) :
    Tracks (v.reset e) (((v.evidence e).map (Event.reset v)).toList ++ es) v.now ∧
      Sound (((v.evidence e).map (Event.reset v)).toList ++ es) := by
  unfold reset
  cases h : v.evidence e with
  | none => exact ⟨ht, hs⟩
  | some o =>
    refine ⟨⟨rfl, rfl, rfl, ht.asked, ht.past⟩, hs.cons ?_⟩
    unfold evidence at h
    split at h
    · rename_i hc
      obtain ⟨ho, hlt⟩ := Option.filter_eq_some_iff.1 h
      refine ⟨hc, ho, ?_⟩
      have hprior : e.priorObservation = baseline es := by
        rw [Entry.priorObservation, ht.recorded, ht.success]
        rfl
      rw [← hprior]
      exact of_decide_eq_true hlt
    · cases h

/-- A request counts what is recorded after the reset, and waits for the last request. -/
theorem follows_request (hp : 0 ≤ v.policy.futureToleranceSeconds) (ht : Tracks (v.reset e) es v.now)
    (hasked : e.lastRequestAt = (v.reset e).lastRequestAt) (ha : v.asks e) :
    (Event.request v (v.attempts e + 1)).Follows es := by
  have hattempts : v.attempts e = min 20 (counter es) := by rw [attempts, ht.attempts]
  refine ⟨by rw [hattempts], fun t hlast => ?_⟩
  obtain ⟨hpos, hle⟩ := ht.past t hlast
  have hlastAt : e.lastRequestAt = some t := by rw [hasked, ht.asked, hlast]
  have hvalid : v.policy.validPast v.now e.lastRequestAt := by
    refine ⟨t, hlastAt, hpos, ?_⟩
    have : 0 ≤ v.policy.futureToleranceSeconds * 1000 := by positivity
    linarith
  have hnext : v.nextAllowedAt e = t + v.interval e := by
    rw [nextAllowedAt, lastRequest, if_pos hvalid, hlastAt]
    rfl
  have := ha.2
  rw [hnext, interval, hattempts] at this
  exact this

theorem reset_lastRequestAt : (v.reset e).lastRequestAt = e.lastRequestAt := by
  unfold reset
  cases v.evidence e <;> rfl

/-- **One look at a role** keeps the record and the log in agreement. -/
theorem tracks_look (hnow : 0 < v.now) (ht : Tracks e es v.now) (hs : Sound es) :
    Tracks (v.entry e) (v.events e ++ es) v.now ∧ Sound (v.events e ++ es) := by
  obtain ⟨htr, hsr⟩ := tracks_reset ht hs
  have hp : 0 ≤ v.policy.futureToleranceSeconds := v.policy.limits.2.2.2.2.2.2.2.1
  unfold entry events
  by_cases ha : v.asks e
  · have hf := follows_request hp htr reset_lastRequestAt.symm ha
    rw [if_pos ha, if_pos ha]
    refine ⟨⟨rfl, rfl, ?_, rfl, ?_⟩, hsr.cons hf⟩
    · exact htr.success
    · rintro t ⟨⟩
      exact ⟨hnow, le_rfl⟩
  · rw [if_neg ha, if_neg ha]
    exact ⟨⟨htr.attempts, htr.recorded, htr.success, htr.asked, htr.past⟩, hsr⟩

end View

/-! ## Runs -/

/-- The records, and what happened to each role in production and in tests, newest first. -/
structure Log where
  records : Records
  events : Bool → Role → List Event

def Log.empty : Log := ⟨fun _ _ => none, fun _ _ => []⟩

/-- What a run of the node adds to the log of a role. -/
def Call.events (c : Call) (records : Records) (test : Bool) (r : Role) : List Event :=
  if test = c.command.test then
    match c.view r with
    | some v => v.events ((records test r).getD .new)
    | none => []
  else []

def Log.step (l : Log) (c : Call) : Log where
  records := c.step l.records
  events test r := c.events l.records test r ++ l.events test r

def Log.run (calls : List Call) : Log := calls.foldl Log.step Log.empty

theorem Log.run_concat (calls : List Call) (c : Call) :
    Log.run (calls ++ [c]) = (Log.run calls).step c := by
  rw [Log.run, List.foldl_append]
  rfl

/-- The records of a log are those of the run. -/
theorem Log.records_run (calls : List Call) : (Log.run calls).records = PeopleRefresh.run calls := by
  induction calls using List.reverseRecOn with
  | nil => rfl
  | append_singleton calls c ih =>
    rw [Log.run_concat, PeopleRefresh.run, List.foldl_append]
    show c.step (Log.run calls).records = c.step (PeopleRefresh.run calls)
    rw [ih]

/-- The clock shows a time after the epoch, and does not go back. -/
def Clocked (calls : List Call) : Prop :=
  (∀ c ∈ calls, 0 < c.now) ∧ calls.Pairwise fun c d => c.now ≤ d.now

theorem Call.view_now {c : Call} {r : Role} {v : View} (h : c.view r = some v) : v.now = c.now := by
  unfold Call.view at h
  split at h
  · split at h
    · cases h
      rfl
    · cases h
  · cases h

/-- **The records agree with the log, and every event follows from those before.** -/
theorem Log.sound_run {calls : List Call} (h : Clocked calls) (test : Bool) (r : Role) (now : ℚ)
    (hnow : ∀ c ∈ calls, c.now ≤ now) :
    Tracks (((Log.run calls).records test r).getD .new) ((Log.run calls).events test r) now ∧
      Sound ((Log.run calls).events test r) := by
  induction calls using List.reverseRecOn generalizing now with
  | nil =>
    refine ⟨⟨rfl, rfl, rfl, rfl, ?_⟩, sound_nil⟩
    rintro t ⟨⟩
  | append_singleton calls c ih =>
    obtain ⟨hpos, hpair⟩ := h
    rw [List.pairwise_append] at hpair
    have hcalls : Clocked calls := ⟨fun d hd => hpos d (List.mem_append_left _ hd), hpair.1⟩
    have hc : c ∈ calls ++ [c] := List.mem_append_right _ (List.mem_singleton_self c)
    obtain ⟨htrack, hsound⟩ := ih hcalls c.now fun d hd => hpair.2.2 d hd c (List.mem_singleton_self c)
    rw [Log.run_concat]
    show Tracks ((c.step (Log.run calls).records test r).getD .new)
      (c.events (Log.run calls).records test r ++ (Log.run calls).events test r) now ∧
      Sound (c.events (Log.run calls).records test r ++ (Log.run calls).events test r)
    unfold Call.step Call.events
    by_cases ht : test = c.command.test
    swap
    · rw [if_neg ht, if_neg ht]
      exact ⟨htrack.later (hnow c hc), hsound⟩
    rw [if_pos ht, if_pos ht]
    unfold Call.record Call.entry
    cases hv : c.view r with
    | none => exact ⟨htrack.later (hnow c hc), hsound⟩
    | some v =>
      have hvnow : v.now = c.now := Call.view_now hv
      rw [← hvnow] at htrack
      have hlook := View.tracks_look (hvnow ▸ hpos c hc) htrack hsound
      exact ⟨hlook.1.later (hvnow ▸ hnow c hc), hlook.2⟩

/-- The node runs for the primary resident, who was seen at a time. -/
def look (now : ℚ) (kind : String) (seen : ℚ) (stale : Bool) : Call where
  now := now
  policy := some .defaults
  command := ⟨false, some kind, some "resident_primary", none, false, false, none⟩
  people := ⟨fun r => if r = .residentPrimary then some ⟨true, stale, .fin seen, some "home", none⟩
    else none, fun _ => false⟩

/-- A current location, a request that sees an older one, and a current location in between. -/
def regressing : List Call :=
  [look 1000000 "refresh_command" 900000 false, look 1001000 "arrival_location_refresh" 500000 true,
    look 1100000 "refresh_command" 600000 false]

theorem clocked_regressing : Clocked regressing :=
  ⟨by decide +kernel, by decide +kernel⟩

/-- A request every four hours that is never answered. -/
def unanswered : List Call :=
  (List.range 22).map fun i => look (20000000 + 14400000 * i) "arrival_location_refresh" 1 true

/-- What an event records, and the counter of a request. -/
def Event.summary : Event → Option ℚ × Option ℕ
  | .reset _ observed => (some observed, none)
  | .request v attempt => (v.recorded, some attempt)

end SmartHome.PeopleRefresh
