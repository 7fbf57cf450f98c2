/-
  How many probes a resident's phone gets for one position, and how often.

  A log keeps, beside the flow, the positions that the watch has seen and the probes that it sent,
  newest first.  The budget of two probes lives in the record of the watch; it holds as long as the
  record starts afresh only when the budget is unspent (`Log.Steady`).
-/
import Mathlib.Data.List.Induction
import Mathlib.Tactic.Linarith
import SmartHome.SecurityLight.Watch

namespace SmartHome.SecurityLight.Watch

open Verif

/-! ## Events -/

/-- What concerns a resident: a position newer than all before, or a probe. -/
inductive Event where
  | seen (observed : ℚ)
  | probe (at' : ℚ)
  deriving DecidableEq

/-- The newest position. -/
def newest : List Event → Option ℚ
  | [] => none
  | .seen observed :: _ => some observed
  | .probe _ :: es => newest es

/-- The probes since the newest position. -/
def since : List Event → List ℚ
  | .probe at' :: es => at' :: since es
  | _ => []

/-- The times of the probes that are sent. -/
def probeTimes (ps : List Probe) : List ℚ := ps.filterMap fun
  | .refresh _ _ _ at' => some at'
  | .failed _ _ _ => none

namespace Tick
variable (t : Tick) (source : String)

/-- A position newer than all before. -/
def sight (es : List Event) : List Event :=
  match t.current source with
  | some o => if ∀ s ∈ newest es, s < o then [.seen o] else []
  | none => []

variable {t source}

theorem sight_new {es : List Event} {o : ℚ} (hc : t.current source = some o)
    (hn : ∀ s ∈ newest es, s < o) : t.sight source es = [.seen o] := by
  unfold sight
  rw [hc]
  exact if_pos hn

theorem sight_cases (t : Tick) (source : String) (es : List Event) :
    t.sight source es = [] ∨ ∃ o, t.sight source es = [.seen o] := by
  unfold sight
  cases t.current source with
  | none => exact .inl rfl
  | some o =>
    simp only
    split
    · exact .inr ⟨o, rfl⟩
    · exact .inl rfl

variable (t source)

/-- What a tick adds to the log of a resident, newest first. -/
def events (k : Kept) (es : List Event) : List Event :=
  (if source ∈ residents then (probeTimes (t.sent source k)).map Event.probe else []) ++ t.sight source es

end Tick

/-! ## One tick -/

/-- What a tick does to a record: the watch ends, no probe is sent, or one is. -/
inductive Tick.Visited (t : Tick) (source : String) (w : Record) : Option Record × List Probe → Prop
  | ended : Visited t source w (none, [])
  | silent {w' : Record} {ps : List Probe} : probeTimes ps = [] →
      w'.attempts = (t.observed source w).attempts →
      w'.lastRefreshAt = (t.observed source w).lastRefreshAt → Visited t source w (some w', ps)
  | probed {w' : Record} {ps : List Probe} : probeTimes ps = [t.now] →
      (t.observed source w).attempts < 2 → t.retryReady (t.observed source w) →
      w'.attempts = (t.observed source w).attempts + 1 → w'.lastRefreshAt = some t.now →
      Visited t source w (some w', ps)

theorem Tick.visited (t : Tick) (source : String) (w : Record) :
    t.Visited source w (t.visit source w) := by
  unfold Tick.visit
  split
  · exact .ended
  · split
    · exact .silent rfl rfl rfl
    · -- a report of failure is no probe
      simp only
      split
      · rename_i hp
        obtain ⟨hattempts, hready, -⟩ := hp
        refine .probed ?_ hattempts hready rfl rfl
        split <;> rfl
      · refine .silent ?_ rfl rfl
        split <;> rfl

/-! ## The budget -/

/-- At most two probes for one position, a minute apart. -/
structure Bounded (es : List Event) : Prop where
  two : (since es).length ≤ 2
  spaced : (since es).Pairwise fun later earlier => earlier + retryMs ≤ later

/-- The record knows of the probes that were sent. -/
structure Knows (w : Record) (es : List Event) : Prop where
  counts : (since es).length ≤ w.attempts
  attempts : w.attempts ≤ 2
  last : ∀ p ∈ (since es).head?, w.lastRefreshAt = some p

/-- The log of a resident beside the record. -/
structure Kept.Budget (w : Option Record) (es : List Event) : Prop where
  bounded : Bounded es
  positive : ∀ p ∈ since es, 0 < p
  knows : ∀ w' ∈ w, Knows w' es

section
variable {w : Option Record} {es : List Event}

theorem Kept.Budget.unspent (h : since es = []) {w' : Record} (ha : w'.attempts = 0) : Knows w' es where
  counts := by simp [h]
  attempts := by omega
  last p hp := by simp [h] at hp

/-- A position newer than all before starts a new budget. -/
theorem Kept.Budget.sight (h : Kept.Budget w es) (t : Tick) (source : String) :
    Bounded (t.sight source es ++ es) ∧ (∀ p ∈ since (t.sight source es ++ es), 0 < p) ∧
      (since (t.sight source es ++ es) = [] ∨ t.sight source es = []) := by
  rcases t.sight_cases source es with hs | ⟨o, hs⟩
  · rw [hs]
    exact ⟨h.bounded, h.positive, .inr rfl⟩
  · rw [hs]
    exact ⟨⟨Nat.zero_le _, List.Pairwise.nil⟩, by rintro p ⟨⟩, .inl rfl⟩

/-- The record after the position was looked at. -/
theorem Kept.Budget.observed {w' : Record} (h : Kept.Budget w es) (hw : w' ∈ w) (t : Tick)
    (source : String) (hs : ∀ o ∈ t.newObservation source w', (∀ s ∈ newest es, s < o) ∨ since es = []) :
    Knows (t.observed source w') (t.sight source es ++ es) := by
  have hk := h.knows w' hw
  obtain ⟨-, -, hsight⟩ := h.sight t source
  unfold Tick.observed
  cases hn : t.newObservation source w' with
  | none =>
    rcases hsight with hempty | hnone
    · exact ⟨by simp [hempty], hk.attempts, by simp [hempty]⟩
    · rw [hnone]
      exact hk
  | some o =>
    refine Kept.Budget.unspent ?_ rfl
    -- the position is the current one, so it is newer than all before or the budget is unspent
    have hcur : t.current source = some o := (Option.filter_eq_some_iff.1 hn).1
    rcases hs o hn with hnew | hempty
    · rw [Tick.sight_new hcur hnew]
      rfl
    · rcases hsight with h' | h'
      · exact h'
      · rw [h']
        exact hempty

/-- **One tick keeps the budget** if it takes a position for new only when it is, or when the
    budget is unspent. -/
theorem Kept.Budget.tick (h : Kept.Budget w es) (t : Tick) (source : String) (hnow : 0 < t.now)
    (hs : ∀ w' ∈ w, ∀ o ∈ t.newObservation source w', (∀ s ∈ newest es, s < o) ∨ since es = []) :
    Kept.Budget (w.bind fun w' => (t.visit source w').1)
      ((probeTimes ((w.map fun w' => (t.visit source w').2).getD [])).map Event.probe ++
        (t.sight source es ++ es)) := by
  obtain ⟨hb, hpos, -⟩ := h.sight t source
  cases hw : w with
  | none => exact ⟨hb, hpos, fun w' hw' => by cases hw'⟩
  | some w' =>
    have hmem : w' ∈ w := hw
    have hk := h.observed hmem t source (hs w' hmem)
    simp only [Option.bind_some, Option.map_some, Option.getD_some]
    generalize hv : t.visit source w' = v
    have hvisit := t.visited source w'
    rw [hv] at hvisit
    cases hvisit with
    | ended => exact ⟨hb, hpos, fun w'' hw'' => by cases hw''⟩
    | silent hps ha hl =>
      simp only [hps, List.map_nil, List.nil_append]
      refine ⟨hb, hpos, ?_⟩
      rintro _ ⟨⟩
      exact ⟨ha ▸ hk.counts, ha ▸ hk.attempts, fun p hp => hl ▸ hk.last p hp⟩
    | probed hps hlt hready ha hl =>
      simp only [hps, List.map_cons, List.map_nil, List.singleton_append]
      have hcount := hk.counts
      refine ⟨⟨?_, ?_⟩, ?_, ?_⟩
      · show (since (t.sight source es ++ es)).length + 1 ≤ 2
        omega
      · -- the last probe is in the record, and the others are before it
        refine List.pairwise_cons.2 ⟨fun p hp => ?_, hb.spaced⟩
        cases hsince : since (t.sight source es ++ es) with
        | nil => rw [hsince] at hp; cases hp
        | cons first rest =>
          have hlast : (t.observed source w').lastRefreshAt = some first :=
            hk.last first (by rw [hsince]; rfl)
          have hgap : first + retryMs ≤ t.now := by
            rcases hready first hlast with hle | hle
            · exact absurd (hpos first (by simp [hsince])) hle.not_gt
            · linarith
          have hlen : rest = [] := by
            rw [hsince, List.length_cons] at hcount
            exact List.length_eq_zero_iff.1 (by omega)
          rw [hsince, hlen, List.mem_singleton] at hp
          rwa [hp]
      · intro p hp
        rcases List.mem_cons.1 hp with rfl | hp
        · exact hnow
        · exact hpos p hp
      · rintro _ ⟨⟩
        refine ⟨?_, by omega, ?_⟩
        · show (since (t.sight source es ++ es)).length + 1 ≤ _
          omega
        · rintro p ⟨⟩
          exact hl

end

/-! ## Runs -/

/-- What may happen. -/
inductive Step where
  | arrival (a : Arrival)
  | tick (t : Tick)
  /-- Another node rewrites the pending arrivals. -/
  | pendings (m : Mode) (shared : Option Pending) (byResident : String → Option Pending)

/-- The flow, and what happened to each resident, newest first. -/
structure Log where
  flow : Flow
  events : Mode → String → List Event

namespace Log

def empty : Log := ⟨fun _ => ⟨none, fun _ => none, none⟩, fun _ _ => []⟩

/-- What the watch keeps of a resident. -/
def record (l : Log) (m : Mode) (source : String) : Option Record :=
  (l.flow m).watches.bind fun ws => ws source

def step (l : Log) : Step → Log
  | .arrival a => { l with flow := a.handle l.flow }
  | .tick t => {
      flow := (t.handle l.flow).1
      events := fun m source => if m = t.mode then
        t.events source (l.flow m) (l.events m source) ++ l.events m source
        else l.events m source }
  | .pendings m shared byResident =>
    { l with flow := l.flow.keep m { l.flow m with shared := shared, byResident := byResident } }

def run (steps : List Step) : Log := steps.foldl step empty

/-- The budget of a resident starts afresh only when there is a new position, or when it is
    unspent. -/
def Steady (l : Log) : Step → Prop
  | .arrival a => a.enters (l.flow a.mode) → since (l.events a.mode a.source) = []
  | .tick t => ∀ source ∈ residents, ∀ w ∈ l.record t.mode source, ∀ o ∈ t.newObservation source w,
      (∀ s ∈ newest (l.events t.mode source), s < o) ∨ since (l.events t.mode source) = []
  | .pendings _ _ _ => True

instance (l : Log) (s : Step) : Decidable (l.Steady s) := by
  cases s <;> unfold Steady <;> infer_instance

/-- The budget of every resident holds. -/
def Budgets (l : Log) : Prop :=
  ∀ m, ∀ source ∈ residents, Kept.Budget (l.record m source) (l.events m source)

variable {l : Log}

/-- An arrival that enters the watch makes a record with an unspent budget. -/
theorem record_arrival (l : Log) (a : Arrival) (m : Mode) (source : String) :
    (l.step (.arrival a)).record m source =
      if m = a.mode ∧ source = a.source ∧ a.enters (l.flow a.mode) then some a.record
      else l.record m source := by
  unfold record
  show ((a.handle l.flow) m).watches.bind _ = _
  unfold Arrival.handle
  by_cases ht : a.taken (l.flow a.mode)
  swap
  · have hne : ¬ a.enters (l.flow a.mode) := fun h => ht h.1
    simp [ht, hne]
  by_cases hm : m = a.mode
  swap
  · simp [ht, hm, Flow.keep]
  subst hm
  by_cases he : a.enters (l.flow a.mode)
  · by_cases hs : source = a.source
    · simp [ht, he, hs, Flow.keep]
    · simp [ht, he, hs, Flow.keep]
  · simp [ht, he, Flow.keep]

theorem record_tick (l : Log) (t : Tick) {source : String} (hs : source ∈ residents) :
    (l.step (.tick t)).record t.mode source =
      (l.record t.mode source).bind fun w => (t.visit source w).1 := by
  unfold record
  show (((t.handle l.flow).1) t.mode).watches.bind _ = _
  unfold Tick.handle
  cases hw : (l.flow t.mode).watches with
  | none => simp [Flow.keep, hw]
  | some ws => simp [Flow.keep, hw, hs]

/-- **A steady step keeps the budgets.** -/
theorem Budgets.step (h : l.Budgets) {s : Step} (hs : l.Steady s) (hnow : ∀ t, s = .tick t → 0 < t.now) :
    (l.step s).Budgets := by
  intro m source hsource
  have hb := h m source hsource
  cases s with
  | arrival a =>
    rw [record_arrival]
    show Kept.Budget _ (l.events m source)
    split
    · rename_i he
      obtain ⟨rfl, rfl, he⟩ := he
      refine ⟨hb.bounded, hb.positive, ?_⟩
      rintro _ ⟨⟩
      exact Kept.Budget.unspent (hs he) rfl
    · exact hb
  | tick t =>
    by_cases hm : m = t.mode
    · subst hm
      rw [record_tick l t hsource]
      have hbt := hb.tick t source (hnow t rfl) fun w hw o ho => hs source hsource w hw o ho
      show Kept.Budget _ (if t.mode = t.mode then _ else _)
      rw [if_pos rfl, Tick.events, if_pos hsource, List.append_assoc]
      exact hbt
    · have hrec : (l.step (.tick t)).record m source = l.record m source := by
        simp [record, Log.step, Tick.handle, Flow.keep, hm]
      rw [hrec]
      show Kept.Budget _ (if m = t.mode then _ else _)
      rw [if_neg hm]
      exact hb
  | pendings m' shared byResident =>
    have hrec : (l.step (.pendings m' shared byResident)).record m source = l.record m source := by
      by_cases hm : m = m'
      · simp [record, Log.step, Flow.keep, hm]
      · simp [record, Log.step, Flow.keep, hm]
    rw [hrec]
    exact hb

end Log

/-- **At most two probes for a position, a minute apart**, in every run whose steps are steady. -/
theorem probes_bounded {steps : List Step} (hclock : ∀ t, .tick t ∈ steps → 0 < t.now)
    (hsteady : ∀ pre s post, steps = pre ++ s :: post → (Log.run pre).Steady s) (m : Mode) :
    ∀ source ∈ residents, Bounded ((Log.run steps).events m source) := by
  have hall : (Log.run steps).Budgets := by
    induction steps using List.reverseRecOn with
    | nil =>
      intro m source _
      exact ⟨⟨Nat.zero_le _, List.Pairwise.nil⟩, by rintro p ⟨⟩, by rintro w ⟨⟩⟩
    | append_singleton steps s ih =>
      have hbefore := ih (fun t ht => hclock t (List.mem_append_left _ ht))
        fun pre x post he => hsteady pre x (post ++ [s]) (by rw [he, List.append_assoc, List.cons_append])
      rw [Log.run, List.foldl_append]
      refine hbefore.step (hsteady steps s [] rfl) fun t ht => hclock t ?_
      rw [ht]
      exact List.mem_append_right _ (List.mem_singleton_self _)
  exact fun source hs => (hall m source hs).bounded

/-- A resident approaches. -/
def approach : Step := .arrival ⟨.production, "resident_primary", some "approach", .fin 900000, 900000, 5400000⟩

/-- The watch runs while the resident's last position is long past. -/
def stale (now : ℚ) : Step := .tick {
  mode := .production
  now
  futureMs := 60000
  freshnessMs := 900000
  refreshMs := 300000
  resident := fun _ => some ⟨false, true, .fin 1000, some "near_home", false⟩
  arrivalArmed := fun _ => true
  activeByArrival := false
  engineAllowed := false
  bypassAllowed := false
  sunReady := true
  dark := true
  justAuthorized := false }

theorem probes_bounded_sample :
    Bounded ((Log.run [approach, stale 1000000, stale 1060000]).events .production "resident_primary") ∧
    since ((Log.run [approach, stale 1000000, stale 1060000]).events .production "resident_primary") =
      [1060000, 1000000] := by
  refine ⟨probes_bounded ?_ ?_ .production "resident_primary" (by decide), by decide +kernel⟩
  · intro t ht
    rcases List.mem_cons.1 ht with ht | ht
    · cases ht
    · rcases List.mem_cons.1 ht with ht | ht
      · cases ht
        norm_num
      · cases List.mem_singleton.1 ht
        norm_num
  · intro pre s post he
    rcases pre with _ | ⟨x, _ | ⟨y, _ | ⟨z, pre⟩⟩⟩
    · cases he
      decide +kernel
    · cases he
      decide +kernel
    · cases he
      decide +kernel
    · have := congrArg List.length he
      simp at this

/-- A replay of the arrival gives the phone a third probe for one position, a second after the
    second one. -/
theorem probes_exceeded : ¬ Bounded ((Log.run [approach, stale 1000000, stale 1060000, approach,
    stale 1061000]).events .production "resident_primary") := by
  intro h
  have he : since ((Log.run [approach, stale 1000000, stale 1060000, approach,
      stale 1061000]).events .production "resident_primary") = [1061000, 1060000, 1000000] := by
    decide +kernel
  have := h.two
  rw [he] at this
  exact absurd this (by decide)

end SmartHome.SecurityLight.Watch
