/-
  What the cells of an index read as, and that each operation on the heap does to what it reads
  what the same operation does on values.
-/
import Mathlib.Data.List.Forall2
import SmartHome.CodexUsage.Index

namespace SmartHome.CodexUsage

open Verif

variable {R : Runtime}

/-! ## Values of an index -/

/-- The value of a state. -/
structure View (R : Runtime) where
  totals : Tokens R
  daily : List (String × Tokens R)
  previousTotal : TokenKey → R.Value
  latestEvent : Option (Candidate R)
  latestRateEvent : Option (Candidate R)
  latestPlanEvent : Option (Candidate R)
  latestCreditEvent : Option (Candidate R)
  eventCount : ℕ
  rateEvents : List (Candidate R)

def View.empty : View R := ⟨emptyTokens, [], fun _ => R.ofNum R.zero, none, none, none, none, 0, []⟩

/-- A token event counts. -/
def View.count (v : View R) (ev : Event R) (delta : Tokens R) : View R :=
  let day := R.day ev.candidate.timestamp
  let limits := ev.candidate.rateLimits
  let primary := isTruthy (optProp limits "primary")
  { totals := addTokens v.totals delta
    daily := setEntry v.daily day (addTokens ((getEntry v.daily day).getD emptyTokens) delta)
    previousTotal := spread v.previousTotal ev.current
    latestEvent := latest v.latestEvent ev.candidate
    latestRateEvent := if primary then latest v.latestRateEvent ev.candidate else v.latestRateEvent
    latestPlanEvent := if planType limits then latest v.latestPlanEvent ev.candidate else v.latestPlanEvent
    latestCreditEvent := if isTruthy (optProp limits "credits") then latest v.latestCreditEvent ev.candidate
      else v.latestCreditEvent
    eventCount := v.eventCount + 1
    rateEvents := if primary then v.rateEvents ++ [ev.candidate] else v.rateEvents }

/-- A line counts. -/
def View.consume (v : View R) (line : List Char) : Except R.Error (View R) :=
  match tokenEvent line with
  | .error e => .error e
  | .ok none => .ok v
  | .ok (some ev) => match tokenDelta v.previousTotal ev.current with
    | .error e => .error e
    | .ok delta => .ok (v.count ev delta)

/-- The lines of some bytes count; what is left waits for its end. -/
def scanBytes (v : View R) (pending : List UInt8) : List UInt8 → Except R.Error (View R × List UInt8)
  | [] => .ok (v, pending)
  | b :: bs =>
    if b = 10 then match v.consume (decodeUtf8 pending) with
      | .error e => .error e
      | .ok v => scanBytes v [] bs
    else scanBytes v (pending ++ [b]) bs

/-- The value of a summary. -/
structure SummaryView (R : Runtime) where
  totals : Tokens R
  daily : List (String × Tokens R)
  latestEvent : Option (Candidate R)
  latestRateEvent : Option (Candidate R)
  latestPlanEvent : Option (Candidate R)
  latestCreditEvent : Option (Candidate R)
  eventCount : ℕ
  rateEvents : List (Candidate R)
  sessionCount : ℕ

def View.summary (v : View R) : SummaryView R :=
  ⟨v.totals, v.daily, v.latestEvent, v.latestRateEvent, v.latestPlanEvent, v.latestCreditEvent, v.eventCount,
    v.rateEvents, if v.eventCount ≠ 0 then 1 else 0⟩

/-- The summary with an unended line counted. -/
def View.summaryWith (v : View R) (pending : List UInt8) : Except R.Error (SummaryView R) :=
  if pending = [] then .ok v.summary
  else match v.consume (decodeUtf8 pending) with
    | .error e => .error e
    | .ok v => .ok v.summary

theorem scanBytes_append (v : View R) (pending xs ys : List UInt8) : scanBytes v pending (xs ++ ys) =
    match scanBytes v pending xs with
    | .error e => .error e
    | .ok (v, pending) => scanBytes v pending ys := by
  induction xs generalizing v pending with
  | nil => rfl
  | cons b xs ih =>
    rw [List.cons_append, scanBytes, scanBytes]
    split
    · cases v.consume (decodeUtf8 pending) with
      | error e => rfl
      | ok v' => exact ih v' []
    · exact ih v _

/-- Bytes without an end of line only wait. -/
theorem scanBytes_no_end (v : View R) (pending xs : List UInt8) (h : 10 ∉ xs) :
    scanBytes v pending xs = .ok (v, pending ++ xs) := by
  induction xs generalizing pending with
  | nil => rw [scanBytes, List.append_nil]
  | cons b xs ih =>
    rw [List.mem_cons, not_or] at h
    rw [scanBytes, if_neg (Ne.symm h.1), ih _ h.2, List.append_assoc, List.singleton_append]

/-! ## Reading the cells -/

/-- The days of a map; none shares its cell with the totals. -/
def ReadsDays (h : Heap R) (totals : ℕ) (m : List (String × ℕ)) (days : List (String × Tokens R)) : Prop :=
  List.Forall₂ (fun e d => e.1 = d.1 ∧ h.tokens[e.2]? = some d.2 ∧ e.2 ≠ totals) m days

/-- The cells that a state or a summary refers to. -/
structure ReadsCells (h : Heap R) (totalsAt dailyAt eventsAt : ℕ) (totals : Tokens R)
    (days : List (String × Tokens R)) (events : List (Candidate R)) : Prop where
  totals : h.tokens[totalsAt]? = some totals
  daily : ∃ m, h.dailies[dailyAt]? = some m ∧ ReadsDays h totalsAt m days
  events : h.events[eventsAt]? = some events

/-- A state object reads as a value. -/
structure StateObject.Reads (h : Heap R) (o : StateObject R) (v : View R) : Prop where
  cells : ReadsCells h o.totals o.daily o.rateEvents v.totals v.daily v.rateEvents
  previousTotal : o.previousTotal = v.previousTotal
  latestEvent : o.latestEvent = v.latestEvent
  latestRateEvent : o.latestRateEvent = v.latestRateEvent
  latestPlanEvent : o.latestPlanEvent = v.latestPlanEvent
  latestCreditEvent : o.latestCreditEvent = v.latestCreditEvent
  eventCount : o.eventCount = v.eventCount

/-- A state of the heap reads as a value. -/
def ReadsState (h : Heap R) (s : ℕ) (v : View R) : Prop := ∃ o, h.states[s]? = some o ∧ o.Reads h v

/-- A summary reads as a value. -/
structure Summary.Reads (h : Heap R) (o : Summary R) (v : SummaryView R) : Prop where
  cells : ReadsCells h o.totals o.daily o.rateEvents v.totals v.daily v.rateEvents
  latestEvent : o.latestEvent = v.latestEvent
  latestRateEvent : o.latestRateEvent = v.latestRateEvent
  latestPlanEvent : o.latestPlanEvent = v.latestPlanEvent
  latestCreditEvent : o.latestCreditEvent = v.latestCreditEvent
  eventCount : o.eventCount = v.eventCount
  sessionCount : o.sessionCount = v.sessionCount

/-- All cells of one heap are in the other, unchanged. -/
structure Extends (h h' : Heap R) : Prop where
  states : h.states <+: h'.states
  tokens : h.tokens <+: h'.tokens
  dailies : h.dailies <+: h'.dailies
  events : h.events <+: h'.events

theorem Extends.refl (h : Heap R) : Extends h h :=
  ⟨List.prefix_rfl, List.prefix_rfl, List.prefix_rfl, List.prefix_rfl⟩

theorem Extends.trans {h₁ h₂ h₃ : Heap R} (h : Extends h₁ h₂) (h' : Extends h₂ h₃) : Extends h₁ h₃ :=
  ⟨h.states.trans h'.states, h.tokens.trans h'.tokens, h.dailies.trans h'.dailies, h.events.trans h'.events⟩

theorem getElem?_extended {α : Type} {xs ys : List α} {i : ℕ} {x : α} (h : xs <+: ys) (hx : xs[i]? = some x) :
    ys[i]? = some x := by
  obtain ⟨zs, rfl⟩ := h
  have hi : i < xs.length := (List.getElem?_eq_some_iff.1 hx).1
  rw [List.getElem?_append_left hi, hx]

theorem ReadsDays.mono {h h' : Heap R} {totals : ℕ} {m : List (String × ℕ)} {days : List (String × Tokens R)}
    (hd : ReadsDays h totals m days) (he : Extends h h') : ReadsDays h' totals m days :=
  hd.imp fun _ _ hx => ⟨hx.1, getElem?_extended he.tokens hx.2.1, hx.2.2⟩

theorem ReadsCells.mono {h h' : Heap R} {totalsAt dailyAt eventsAt : ℕ} {totals : Tokens R}
    {days : List (String × Tokens R)} {events : List (Candidate R)}
    (hr : ReadsCells h totalsAt dailyAt eventsAt totals days events) (he : Extends h h') :
    ReadsCells h' totalsAt dailyAt eventsAt totals days events := by
  obtain ⟨ht, ⟨m, hm, hdays⟩, hev⟩ := hr
  exact ⟨getElem?_extended he.tokens ht, ⟨m, getElem?_extended he.dailies hm, hdays.mono he⟩,
    getElem?_extended he.events hev⟩

theorem ReadsState.mono {h h' : Heap R} {s : ℕ} {v : View R} (hr : ReadsState h s v) (he : Extends h h') :
    ReadsState h' s v := by
  obtain ⟨o, ho, hr⟩ := hr
  exact ⟨o, getElem?_extended he.states ho, { hr with cells := hr.cells.mono he }⟩

theorem Summary.Reads.mono {h h' : Heap R} {o : Summary R} {v : SummaryView R} (hr : o.Reads h v)
    (he : Extends h h') : o.Reads h' v := { hr with cells := hr.cells.mono he }

theorem StateObject.Reads.summary {h : Heap R} {o : StateObject R} {v : View R} (hr : o.Reads h v) :
    o.summary.Reads h v.summary := by
  refine ⟨hr.cells, hr.latestEvent, hr.latestRateEvent, hr.latestPlanEvent, hr.latestCreditEvent,
    hr.eventCount, ?_⟩
  simp only [StateObject.summary, View.summary, hr.eventCount]

/-! ## Lines -/

/-- A state whose cells are all newer than a heap. -/
structure Fresh (base h : Heap R) (s : ℕ) : Prop where
  ext : Extends base h
  state : base.states.length ≤ s
  cells : ∀ o, h.states[s]? = some o →
    base.tokens.length ≤ o.totals ∧ base.dailies.length ≤ o.daily ∧ base.events.length ≤ o.rateEvents

theorem prefix_set {α : Type} {xs ys : List α} {i : ℕ} (h : xs <+: ys) (hi : xs.length ≤ i) (x : α) :
    xs <+: ys.set i x := by
  obtain ⟨zs, rfl⟩ := h
  rw [List.set_append_right _ _ hi]
  exact List.prefix_append _ _

theorem prefix_append {α : Type} {xs ys : List α} (h : xs <+: ys) (zs : List α) : xs <+: ys ++ zs :=
  h.trans (List.prefix_append _ _)

variable {h : Heap R} {totals : ℕ} {m : List (String × ℕ)} {days : List (String × Tokens R)}

/-- A day is found in the map where it is in its value. -/
theorem ReadsDays.get (hd : ReadsDays h totals m days) (day : String) :
    (getEntry m day = none ∧ getEntry days day = none) ∨
    ∃ r t, getEntry m day = some r ∧ getEntry days day = some t ∧ h.tokens[r]? = some t ∧ r ≠ totals := by
  induction hd with
  | nil => exact Or.inl ⟨rfl, rfl⟩
  | @cons e d m days hx _ ih =>
    obtain ⟨hkey, ht, hne⟩ := hx
    by_cases he : e.1 = day
    · have hd : d.1 = day := hkey ▸ he
      exact Or.inr ⟨e.2, d.2, by simp [getEntry, he], by simp [getEntry, hd], ht, hne⟩
    · have hd : d.1 ≠ day := hkey ▸ he
      simpa [getEntry, List.find?_cons, he, hd] using ih

theorem ReadsDays.any (hd : ReadsDays h totals m days) (day : String) :
    (m.any (·.1 = day)) = days.any (·.1 = day) := by
  induction hd with
  | nil => rfl
  | cons hx _ ih => rw [List.any_cons, List.any_cons, ih, hx.1]

/-- A new cell for a day, when nothing but the totals changes. -/
theorem ReadsDays.set {h' : Heap R} (hd : ReadsDays h totals m days)
    (hold : ∀ r t, h.tokens[r]? = some t → r ≠ totals → h'.tokens[r]? = some t) (day : String) {r : ℕ}
    {t : Tokens R} (hr : h'.tokens[r]? = some t) (hne : r ≠ totals) :
    ReadsDays h' totals (setEntry m day r) (setEntry days day t) := by
  have hmap : ReadsDays h' totals m days := hd.imp fun _ _ hx => ⟨hx.1, hold _ _ hx.2.1 hx.2.2, hx.2.2⟩
  unfold setEntry
  rw [← hd.any day]
  split
  · unfold ReadsDays
    rw [List.forall₂_map_left_iff, List.forall₂_map_right_iff]
    refine hmap.imp fun e d hx => ?_
    by_cases he : e.1 = day
    · have hd : d.1 = day := hx.1 ▸ he
      rw [if_pos he, if_pos hd]
      exact ⟨rfl, hr, hne⟩
    · have hd : d.1 ≠ day := hx.1 ▸ he
      rw [if_neg he, if_neg hd]
      exact hx
  · exact List.rel_append hmap (.cons ⟨rfl, hr, hne⟩ .nil)

section
variable {s : ℕ} {o : StateObject R} {ev : Event R} {delta : Tokens R} {v : View R} {base : Heap R}

/-- An event counts in the cells of its state as it counts in the value. -/
theorem countEvent_reads (ho : h.states[s]? = some o) (hr : o.Reads h v) :
    ReadsState (countEvent h s o ev delta) s (v.count ev delta) := by
  obtain ⟨htotals, ⟨m, hm, hdays⟩, hevents⟩ := hr.cells
  have hs : s < h.states.length := (List.getElem?_eq_some_iff.1 ho).1
  have ht : o.totals < h.tokens.length := (List.getElem?_eq_some_iff.1 htotals).1
  have hd : o.daily < h.dailies.length := (List.getElem?_eq_some_iff.1 hm).1
  have he : o.rateEvents < h.events.length := (List.getElem?_eq_some_iff.1 hevents).1
  have hold : ∀ r t, h.tokens[r]? = some t → r ≠ o.totals →
      (countEvent h s o ev delta).tokens[r]? = some t := by
    intro r t hrt hne
    have hlt : r < h.tokens.length := (List.getElem?_eq_some_iff.1 hrt).1
    simp only [countEvent]
    rw [List.getElem?_append_left (by simpa using hlt), List.getElem?_set_ne (Ne.symm hne), hrt]
  refine ⟨_, List.getElem?_set_self hs, ?_⟩
  constructor
  · constructor
    · simp only [countEvent, View.count, htotals, Option.getD_some]
      rw [List.getElem?_append_left (by simpa using ht), List.getElem?_set_self ht]
    · refine ⟨_, List.getElem?_set_self hd, ?_⟩
      have hday : (((getEntry m (R.day ev.candidate.timestamp)).bind fun r => (h.tokens.set o.totals
          (addTokens v.totals delta))[r]?).getD emptyTokens) =
          (getEntry v.daily (R.day ev.candidate.timestamp)).getD emptyTokens := by
        rcases hdays.get (R.day ev.candidate.timestamp) with ⟨hm, hv⟩ | ⟨r, t, hm, hv, hrt, hne⟩
        · rw [hm, hv]
          rfl
        · rw [hm, hv, Option.bind_some, List.getElem?_set_ne (Ne.symm hne), hrt]
      simp only [hm, Option.getD_some]
      refine hdays.set hold _ ?_ (by simpa using Ne.symm ht.ne)
      simp only [countEvent, hm, htotals, Option.getD_some, hday]
      rw [List.getElem?_append_right le_rfl, Nat.sub_self, List.getElem?_cons_zero]
    · simp only [countEvent, View.count, hevents, Option.getD_some]
      split
      · rw [List.getElem?_set_self he]
      · exact hevents
  · simp only [View.count, hr.previousTotal]
  · simp only [View.count, hr.latestEvent]
  · simp only [View.count, hr.latestRateEvent]
  · simp only [View.count, hr.latestPlanEvent]
  · simp only [View.count, hr.latestCreditEvent]
  · simp only [View.count, hr.eventCount]

/-- It writes no older cell. -/
theorem countEvent_fresh (ho : h.states[s]? = some o) (hf : Fresh base h s) :
    Fresh base (countEvent h s o ev delta) s := by
  obtain ⟨ht, hd, he⟩ := hf.cells o ho
  have hs : s < h.states.length := (List.getElem?_eq_some_iff.1 ho).1
  refine ⟨⟨prefix_set hf.ext.states hf.state _, prefix_append (prefix_set hf.ext.tokens ht _) _,
    prefix_set hf.ext.dailies hd _, ?_⟩, hf.state, ?_⟩
  · simp only [countEvent]
    split
    · exact prefix_set hf.ext.events he _
    · exact hf.ext.events
  · intro o' ho'
    obtain rfl := Option.some.inj ((List.getElem?_set_self hs).symm.trans ho')
    exact ⟨ht, hd, he⟩

end

/-- **A line counts in the cells of its state as it counts in the value.** -/
theorem consume_ok {s : ℕ} {line : List Char} {v v' : View R} (hr : ReadsState h s v)
    (hc : v.consume line = .ok v') : ∃ h', consumeLine h s line = (h', .ok ()) ∧ ReadsState h' s v' ∧
      ∀ base, Fresh base h s → Fresh base h' s := by
  obtain ⟨o, ho, hr⟩ := hr
  unfold View.consume at hc
  unfold consumeLine
  cases htok : tokenEvent line with
  | error e =>
    rw [htok] at hc
    cases hc
  | ok ev =>
    rw [htok] at hc
    cases ev with
    | none =>
      obtain rfl := Except.ok.inj hc
      exact ⟨h, rfl, ⟨o, ho, hr⟩, fun _ hf => hf⟩
    | some ev =>
      rw [← hr.previousTotal] at hc
      dsimp only at hc ⊢
      simp only [ho]
      cases hdelta : tokenDelta o.previousTotal ev.current with
      | error e =>
        rw [hdelta] at hc
        cases hc
      | ok delta =>
        rw [hdelta] at hc
        obtain rfl := Except.ok.inj hc
        exact ⟨_, rfl, countEvent_reads ho hr, fun _ hf => countEvent_fresh ho hf⟩

/-- A line that throws for the value throws for the cells. -/
theorem consume_error {s : ℕ} {line : List Char} {v : View R} {e : R.Error} (hr : ReadsState h s v)
    (hc : v.consume line = .error e) : ∃ h', consumeLine h s line = (h', .error e) ∧
      ∀ base, Fresh base h s → Extends base h' := by
  obtain ⟨o, ho, hr⟩ := hr
  unfold View.consume at hc
  unfold consumeLine
  cases htok : tokenEvent line with
  | error e' =>
    rw [htok] at hc
    obtain rfl := Except.error.inj hc
    exact ⟨h, rfl, fun _ hf => hf.ext⟩
  | ok ev =>
    rw [htok] at hc
    cases ev with
    | none => cases hc
    | some ev =>
      rw [← hr.previousTotal] at hc
      dsimp only at hc ⊢
      simp only [ho]
      cases hdelta : tokenDelta o.previousTotal ev.current with
      | ok delta =>
        rw [hdelta] at hc
        cases hc
      | error e' =>
        rw [hdelta] at hc
        obtain rfl := Except.error.inj hc
        exact ⟨_, rfl, fun _ hf => { hf.ext with states := prefix_set hf.ext.states hf.state _ }⟩

end SmartHome.CodexUsage
