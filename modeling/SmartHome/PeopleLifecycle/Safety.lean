/-
  No update of the people lifecycle is lost where messages interleave: an entry is what the last
  message that changed it wrote.
-/
import SmartHome.Lib.Machine
import SmartHome.PeopleLifecycle.State

namespace SmartHome.PeopleLifecycle

open Verif

/-! ## Runs -/

/-- The stores of production and test, the messages between load and finalize, and those that were
    finalized. -/
structure Lifecycle where
  initial : Bool → Store
  stores : Bool → Store
  flight : List Data
  finalized : List Data

/-- The steps of the messages, in any order. -/
inductive Step : Lifecycle → Lifecycle → Prop
  | load (testMode : Bool) (policy : Policy) (now : ℚ) (o : Lifecycle) :
      Step o { o with flight := o.flight ++ [load testMode policy now (o.stores testMode)] }
  /-- A message changes its own copy: entries and arrivals are set or deleted. -/
  | change (before after : List Data) (data : Data) (entries : (f : Field) → Entries f)
      (arrivals : List (String × ℚ)) (o : Lifecycle) : o.flight = before ++ data :: after →
      Step o { o with flight := before ++ { data with entries := entries, recentArrivals := arrivals } :: after }
  | finalize (before after : List Data) (data : Data) (now : ℚ) (o : Lifecycle) :
      o.flight = before ++ data :: after →
      Step o { o with
        stores := Function.update o.stores data.testMode (finalize now data (o.stores data.testMode))
        flight := before ++ after
        finalized := o.finalized ++ [data] }

def lifecycleMachine : Machine Lifecycle where
  start o := o.stores = o.initial ∧ o.flight = [] ∧ o.finalized = []
  step := Step

/-- The messages that were finalized in a mode. -/
def Lifecycle.history (o : Lifecycle) (testMode : Bool) : List Data :=
  o.finalized.filter fun data => data.testMode = testMode

/-- What a message loaded and writes of a field. -/
def Data.commit (data : Data) (f : Field) : Commit String (Option f.Value) where
  loaded := data.baseline.elim (fun _ => none) fun baseline => baseline f
  written := data.entries f

/-- The entry of a resident; what is loaded where the record does not have the field. -/
def Store.entry (s : Store) (f : Field) (role : String) : Option f.Value :=
  match s.field f with
  | some entries => entries role
  | none =>
    match f with
    | .arrivalArmed => some (decide ((s.armed.bind fun e => e role) = some true))
    | .externalSince => some none
    | .localExcursions => none
    | .homeArrivalCandidates => none

/-! ## Load and finalize -/

section
variable {policy : Policy} {now : ℚ} {s : Store} {data : Data} {f : Field} {role : String}

theorem load_baseline {testMode : Bool} : (load testMode policy now s).baseline =
    some fun f role => if role ∈ residents then s.loaded policy now f role else none := rfl

/-- Where the record does not have the field, no time and no policy changes what is loaded. -/
theorem loaded_missing (h : s.field f = none) : s.loaded policy now f role = s.entry f role := by
  unfold Store.entry
  rw [h]
  cases f with
  | arrivalArmed =>
    simp only [Store.loaded, h, Option.or_none]
  | externalSince | localExcursions | homeArrivalCandidates =>
    simp only [Store.loaded, h]
    rfl

theorem field_finalize : (finalize now data s).field f = some (data.merged s.recovery f) := rfl

/-- **A finalize commits the changes of its message.** -/
theorem merged_eq {baseline : (f : Field) → Entries f} (hbaseline : data.baseline = some baseline)
    (hrole : role ∈ residents) (hmissing : s.field f = none → baseline f role = s.entry f role) :
    data.merged s.recovery f role = (data.commit f).merge (s.entry f) role := by
  unfold Data.merged Commit.merge Data.commit
  rw [hbaseline]
  simp only [Option.elim_some]
  cases hfield : s.field f with
  | none =>
    have hnone : (s.recovery.filter Recovery.current).bind (Recovery.fields · f) = none := hfield
    rw [hnone]
    change data.entries f role = if data.entries f role = baseline f role then s.entry f role else data.entries f role
    split_ifs with hsame
    · exact hsame.trans (hmissing hfield)
    · rfl
  | some entries =>
    have hsome : (s.recovery.filter Recovery.current).bind (Recovery.fields · f) = some entries := hfield
    have hentry : s.entry f role = entries role := by
      unfold Store.entry
      rw [hfield]
    simp only [hsome, hrole, true_and, hentry]

theorem entry_finalize : (finalize now data s).entry f role = data.merged s.recovery f role := rfl

end

/-! ## The invariant -/

/-- What the stores hold, by the messages that were finalized. -/
structure Consistent (o : Lifecycle) (testMode : Bool) : Prop where
  /-- The messages in flight hold what they loaded. -/
  loaded : ∀ data ∈ o.flight, data.testMode = testMode → ∃ baseline, data.baseline = some baseline ∧
    ∀ f, ∀ role ∈ residents, (o.initial testMode).field f = none → o.history testMode = [] →
      baseline f role = (o.initial testMode).entry f role
  untouched : o.history testMode = [] → o.stores testMode = o.initial testMode
  complete : o.history testMode ≠ [] → ∀ f, (o.stores testMode).field f ≠ none
  entries : ∀ f, ∀ role ∈ residents, (o.stores testMode).entry f role =
    lastWrite ((o.initial testMode).entry f) ((o.history testMode).map fun data => data.commit f) role
  armed : o.history testMode ≠ [] → (o.stores testMode).armed = (o.stores testMode).field .arrivalArmed

section
variable {o o' : Lifecycle} {testMode : Bool}

/-- A message in flight that was not the one that was changed or finalized. -/
theorem Consistent.of_flight (h : Consistent o testMode) {flight : List Data}
    (hflight : ∀ data ∈ flight, ∃ data' ∈ o.flight, data.testMode = data'.testMode ∧ data.baseline = data'.baseline) :
    Consistent { o with flight := flight } testMode where
  loaded data hdata hmode := by
    obtain ⟨data', hdata', hsame, hbaseline⟩ := hflight data hdata
    rw [hbaseline]
    exact h.loaded data' hdata' (hsame.symm.trans hmode)
  untouched := h.untouched
  complete := h.complete
  entries := h.entries
  armed := h.armed

theorem Consistent.load (h : Consistent o testMode) (testMode' : Bool) (policy : Policy) (now : ℚ) :
    Consistent { o with flight := o.flight ++ [load testMode' policy now (o.stores testMode')] } testMode where
  loaded data hdata hmode := by
    rcases List.mem_append.1 hdata with hdata | hdata
    · exact h.loaded data hdata hmode
    · obtain rfl := List.mem_singleton.1 hdata
      obtain rfl : testMode' = testMode := hmode
      refine ⟨_, load_baseline, fun f role hrole hmissing hnone => ?_⟩
      rw [if_pos hrole, h.untouched hnone]
      exact loaded_missing hmissing
  untouched := h.untouched
  complete := h.complete
  entries := h.entries
  armed := h.armed

/-- **A finalize keeps what its message did not change, and commits what it did.** -/
theorem Consistent.finalize (h : Consistent o testMode) {before after : List Data} {data : Data} {now : ℚ}
    (hflight : o.flight = before ++ data :: after) : Consistent { o with
      stores := Function.update o.stores data.testMode (finalize now data (o.stores data.testMode))
      flight := before ++ after
      finalized := o.finalized ++ [data] } testMode := by
  have hrest : ∀ data' ∈ before ++ after, data' ∈ o.flight := by
    intro data' hdata'
    rw [hflight]
    rcases List.mem_append.1 hdata' with hdata' | hdata'
    · exact List.mem_append_left _ hdata'
    · exact List.mem_append_right _ (List.mem_cons_of_mem _ hdata')
  by_cases hmode : data.testMode = testMode
  · subst hmode
    have hhistory : (o.finalized ++ [data]).filter (fun data' => data'.testMode = data.testMode) =
        o.history data.testMode ++ [data] := by
      rw [List.filter_append, List.filter_singleton]
      simp [Lifecycle.history]
    have hne : o.history data.testMode ++ [data] ≠ [] := List.append_ne_nil_of_right_ne_nil _ (List.cons_ne_nil _ _)
    obtain ⟨baseline, hbaseline, hloaded⟩ := h.loaded data (hflight ▸ List.mem_append_right _ List.mem_cons_self) rfl
    have hentry : ∀ f, ∀ role ∈ residents, data.merged (o.stores data.testMode).recovery f role =
        (data.commit f).merge ((o.stores data.testMode).entry f) role := by
      refine fun f role hrole => merged_eq hbaseline hrole fun hmissing => ?_
      -- only the first finalize of a run can find a field missing
      by_cases hfirst : o.history data.testMode = []
      · rw [h.untouched hfirst] at hmissing ⊢
        exact hloaded f role hrole hmissing hfirst
      · exact absurd hmissing (h.complete hfirst f)
    refine ⟨fun data' hdata' hmode' => ?_, fun hnone => ?_, fun _ f => ?_, fun f role hrole => ?_, fun _ => ?_⟩
    · obtain ⟨baseline', hbaseline', -⟩ := h.loaded data' (hrest data' hdata') hmode'
      refine ⟨baseline', hbaseline', fun f role hrole hmissing hnone => ?_⟩
      exact absurd (hhistory.symm.trans hnone) hne
    · exact absurd (hhistory.symm.trans hnone) hne
    · simp only [Function.update_self, field_finalize]
      exact Option.some_ne_none _
    · simp only [Function.update_self, Lifecycle.history, entry_finalize]
      rw [hentry f role hrole, hhistory, List.map_append, List.map_singleton, lastWrite_concat]
      unfold Commit.merge
      rw [h.entries f role hrole]
    · simp only [Function.update_self]
      rfl
  · have hhistory : (o.finalized ++ [data]).filter (fun data' => data'.testMode = testMode) = o.history testMode := by
      rw [List.filter_append, List.filter_singleton]
      simp [Lifecycle.history, hmode]
    have hstore : Function.update o.stores data.testMode (PeopleLifecycle.finalize now data (o.stores data.testMode))
        testMode = o.stores testMode := Function.update_of_ne (Ne.symm hmode) _ _
    refine ⟨fun data' hdata' hmode' => ?_, fun hnone => ?_, fun hsome => ?_, ?_, fun hsome => ?_⟩
    · obtain ⟨baseline, hbaseline, hloaded⟩ := h.loaded data' (hrest data' hdata') hmode'
      exact ⟨baseline, hbaseline, fun f role hrole hmissing hnone =>
        hloaded f role hrole hmissing (hhistory.symm.trans hnone)⟩
    · exact hstore.trans (h.untouched (hhistory.symm.trans hnone))
    · simp only [hstore]
      exact h.complete (hhistory ▸ hsome)
    · simp only [hstore, Lifecycle.history, hhistory]
      exact h.entries
    · simp only [hstore]
      exact h.armed (hhistory ▸ hsome)

end

theorem consistent_invariant (testMode : Bool) : lifecycleMachine.Invariant fun o => Consistent o testMode where
  start o hstart := by
    obtain ⟨hstores, hflight, hfinalized⟩ := hstart
    have hhistory : o.history testMode = [] := by
      unfold Lifecycle.history
      rw [hfinalized]
      rfl
    refine ⟨fun data hdata => ?_, fun _ => by rw [hstores], fun h => absurd hhistory h, fun f role _ => ?_,
      fun h => absurd hhistory h⟩
    · rw [hflight] at hdata
      exact absurd hdata List.not_mem_nil
    · rw [hhistory, hstores]
      rfl
  step o o' _ h hstep := by
    cases hstep with
    | load testMode' policy now => exact h.load testMode' policy now
    | change before after data entries arrivals _ hflight =>
      refine h.of_flight fun data' hdata' => ?_
      rw [hflight]
      rcases List.mem_append.1 hdata' with hdata' | hdata'
      · exact ⟨data', List.mem_append_left _ hdata', rfl, rfl⟩
      · rcases List.mem_cons.1 hdata' with rfl | hdata'
        · exact ⟨data, List.mem_append_right _ List.mem_cons_self, rfl, rfl⟩
        · exact ⟨data', List.mem_append_right _ (List.mem_cons_of_mem _ hdata'), rfl, rfl⟩
    | finalize before after data now _ hflight => exact h.finalize hflight

/-- The message changed the entry that it had loaded. -/
def Data.Changed (data : Data) (f : Field) (role : String) : Prop :=
  (data.commit f).written role ≠ (data.commit f).loaded role

instance (data : Data) (f : Field) (role : String) : Decidable (data.Changed f role) := by
  unfold Data.Changed; infer_instance

/-- **No update is lost.**  From the first finalize on, both stores hold the fields, and the entry
    of a resident is what the last message that changed it wrote. -/
theorem entries_last_write {o : Lifecycle} (h : lifecycleMachine.Reachable o) (testMode : Bool)
    (hsome : o.history testMode ≠ []) :
    (∀ f, ∃ entries, (o.stores testMode).field f = some entries ∧ ∀ role ∈ residents,
      (∀ before data after, o.history testMode = before ++ data :: after → data.Changed f role →
        (∀ data' ∈ after, ¬data'.Changed f role) → entries role = data.entries f role) ∧
      ((∀ data ∈ o.history testMode, ¬data.Changed f role) → entries role = (o.initial testMode).entry f role)) ∧
    (o.stores testMode).armed = (o.stores testMode).field .arrivalArmed := by
  have hconsistent := (consistent_invariant testMode).reachable h
  refine ⟨fun f => ?_, hconsistent.armed hsome⟩
  obtain ⟨entries, hentries⟩ := Option.ne_none_iff_exists'.1 (hconsistent.complete hsome f)
  have hentry : ∀ role, (o.stores testMode).entry f role = entries role := by
    intro role
    unfold Store.entry
    rw [hentries]
  -- an entry that the messages of a list left alone
  have hkept : ∀ {datas : List Data} {role : String}, (∀ data ∈ datas, ¬data.Changed f role) →
      ∀ c ∈ datas.map fun data => data.commit f, c.written role = c.loaded role := by
    intro datas role hdatas c hc
    obtain ⟨data, hdata, rfl⟩ := List.mem_map.1 hc
    exact not_not.1 (hdatas data hdata)
  refine ⟨entries, hentries, fun role hrole => ⟨fun before data after hsplit hchanged hafter => ?_, fun hall => ?_⟩⟩
  · rw [← hentry role, hconsistent.entries f role hrole, hsplit, List.map_append, List.map_cons]
    exact lastWrite_changed hchanged (hkept hafter)
  · rw [← hentry role, hconsistent.entries f role hrole]
    exact lastWrite_unchanged (hkept hall)

/-! ## A run -/

/-- Both residents are armed, and the record has an excursion of the primary resident. -/
def excursionStore : Store where
  armed := none
  recovery := some {
    current := true
    recentArrivals := []
    fields := fun
      | .arrivalArmed => some fun role => if role ∈ residents then some true else none
      | .externalSince => some fun _ => none
      | .localExcursions => some fun role => if role = "resident_primary" then some ⟨1000, 3000⟩ else none
      | .homeArrivalCandidates => none
    updatedAt := some 1000 }

def excursionPolicy : Policy := ⟨1000, 60000, 60000, 60000⟩

/-- What a message does that disarms the primary resident, or ends the excursion. -/
def disarm (entries : (f : Field) → Entries f) : (f : Field) → Entries f
  | .arrivalArmed => Function.update (entries .arrivalArmed) "resident_primary" (some false)
  | f => entries f

def endExcursion (entries : (f : Field) → Entries f) : (f : Field) → Entries f
  | .localExcursions => Function.update (entries .localExcursions) "resident_primary" none
  | f => entries f

/-- A message that loads these stores. -/
def loadedMessage : Data := load false excursionPolicy 2000 excursionStore

def disarmMessage : Data := { loadedMessage with entries := disarm loadedMessage.entries }

def endMessage : Data := { loadedMessage with entries := endExcursion loadedMessage.entries }

/-- The second message is finalized first. -/
def interleaved : Lifecycle where
  initial := fun _ => excursionStore
  stores := Function.update (Function.update (fun _ => excursionStore) false (finalize 2100 endMessage excursionStore))
    false (finalize 2200 disarmMessage (finalize 2100 endMessage excursionStore))
  flight := []
  finalized := [endMessage, disarmMessage]

/-- Neither change is lost: the resident is disarmed and the excursion has ended. -/
theorem entries_last_write_interleaved :
    (∃ entries, (interleaved.stores false).field .arrivalArmed = some entries ∧
      entries "resident_primary" = some false) ∧
    ∃ entries, (interleaved.stores false).field .localExcursions = some entries ∧
      entries "resident_primary" = none := by
  have hreachable : lifecycleMachine.Reachable interleaved := by
    have hstart : lifecycleMachine.Reachable ⟨fun _ => excursionStore, fun _ => excursionStore, [], []⟩ :=
      .start ⟨rfl, rfl, rfl⟩
    have hloaded := (hstart.step (.load false excursionPolicy 2000 _)).step (.load false excursionPolicy 2000 _)
    have hdisarmed := hloaded.step (.change [] [loadedMessage] loadedMessage (disarm loadedMessage.entries) [] _ rfl)
    have hended := hdisarmed.step (.change [disarmMessage] [] loadedMessage (endExcursion loadedMessage.entries) [] _ rfl)
    have hfinalized := hended.step (.finalize [disarmMessage] [] endMessage 2100 _ rfl)
    exact hfinalized.step (.finalize [] [] disarmMessage 2200 _ rfl)
  have hrun := (entries_last_write hreachable false (by decide)).1
  refine ⟨?_, ?_⟩
  · obtain ⟨entries, hentries, hlast⟩ := hrun .arrivalArmed
    refine ⟨entries, hentries, ?_⟩
    exact (hlast "resident_primary" (by decide)).1 [endMessage] disarmMessage [] rfl (by decide)
      fun data hdata => absurd hdata List.not_mem_nil
  · obtain ⟨entries, hentries, hlast⟩ := hrun .localExcursions
    refine ⟨entries, hentries, ?_⟩
    refine (hlast "resident_primary" (by decide)).1 [] endMessage [disarmMessage] rfl (by decide +kernel) fun data hdata => ?_
    obtain rfl := List.mem_singleton.1 hdata
    decide +kernel

end SmartHome.PeopleLifecycle
