/-
  What the observer is told of the incidents, over all runs: a failure is told once it is
  confirmed, and not again before its recovery.
-/
import Mathlib.Data.List.Chain
import Mathlib.Tactic.NormNum
import SmartHome.HostObserver.Lifecycle
import SmartHome.Lib.Machine

namespace SmartHome.HostObserver

open Verif

/-! ## Runs -/

/-- A message that was handled, the incident before it and what was sent. -/
structure Entry where
  message : Message
  before : Option Row
  alert : Option Alert
  deriving DecidableEq

/-- The states of production and test, and the messages so far. -/
structure Observed where
  stores : Bool → State
  log : List Entry

def Observed.start : Observed := ⟨fun _ => .empty, []⟩

/-- The messages of an incident since the last one that was not a failure. -/
def streak (test : Bool) (name : String) (log : List Entry) : List Message :=
  log.foldl (fun ms e =>
    if e.message.test = test ∧ e.message.fact.incident = name then
      match e.message.accepted with
      | some .failed => ms ++ [e.message]
      | some _ => []
      | none => ms
    else ms) []

/-- The alerts of an incident; `true` is a recovery. -/
def recoveries (test : Bool) (name : String) (log : List Entry) : List Bool :=
  log.filterMap fun e => (e.alert.filter fun a => a.test = test ∧ a.incidentKey = name).map Alert.recovery

/-- Failure, recovery, failure, and so on. -/
def Alternates (alerts : List Bool) : Prop := alerts.IsChain (· ≠ ·) ∧ ∀ b ∈ alerts.head?, b = false

instance (alerts : List Bool) : Decidable (Alternates alerts) := by unfold Alternates; infer_instance

section
variable (dateParse : String → Option ℚ)

/-- A message is handled. -/
def Observed.handle (o : Observed) (m : Message) : Observed where
  stores := Function.update o.stores m.test (lifecycle dateParse m (o.stores m.test)).1
  log := o.log ++ [⟨m, (o.stores m.test).row m.fact.incident, (lifecycle dateParse m (o.stores m.test)).2⟩]

/-- Two samples of a resource, with different texts of dates that are not reversed. -/
def TwoSamples (ms : List Message) : Prop :=
  ∃ a b, [a, b].Sublist ms ∧ a.fact.kind = "resource" ∧ b.fact.kind = "resource" ∧
    a.fact.observedAt ≠ b.fact.observedAt ∧
    ∃ first ∈ a.fact.observedAt.parse dateParse, ∃ last ∈ b.fact.observedAt.parse dateParse, first ≤ last

/-- The samples of a resource are not reversed. -/
def SamplesOrdered (ms : List Message) : Prop :=
  ms.Pairwise fun a b => a.fact.kind = "resource" → b.fact.kind = "resource" →
    ∀ first ∈ a.fact.observedAt.parse dateParse, ∀ last ∈ b.fact.observedAt.parse dateParse, first ≤ last

/-- What confirms a failure: failures only, without a clock conflict, over the time of confirmation. -/
structure Confirmed (ms : List Message) (m : Message) : Prop where
  ordered : ms.Pairwise fun a b => a.now ≤ b.now
  samplesOrdered : SamplesOrdered dateParse ms
  spans : ∃ first ∈ ms.head?, ∃ confirmation ∈ m.confirmation, 1000 ≤ confirmation ∧
    confirmation ≤ m.now - first.now
  samples : m.fact.kind = "resource" → TwoSamples dateParse ms

/-- The runs of the lifecycle. -/
def lifecycleMachine : Machine Observed where
  start o := o = .start
  step o o' := ∃ m, o' = o.handle dateParse m

end

/-- The times of failures and recoveries are dates, and no incident that was notified at time zero
    recovers. -/
structure Regular (s : State) (m : Message) : Prop where
  failed : m.accepted = some .failed → Representable m.now
  healthy : m.accepted = some .healthy → ∀ r ∈ s.row m.fact.incident, r.lastSeenAt ≤ m.now →
    ∀ at' ∈ r.notifiedAt, at' ≠ 0 ∧ Representable m.now

instance (s : State) (m : Message) : Decidable (Regular s m) :=
  decidable_of_iff ((m.accepted = some .failed → Representable m.now) ∧
    (m.accepted = some .healthy → ∀ r ∈ s.row m.fact.incident, r.lastSeenAt ≤ m.now →
      ∀ at' ∈ r.notifiedAt, at' ≠ 0 ∧ Representable m.now)) ⟨fun h => ⟨h.1, h.2⟩, fun h => ⟨h.1, h.2⟩⟩

/-- The runs of regular messages. -/
def regularMachine (dateParse : String → Option ℚ) : Machine Observed where
  start o := o = .start
  step o o' := ∃ m, Regular (o.stores m.test) m ∧ o' = o.handle dateParse m

/-! ## Rows -/

section
variable {s : State} {name : String} {r : Row}

theorem row_set_self : (s.set name r).row name = some r := by
  have h : lookup Prod.fst name (upsert Prod.fst (name, r) s.incidents) = some (name, r) :=
    lookup_upsert_self (r := (name, r))
  exact congrArg (Option.map Prod.snd) h

theorem row_set_ne {other : String} (h : other ≠ name) : (s.set name r).row other = s.row other := by
  have h : lookup Prod.fst other (upsert Prod.fst (name, r) s.incidents) = lookup Prod.fst other s.incidents :=
    lookup_upsert_ne h
  exact congrArg (Option.map Prod.snd) h

/-- The state without an incident. -/
def State.drop (s : State) (name : String) : State := { s with incidents := remove Prod.fst name s.incidents }

theorem row_drop_self : (s.drop name).row name = none := by
  have h : lookup Prod.fst name (remove Prod.fst name s.incidents) = none := lookup_remove_self
  exact congrArg (Option.map Prod.snd) h

theorem row_drop_ne {other : String} (h : other ≠ name) : (s.drop name).row other = s.row other := by
  have h : lookup Prod.fst other (remove Prod.fst name s.incidents) = lookup Prod.fst other s.incidents :=
    lookup_remove_ne h
  exact congrArg (Option.map Prod.snd) h

end

/-- No row was notified before it was first seen, and no row was migrated. -/
structure Sane (s : State) : Prop where
  history : s.legacyHistory = []
  notified : ∀ entry ∈ s.incidents, ∀ at' ∈ entry.2.notifiedAt, entry.2.firstSeenAt ≤ at'

section
variable {dateParse : String → Option ℚ} {s : State} {m : Message}

/-- **The migration leaves the rows of these runs alone.** -/
theorem Sane.migrate (h : Sane s) (now : ℚ) : s.migrate dateParse now = s := by
  unfold State.migrate
  split_ifs with hvalid
  · have hkept : ∀ entries : List (String × Row), (∀ entry ∈ entries, entry ∈ s.incidents) →
        entries.foldl (migrateRow dateParse now) s = s := by
      intro entries hentries
      induction entries with
      | nil => rfl
      | cons entry entries ih =>
        have hnot : ¬(entry.1 ∈ knownNative ∧ entry.2.Legacy dateParse ∧ entry.2.lastSeenAt ≤ now) := by
          rintro ⟨-, ⟨-, -, -, ⟨at', hat, -, hlt⟩, -⟩, -⟩
          exact absurd hlt (not_lt.2 (h.notified entry (hentries entry List.mem_cons_self) at' hat))
        rw [List.foldl_cons, migrateRow, if_pos hnot]
        exact ih fun x hx => hentries x (List.mem_cons_of_mem _ hx)
    exact hkept s.incidents fun entry hentry => hentry
  · rfl

theorem Sane.not_repeated (h : Sane s) : ¬s.Repeated dateParse m := by
  rintro ⟨-, record, hrecord, -⟩
  rw [h.history] at hrecord
  cases hrecord

/-- What a message does to the incidents. -/
inductive Did (dateParse : String → Option ℚ) (m : Message) (s : State) : State → Option Alert → Prop
  | ignored : m.accepted = none → Did dateParse m s s none
  | reversed {x : Signal} {r : Row} : m.accepted = some x → s.row m.fact.incident = some r →
      m.now < r.lastSeenAt → Did dateParse m s (s.set m.fact.incident { r with clockConflict := true }) none
  | unseen : m.accepted = some .unknown → s.row m.fact.incident = none → Did dateParse m s s none
  | unknown {r : Row} : m.accepted = some .unknown → s.row m.fact.incident = some r → r.lastSeenAt ≤ m.now →
      Did dateParse m s (s.set m.fact.incident { r with currentEvidence := .unknown, lastSeenAt := m.now }) none
  | healthy : m.accepted = some .healthy → (∀ r ∈ s.row m.fact.incident, r.lastSeenAt ≤ m.now) →
      Did dateParse m s (s.drop m.fact.incident)
        (if ∃ r ∈ s.row m.fact.incident, ∃ at' ∈ r.notifiedAt, at' ≠ 0 then m.recoveryAlert else none)
  | confirmed : m.accepted = some .failed → (∀ r ∈ s.row m.fact.incident, r.lastSeenAt ≤ m.now) →
      m.Due (m.failedRow dateParse (s.row m.fact.incident)) →
      Did dateParse m s (s.set m.fact.incident
          { m.failedRow dateParse (s.row m.fact.incident) with notifiedAt := some m.now })
        (m.failureAlert (m.failedRow dateParse (s.row m.fact.incident)))
  | pending : m.accepted = some .failed → (∀ r ∈ s.row m.fact.incident, r.lastSeenAt ≤ m.now) →
      Did dateParse m s (s.set m.fact.incident (m.failedRow dateParse (s.row m.fact.incident))) none

variable (dateParse m) in
theorem Sane.did (h : Sane s) : Did dateParse m s (lifecycle dateParse m s).1 (lifecycle dateParse m s).2 := by
  unfold lifecycle
  cases haccepted : m.accepted with
  | none => exact .ignored haccepted
  | some x =>
    simp only [h.migrate, if_neg h.not_repeated]
    unfold State.signal
    simp only
    by_cases hreversed : ∃ r ∈ s.row m.fact.incident, m.now < r.lastSeenAt
    · obtain ⟨r, hr, hlt⟩ := hreversed
      rw [if_pos ⟨r, hr, hlt⟩, Option.mem_def.1 hr]
      exact .reversed haccepted hr hlt
    · have hle : ∀ r ∈ s.row m.fact.incident, r.lastSeenAt ≤ m.now :=
        fun r hr => not_lt.1 fun hlt => hreversed ⟨r, hr, hlt⟩
      rw [if_neg hreversed]
      cases x with
      | unknown =>
        cases hrow : s.row m.fact.incident with
        | none => exact .unseen haccepted hrow
        | some r => exact .unknown haccepted hrow (hle r hrow)
      | healthy => exact .healthy haccepted hle
      | failed =>
        simp only
        split_ifs with hdue
        · exact .confirmed haccepted hle hdue
        · exact .pending haccepted hle

end

/-! ## What confirms a failure -/

section
variable (dateParse : String → Option ℚ)

/-- What a row says of the failures since the last other signal. -/
structure Failing (ms : List Message) (r : Row) : Prop where
  first : ∃ m ∈ ms.head?, m.now = r.firstSeenAt
  ordered : ms.Pairwise fun a b => a.now ≤ b.now
  last : ∀ m ∈ ms, m.now ≤ r.lastSeenAt
  samplesOrdered : SamplesOrdered dateParse ms
  lastSample : ∀ m ∈ ms, m.fact.kind = "resource" → ∀ at' ∈ m.fact.observedAt.parse dateParse,
    ∃ last ∈ r.lastSampleAt.parse dateParse, at' ≤ last
  unsampled : r.sampleCount = 0 → r.lastSampleAt.value = none
  sampled : 1 ≤ r.sampleCount → ∃ a ∈ ms, a.fact.kind = "resource" ∧ a.fact.observedAt = r.lastSampleAt ∧
    (a.fact.observedAt.parse dateParse).isSome
  twice : 2 ≤ r.sampleCount → TwoSamples dateParse ms

/-- What a row says of the signals of its incident, unless it was notified or its clock is unclear. -/
structure Kept (ms : List Message) (r : Row) : Prop where
  unknown : r.notifiedAt = none → r.clockConflict = false → r.currentEvidence = .unknown → ms = []
  failing : r.notifiedAt = none → r.clockConflict = false → r.currentEvidence ≠ .unknown → Failing dateParse ms r

/-- A failure that starts with the next message, or goes on. -/
def Ready (ms : List Message) (b : Row) (now : ℚ) : Prop :=
  (ms = [] ∧ b.firstSeenAt = now ∧ b.sampleCount = 0 ∧ b.lastSampleAt.value = none) ∨
    Failing dateParse ms b ∧ b.lastSeenAt ≤ now

variable {dateParse} {m : Message} {ms : List Message} {old : Option Row}

variable (dateParse m) in
theorem sampled_cases (b : Row) : (m.sampled dateParse b).clockConflict = true ∨
    (m.fact.kind = "resource" → m.fact.observedAt = b.lastSampleAt) ∧ m.sampled dateParse b = b ∨
    m.fact.kind = "resource" ∧ m.fact.observedAt ≠ b.lastSampleAt ∧
      (∃ observed ∈ m.fact.observedAt.parse dateParse, ∀ last ∈ b.lastSampleAt.parse dateParse, last ≤ observed) ∧
      m.sampled dateParse b = { b with sampleCount := b.sampleCount + 1, lastSampleAt := m.fact.observedAt } := by
  unfold Message.sampled
  by_cases hnew : m.fact.kind = "resource" ∧ m.fact.observedAt ≠ b.lastSampleAt
  · rw [if_pos hnew]
    cases hparse : m.fact.observedAt.parse dateParse with
    | none => exact Or.inl rfl
    | some observed =>
      simp only
      split_ifs with hreversed
      · exact Or.inl rfl
      · refine Or.inr (Or.inr ⟨hnew.1, hnew.2, ⟨observed, rfl, fun last hlast => not_lt.1 fun hlt => ?_⟩, rfl⟩)
        refine hreversed ⟨?_, last, hlast, hlt⟩
        -- what has a date is not the empty text
        cases htext : b.lastSampleAt with
        | text s =>
          rw [htext] at hlast
          unfold Field.parse at hlast
          simp only [Field.value, Option.bind_some] at hlast
          split_ifs at hlast with hempty
          · cases hlast
          · simpa [Field.truthy, Field.value] using hempty
        | _ =>
          rw [htext] at hlast
          cases hlast
  · rw [if_neg hnew]
    exact Or.inr (Or.inl ⟨fun hkind => not_not.1 fun hne => hnew ⟨hkind, hne⟩, rfl⟩)

variable (dateParse m) in
theorem sampled_keeps (b : Row) : (m.sampled dateParse b).firstSeenAt = b.firstSeenAt ∧
    (m.sampled dateParse b).lastSeenAt = b.lastSeenAt ∧ (m.sampled dateParse b).notifiedAt = b.notifiedAt ∧
    (m.sampled dateParse b).currentEvidence = b.currentEvidence ∧
    ((m.sampled dateParse b).clockConflict = false → b.clockConflict = false) := by
  unfold Message.sampled
  split_ifs
  · cases m.fact.observedAt.parse dateParse with
    | none => exact ⟨rfl, rfl, rfl, rfl, fun h => Bool.noConfusion h⟩
    | some observed =>
      simp only
      split_ifs
      · exact ⟨rfl, rfl, rfl, rfl, fun h => h.elim⟩
      · exact ⟨rfl, rfl, rfl, rfl, fun h => h⟩
  · exact ⟨rfl, rfl, rfl, rfl, fun h => h⟩

/-- **One more failure.** -/
theorem Ready.failing {b : Row} (h : Ready dateParse ms b m.now)
    (hclock : (m.sampled dateParse { b with lastSeenAt := m.now, currentEvidence := .failed }).clockConflict = false) :
    Failing dateParse (ms ++ [m]) (m.sampled dateParse { b with lastSeenAt := m.now, currentEvidence := .failed }) := by
  set b' : Row := { b with lastSeenAt := m.now, currentEvidence := .failed } with hb'
  obtain ⟨hfirst', hlast', -⟩ := sampled_keeps dateParse m b'
  have hfirst : ∃ x ∈ (ms ++ [m]).head?, x.now = b.firstSeenAt := by
    rcases h with ⟨rfl, hnow, -⟩ | ⟨h, -⟩
    · exact ⟨m, rfl, hnow.symm⟩
    · obtain ⟨x, hx, hfirst⟩ := h.first
      exact ⟨x, by rw [List.head?_append, Option.mem_def.1 hx]; rfl, hfirst⟩
  have hle : ∀ x ∈ ms, x.now ≤ m.now := by
    rcases h with ⟨rfl, -⟩ | ⟨h, hle⟩
    · exact fun x hx => (List.not_mem_nil hx).elim
    · exact fun x hx => (h.last x hx).trans hle
  have hordered : (ms ++ [m]).Pairwise fun a b => a.now ≤ b.now := by
    refine List.pairwise_append.2 ⟨?_, List.pairwise_singleton _ _, fun a ha x hx => ?_⟩
    · rcases h with ⟨rfl, -⟩ | ⟨h, -⟩
      · exact List.Pairwise.nil
      · exact h.ordered
    · rw [List.mem_singleton.1 hx]
      exact hle a ha
  have hlast : ∀ x ∈ ms ++ [m], x.now ≤ m.now := by
    intro x hx
    rcases List.mem_append.1 hx with hx | hx
    · exact hle x hx
    · rw [List.mem_singleton.1 hx]
  have hsamples : SamplesOrdered dateParse ms ∧ ∀ x ∈ ms, x.fact.kind = "resource" →
      ∀ at' ∈ x.fact.observedAt.parse dateParse, ∃ last ∈ b.lastSampleAt.parse dateParse, at' ≤ last := by
    rcases h with ⟨rfl, -⟩ | ⟨h, -⟩
    · exact ⟨List.Pairwise.nil, fun x hx => (List.not_mem_nil hx).elim⟩
    · exact ⟨h.samplesOrdered, h.lastSample⟩
  have hunsampled : b.sampleCount = 0 → b.lastSampleAt.value = none := by
    rcases h with ⟨-, -, -, hnone⟩ | ⟨h, -⟩
    · exact fun _ => hnone
    · exact h.unsampled
  have hsampled : 1 ≤ b.sampleCount → ∃ a ∈ ms, a.fact.kind = "resource" ∧ a.fact.observedAt = b.lastSampleAt ∧
      (a.fact.observedAt.parse dateParse).isSome := by
    rcases h with ⟨-, -, hzero, -⟩ | ⟨h, -⟩
    · exact fun hone => absurd hone (by rw [hzero]; exact Nat.not_succ_le_zero 0)
    · exact h.sampled
  have htwice : 2 ≤ b.sampleCount → TwoSamples dateParse ms := by
    rcases h with ⟨-, -, hzero, -⟩ | ⟨h, -⟩
    · exact fun htwo => absurd htwo (by rw [hzero]; exact Nat.not_succ_le_zero 1)
    · exact h.twice
  have hmono : TwoSamples dateParse ms → TwoSamples dateParse (ms ++ [m]) := by
    rintro ⟨x, y, hsub, hrest⟩
    exact ⟨x, y, hsub.trans (List.sublist_append_left _ _), hrest⟩
  -- a sample that is not before the last one
  have hnext : ∀ {t : Field}, (∀ last ∈ b.lastSampleAt.parse dateParse, ∃ new ∈ t.parse dateParse, last ≤ new) →
      (m.fact.kind = "resource" → m.fact.observedAt = t) →
      SamplesOrdered dateParse (ms ++ [m]) ∧ ∀ x ∈ ms ++ [m], x.fact.kind = "resource" →
        ∀ at' ∈ x.fact.observedAt.parse dateParse, ∃ last ∈ t.parse dateParse, at' ≤ last := by
    intro t hnot htext
    have hold : ∀ x ∈ ms, x.fact.kind = "resource" → ∀ at' ∈ x.fact.observedAt.parse dateParse,
        ∃ last ∈ t.parse dateParse, at' ≤ last := by
      intro x hx hkind at' hat
      obtain ⟨last, hlast, hle⟩ := hsamples.2 x hx hkind at' hat
      obtain ⟨new, hnew, hle'⟩ := hnot last hlast
      exact ⟨new, hnew, hle.trans hle'⟩
    refine ⟨List.pairwise_append.2 ⟨hsamples.1, List.pairwise_singleton _ _, fun a ha x hx => ?_⟩, fun x hx => ?_⟩
    · obtain rfl := List.mem_singleton.1 hx
      intro hkind hkind' first hfirst last hlast
      obtain ⟨new, hnew, hle⟩ := hold a ha hkind first hfirst
      rw [htext hkind'] at hlast
      exact hle.trans (Option.some.inj ((Option.mem_def.1 hnew).symm.trans hlast)).le
    · rcases List.mem_append.1 hx with hx | hx
      · exact hold x hx
      · obtain rfl := List.mem_singleton.1 hx
        intro hkind at' hat
        rw [htext hkind] at hat
        exact ⟨at', hat, le_rfl⟩
  rcases sampled_cases dateParse m b' with hconflict | ⟨htext, hsame⟩ | ⟨hkind, hne, ⟨observed, hobserved, hnot⟩, hnew⟩
  · rw [hclock] at hconflict
    cases hconflict
  · rw [hsame]
    obtain ⟨hsorted, hlastSample⟩ := hnext (fun last hlast => ⟨last, hlast, le_rfl⟩) htext
    refine ⟨hfirst, hordered, hlast, hsorted, hlastSample, hunsampled, fun hone => ?_, fun htwo => hmono (htwice htwo)⟩
    obtain ⟨a, ha, hrest⟩ := hsampled hone
    exact ⟨a, List.mem_append_left _ ha, hrest⟩
  · have hm : m ∈ ms ++ [m] := List.mem_append_right _ (List.mem_singleton_self m)
    obtain ⟨hsorted, hlastSample⟩ :=
      hnext (t := m.fact.observedAt) (fun last hlast => ⟨observed, hobserved, hnot last hlast⟩) fun _ => rfl
    rw [hnew]
    refine ⟨hfirst, hordered, hlast, hsorted, hlastSample, fun hzero => absurd hzero (Nat.succ_ne_zero _),
      fun _ => ⟨m, hm, hkind, rfl, Option.isSome_iff_exists.2 ⟨observed, hobserved⟩⟩, fun htwo => ?_⟩
    -- the sample before this one
    obtain ⟨a, ha, hresource, hat, hdate⟩ := hsampled (Nat.le_of_succ_le_succ htwo)
    obtain ⟨last, hlast⟩ := Option.isSome_iff_exists.1 hdate
    refine ⟨a, m, ?_, hresource, hkind, ?_, last, hlast, observed, hobserved, hnot last ?_⟩
    · exact (List.singleton_sublist.2 ha).append (List.Sublist.refl [m])
    · rw [hat]
      exact hne.symm
    · rw [hat] at hlast
      exact hlast

theorem incidentOf_some {r : Row} : m.incidentOf (some r) =
    if r.currentEvidence = .unknown ∧ r.notifiedAt = none then
      { r with
        firstSeenAt := m.now, sampleCount := 0, lastSampleAt := .null
        sourceFirstObservedAt := m.fact.sourceAt, sourceTimeKind := m.fact.timeKind }
    else r := rfl

/-- The incident that a failure starts or goes on with. -/
theorem ready_incidentOf (hnone : old = none → ms = []) (hkept : ∀ r ∈ old, Kept dateParse ms r)
    (hle : ∀ r ∈ old, r.lastSeenAt ≤ m.now) (hnotified : (m.incidentOf old).notifiedAt = none)
    (hclock : (m.incidentOf old).clockConflict = false) : Ready dateParse ms (m.incidentOf old) m.now := by
  cases old with
  | none => exact Or.inl ⟨hnone rfl, rfl, rfl, rfl⟩
  | some r =>
    have hkept := hkept r rfl
    rw [incidentOf_some] at hnotified hclock ⊢
    split_ifs at hnotified hclock ⊢ with hrestart
    · exact Or.inl ⟨hkept.unknown hrestart.2 hclock hrestart.1, rfl, rfl, rfl⟩
    · refine Or.inr ⟨hkept.failing hnotified hclock fun hunknown => hrestart ⟨hunknown, hnotified⟩, hle r rfl⟩

theorem notifiedAt_incidentOf : (m.incidentOf old).notifiedAt = old.bind Row.notifiedAt := by
  cases old with
  | none => rfl
  | some r =>
    rw [incidentOf_some]
    split_ifs <;> rfl

theorem firstSeenAt_incidentOf {r : Row} {at' : ℚ} (h : r.notifiedAt = some at') :
    (m.incidentOf (some r)).firstSeenAt = r.firstSeenAt := by
  rw [incidentOf_some, if_neg]
  rintro ⟨-, hnone⟩
  rw [h] at hnone
  cases hnone

theorem notifiedAt_failedRow : (m.failedRow dateParse old).notifiedAt = old.bind Row.notifiedAt := by
  rw [Message.failedRow, (sampled_keeps _ _ _).2.2.1]
  exact notifiedAt_incidentOf

/-- What a row says after one more failure. -/
theorem Kept.failedRow (hnone : old = none → ms = []) (hkept : ∀ r ∈ old, Kept dateParse ms r)
    (hle : ∀ r ∈ old, r.lastSeenAt ≤ m.now) : Kept dateParse (ms ++ [m]) (m.failedRow dateParse old) := by
  have hevidence : (m.failedRow dateParse old).currentEvidence = .failed := by
    rw [Message.failedRow, (sampled_keeps _ _ _).2.2.2.1]
  refine ⟨fun _ _ hunknown => ?_, fun hnotified hclock _ => ?_⟩
  · rw [hevidence] at hunknown
    cases hunknown
  · rw [notifiedAt_failedRow] at hnotified
    have hbase : (m.incidentOf old).clockConflict = false := by
      have h := (sampled_keeps dateParse m
        { m.incidentOf old with lastSeenAt := m.now, currentEvidence := .failed }).2.2.2.2
      exact h hclock
    have hready := ready_incidentOf hnone hkept hle (notifiedAt_incidentOf.trans hnotified) hbase
    exact hready.failing hclock

end

/-! ## One message -/

section
variable {dateParse : String → Option ℚ} {s s' : State} {m : Message} {alert : Option Alert}

theorem recoveryAlert_eq {a : Alert} (h : a ∈ m.recoveryAlert) :
    a.recovery = true ∧ a.test = m.test ∧ a.incidentKey = m.fact.incident := by
  unfold Message.recoveryAlert at h
  by_cases hdate : Representable m.now
  · rw [if_pos hdate] at h
    obtain rfl := Option.some.inj h
    exact ⟨rfl, rfl, rfl⟩
  · rw [if_neg hdate] at h
    cases h

theorem failureAlert_eq {r : Row} {a : Alert} (h : a ∈ m.failureAlert r) :
    a.recovery = false ∧ a.test = m.test ∧ a.incidentKey = m.fact.incident := by
  unfold Message.failureAlert at h
  by_cases hdate : Representable m.now ∧ Representable r.firstSeenAt
  · rw [if_pos hdate] at h
    obtain rfl := Option.some.inj h
    exact ⟨rfl, rfl, rfl⟩
  · rw [if_neg hdate] at h
    cases h

theorem Did.other (h : Did dateParse m s s' alert) {name : String} (hname : name ≠ m.fact.incident) :
    s'.row name = s.row name := by
  cases h with
  | ignored | unseen => rfl
  | reversed | unknown | confirmed | pending => exact row_set_ne hname
  | healthy => exact row_drop_ne hname

theorem Sane.set (h : Sane s) {name : String} {r : Row} (hr : ∀ at' ∈ r.notifiedAt, r.firstSeenAt ≤ at') :
    Sane (s.set name r) := by
  refine ⟨h.history, fun entry hentry => ?_⟩
  rcases mem_upsert.1 hentry with ⟨hentry, -⟩ | rfl
  · exact h.notified entry hentry
  · exact hr

theorem Sane.row (h : Sane s) {name : String} {r : Row} (hr : s.row name = some r) :
    ∀ at' ∈ r.notifiedAt, r.firstSeenAt ≤ at' := by
  obtain ⟨entry, hentry, rfl⟩ := Option.map_eq_some_iff.1 hr
  exact h.notified entry (lookup_eq_some hentry).1

theorem Sane.failedRow (h : Sane s) : ∀ at' ∈ (m.failedRow dateParse (s.row m.fact.incident)).notifiedAt,
    (m.failedRow dateParse (s.row m.fact.incident)).firstSeenAt ≤ at' := by
  intro at' hat
  rw [notifiedAt_failedRow] at hat
  obtain ⟨r, hr, hat⟩ := Option.bind_eq_some_iff.1 hat
  rw [Message.failedRow, (sampled_keeps _ _ _).1, hr]
  exact (firstSeenAt_incidentOf hat).le.trans (h.row hr at' hat)

theorem Sane.did_sane (h : Sane s) (hdid : Did dateParse m s s' alert) : Sane s' := by
  cases hdid with
  | ignored | unseen => exact h
  | @reversed x r _ hr => exact h.set (r := { r with clockConflict := true }) (h.row (r := r) hr)
  | @unknown r _ hr =>
    exact h.set (r := { r with currentEvidence := .unknown, lastSeenAt := m.now }) (h.row (r := r) hr)
  | healthy => exact ⟨h.history, fun entry hentry => h.notified entry (List.mem_of_mem_filter hentry)⟩
  | confirmed _ _ hdue =>
    obtain ⟨⟨bound, -, hmin, hspan⟩, -⟩ := hdue
    have hzero : (0 : ℚ) ≤ 1000 := by norm_num
    refine h.set fun at' hat => ?_
    obtain rfl := Option.some.inj hat
    exact sub_nonneg.1 (hzero.trans (hmin.trans hspan))
  | pending => exact h.set h.failedRow

/-- The messages of the incident, with this one. -/
def Message.streakAfter (m : Message) (ms : List Message) : List Message :=
  match m.accepted with
  | some .failed => ms ++ [m]
  | some _ => []
  | none => ms

/-- What a message leaves of the incident. -/
theorem Did.kept {ms : List Message} (h : Did dateParse m s s' alert)
    (hfresh : s.row m.fact.incident = none → ms = [])
    (hkept : ∀ r ∈ s.row m.fact.incident, Kept dateParse ms r) :
    (s'.row m.fact.incident = none → m.streakAfter ms = []) ∧
      ∀ r ∈ s'.row m.fact.incident, Kept dateParse (m.streakAfter ms) r := by
  unfold Message.streakAfter
  cases h with
  | ignored hignored =>
    rw [hignored]
    exact ⟨hfresh, hkept⟩
  | @reversed x r _ hr =>
    rw [row_set_self]
    refine ⟨fun hnone => (Option.some_ne_none _ hnone).elim, fun r' hr' => ?_⟩
    obtain rfl := Option.some.inj hr'
    exact ⟨fun _ hclock => Bool.noConfusion hclock, fun _ hclock => Bool.noConfusion hclock⟩
  | unseen haccepted hnone =>
    rw [haccepted, hnone]
    exact ⟨fun _ => rfl, fun r hr => (Option.not_mem_none r hr).elim⟩
  | unknown haccepted hr =>
    rw [haccepted, row_set_self]
    refine ⟨fun _ => rfl, fun r' hr' => ?_⟩
    obtain rfl := Option.some.inj hr'
    exact ⟨fun _ _ _ => rfl, fun _ _ hknown => absurd rfl hknown⟩
  | healthy haccepted =>
    rw [haccepted, row_drop_self]
    exact ⟨fun _ => rfl, fun r hr => (Option.not_mem_none r hr).elim⟩
  | confirmed haccepted _ _ =>
    rw [haccepted, row_set_self]
    refine ⟨fun hnone => (Option.some_ne_none _ hnone).elim, fun r hr => ?_⟩
    obtain rfl := Option.some.inj hr
    exact ⟨fun hnotified => (Option.some_ne_none _ hnotified).elim, fun hnotified => (Option.some_ne_none _ hnotified).elim⟩
  | pending haccepted hle =>
    rw [haccepted, row_set_self]
    refine ⟨fun hnone => (Option.some_ne_none _ hnone).elim, fun r hr => ?_⟩
    obtain rfl := Option.some.inj hr
    exact Kept.failedRow hfresh hkept hle

/-- **What is told of a failure was confirmed.** -/
theorem Did.alert_confirmed {ms : List Message} {a : Alert} (h : Did dateParse m s s' alert)
    (hfresh : s.row m.fact.incident = none → ms = [])
    (hkept : ∀ r ∈ s.row m.fact.incident, Kept dateParse ms r) (ha : a ∈ alert) (hfailure : a.recovery = false) :
    Confirmed dateParse (m.streakAfter ms) m := by
  cases h with
  | healthy =>
    split_ifs at ha
    · rw [(recoveryAlert_eq ha).1] at hfailure
      cases hfailure
    · cases ha
  | confirmed haccepted hle hdue =>
    have hrow := Kept.failedRow hfresh hkept hle
    obtain ⟨⟨confirmation, hconfirmation, hmin, hspan⟩, hclock, hsamples, hnotified⟩ := hdue
    have hevidence : (m.failedRow dateParse (s.row m.fact.incident)).currentEvidence ≠ .unknown := by
      rw [Message.failedRow, (sampled_keeps _ _ _).2.2.2.1]
      exact Evidence.noConfusion
    have hfailing := hrow.failing hnotified hclock hevidence
    obtain ⟨first, hfirst, hnow⟩ := hfailing.first
    rw [Message.streakAfter, haccepted]
    refine ⟨hfailing.ordered, hfailing.samplesOrdered, ⟨first, hfirst, confirmation, hconfirmation, hmin, hnow ▸ hspan⟩, fun hresource => ?_⟩
    exact hfailing.twice (hsamples hresource)
  | _ => cases ha

theorem Did.recovered {a : Alert} (h : Did dateParse m s s' alert) (ha : a ∈ alert) (hrecovery : a.recovery = true) :
    ∃ r ∈ s.row m.fact.incident, r.notifiedAt.isSome := by
  cases h with
  | healthy =>
    split_ifs at ha with hnotified
    · obtain ⟨r, hr, at', hat, -⟩ := hnotified
      exact ⟨r, hr, Option.isSome_iff_exists.2 ⟨at', hat⟩⟩
    · cases ha
  | confirmed =>
    rw [(failureAlert_eq ha).1] at hrecovery
    cases hrecovery
  | _ => cases ha

end

/-! ## The runs -/

section
variable {dateParse : String → Option ℚ} {test : Bool} {name : String} {log : List Entry} {e : Entry}

theorem streak_concat : streak test name (log ++ [e]) =
    if e.message.test = test ∧ e.message.fact.incident = name then e.message.streakAfter (streak test name log)
    else streak test name log := by
  rw [streak, List.foldl_append]
  rfl

variable (dateParse) in
/-- What the rows say of the messages so far, and what was told of them. -/
structure Faithful (o : Observed) : Prop where
  sane : ∀ test, Sane (o.stores test)
  fresh : ∀ test name, (o.stores test).row name = none → streak test name o.log = []
  kept : ∀ test name, ∀ r ∈ (o.stores test).row name, Kept dateParse (streak test name o.log) r
  confirmed : ∀ before e after, o.log = before ++ e :: after → ∀ a ∈ e.alert, a.recovery = false →
    Confirmed dateParse (streak e.message.test e.message.fact.incident (before ++ [e])) e.message
  recovered : ∀ e ∈ o.log, ∀ a ∈ e.alert, a.recovery = true → ∃ r ∈ e.before, r.notifiedAt.isSome

theorem faithful_invariant : (lifecycleMachine dateParse).Invariant (Faithful dateParse) where
  start o hstart := by
    obtain rfl : o = .start := hstart
    refine ⟨fun _ => ⟨rfl, fun entry hentry => (List.not_mem_nil hentry).elim⟩, fun _ _ _ => rfl,
      fun _ _ r hr => (Option.not_mem_none r hr).elim, ?_, fun e he => (List.not_mem_nil he).elim⟩
    intro before e after hsplit
    exact absurd hsplit.symm (List.append_ne_nil_of_right_ne_nil _ (List.cons_ne_nil _ _))
  step o o' _ h hstep := by
    obtain ⟨m, rfl⟩ := hstep
    have hdid := (h.sane m.test).did dateParse m
    have hkept := hdid.kept (h.fresh m.test m.fact.incident) (h.kept m.test m.fact.incident)
    have hself : (o.handle dateParse m).stores m.test = (lifecycle dateParse m (o.stores m.test)).1 :=
      Function.update_self _ _ _
    have hother : ∀ test, test ≠ m.test → (o.handle dateParse m).stores test = o.stores test :=
      fun test hne => Function.update_of_ne hne _ _
    -- the rows of other incidents are as they were
    have hrow : ∀ test name, (test = m.test ∧ name = m.fact.incident) ∨
        ((o.handle dateParse m).stores test).row name = (o.stores test).row name ∧
          streak test name (o.handle dateParse m).log = streak test name o.log := by
      intro test name
      by_cases htest : test = m.test
      · subst htest
        by_cases hname : name = m.fact.incident
        · exact Or.inl ⟨rfl, hname⟩
        · refine Or.inr ⟨by rw [hself]; exact hdid.other hname, ?_⟩
          rw [Observed.handle, streak_concat, if_neg fun hcond => hname hcond.2.symm]
      · refine Or.inr ⟨by rw [hother test htest], ?_⟩
        rw [Observed.handle, streak_concat, if_neg fun hcond => htest hcond.1.symm]
    have hstreak : streak m.test m.fact.incident (o.handle dateParse m).log =
        m.streakAfter (streak m.test m.fact.incident o.log) := by
      rw [Observed.handle, streak_concat, if_pos ⟨rfl, rfl⟩]
    refine ⟨fun test => ?_, fun test name hnone => ?_, fun test name r hr => ?_, fun before e after hsplit => ?_,
      fun e he => ?_⟩
    · by_cases htest : test = m.test
      · rw [htest, hself]
        exact (h.sane m.test).did_sane hdid
      · rw [hother test htest]
        exact h.sane test
    · rcases hrow test name with ⟨rfl, rfl⟩ | ⟨hsame, hlog⟩
      · rw [hself] at hnone
        rw [hstreak]
        exact hkept.1 hnone
      · rw [hlog]
        exact h.fresh test name (hsame ▸ hnone)
    · rcases hrow test name with ⟨rfl, rfl⟩ | ⟨hsame, hlog⟩
      · rw [hself] at hr
        rw [hstreak]
        exact hkept.2 r hr
      · rw [hlog]
        exact h.kept test name r (hsame ▸ hr)
    · rcases List.eq_nil_or_concat after with rfl | ⟨rest, x, rfl⟩
      · obtain ⟨rfl, hlast⟩ := List.append_inj' hsplit rfl
        obtain rfl := (List.cons.inj hlast).1
        intro a ha hfailure
        rw [streak_concat, if_pos ⟨rfl, rfl⟩]
        exact hdid.alert_confirmed (h.fresh _ _) (h.kept _ _) ha hfailure
      · rw [List.concat_eq_append, ← List.cons_append, ← List.append_assoc] at hsplit
        obtain ⟨hbefore, -⟩ := List.append_inj' hsplit rfl
        exact h.confirmed before e rest hbefore
    · rcases List.mem_append.1 he with he | he
      · exact h.recovered e he
      · obtain rfl := List.mem_singleton.1 he
        exact fun a => hdid.recovered

/-- The run of one step, read back. -/
theorem regular_reachable {o : Observed} (h : (regularMachine dateParse).Reachable o) :
    (lifecycleMachine dateParse).Reachable o := by
  induction h with
  | start hstart => exact .start hstart
  | step _ hstep ih =>
    obtain ⟨m, -, hm⟩ := hstep
    exact ih.step ⟨m, hm⟩

/-! ## Alternation -/

theorem Alternates.concat {alerts : List Bool} {b : Bool} (h : Alternates alerts)
    (hlast : alerts.getLast? = some false ↔ b = true) : Alternates (alerts ++ [b]) := by
  refine ⟨List.isChain_append.2 ⟨h.1, List.isChain_singleton b, fun x hx y hy => ?_⟩, fun x hx => ?_⟩
  · obtain rfl := Option.some.inj hy
    rw [Option.mem_def.1 hx] at hlast
    cases x <;> cases b <;> simp_all
  · cases alerts with
    | nil =>
      obtain rfl := Option.some.inj hx
      simpa using hlast
    | cons first rest => exact h.2 x hx

theorem recoveries_concat : recoveries test name (log ++ [e]) =
    recoveries test name log ++
      ((e.alert.filter fun a => a.test = test ∧ a.incidentKey = name).map Alert.recovery).toList := by
  unfold recoveries
  rw [List.filterMap_append, List.filterMap_cons]
  cases (e.alert.filter fun a => a.test = test ∧ a.incidentKey = name).map Alert.recovery <;> rfl

/-- The incident was notified. -/
def State.Notified (s : State) (name : String) : Prop := ∃ r ∈ s.row name, r.notifiedAt.isSome

/-- The rows were first seen at dates. -/
def State.Dated (s : State) : Prop := ∀ name, ∀ r ∈ s.row name, Representable r.firstSeenAt

section
variable {s s' : State} {m : Message} {alert : Option Alert}

theorem Did.alert_key (h : Did dateParse m s s' alert) :
    ∀ a ∈ alert, a.test = m.test ∧ a.incidentKey = m.fact.incident := by
  intro a ha
  cases h with
  | healthy =>
    split_ifs at ha
    · exact (recoveryAlert_eq ha).2
    · cases ha
  | confirmed => exact (failureAlert_eq ha).2
  | _ => cases ha

theorem failedRow_dated (hregular : Regular s m) (hfailed : m.accepted = some .failed) (hdated : s.Dated) :
    Representable (m.failedRow dateParse (s.row m.fact.incident)).firstSeenAt := by
  rw [Message.failedRow, (sampled_keeps _ _ _).1]
  cases hrow : s.row m.fact.incident with
  | none => exact hregular.failed hfailed
  | some r =>
    simp only [incidentOf_some]
    split_ifs
    · exact hregular.failed hfailed
    · exact hdated _ r hrow

theorem State.Dated.set {r : Row} (h : s.Dated) (hr : Representable r.firstSeenAt) : (s.set name r).Dated := by
  intro other r' hr'
  by_cases hname : other = name
  · subst hname
    rw [row_set_self] at hr'
    obtain rfl := Option.some.inj hr'
    exact hr
  · rw [row_set_ne hname] at hr'
    exact h other r' hr'

theorem Did.dated (h : Did dateParse m s s' alert) (hregular : Regular s m) (hdated : s.Dated) : s'.Dated := by
  cases h with
  | ignored | unseen => exact hdated
  | @reversed x r _ hr => exact hdated.set (r := { r with clockConflict := true }) (hdated _ r hr)
  | @unknown r _ hr =>
    exact hdated.set (r := { r with currentEvidence := .unknown, lastSeenAt := m.now }) (hdated _ r hr)
  | healthy =>
    intro other r hr
    by_cases hname : other = m.fact.incident
    · subst hname
      rw [row_drop_self] at hr
      cases hr
    · rw [row_drop_ne hname] at hr
      exact hdated other r hr
  | confirmed hfailed =>
    exact hdated.set (r := { m.failedRow dateParse (s.row m.fact.incident) with notifiedAt := some m.now })
      (failedRow_dated hregular hfailed hdated)
  | pending hfailed => exact hdated.set (failedRow_dated hregular hfailed hdated)

theorem notified_set {r : Row} : (s.set name r).Notified name ↔ r.notifiedAt.isSome := by
  unfold State.Notified
  rw [row_set_self]
  simp

theorem notified_of_row {r : Row} (h : s.row name = some r) : s.Notified name ↔ r.notifiedAt.isSome := by
  unfold State.Notified
  rw [h]
  simp

/-- **A failure is told of an incident that was not notified, a recovery of one that was.** -/
theorem Did.told (h : Did dateParse m s s' alert) (hregular : Regular s m) (hdated : s.Dated) :
    (alert = none ∧ (s'.Notified m.fact.incident ↔ s.Notified m.fact.incident)) ∨
      ∃ a, alert = some a ∧ (a.recovery = true ↔ s.Notified m.fact.incident) ∧
        (a.recovery = false ↔ s'.Notified m.fact.incident) := by
  cases h with
  | ignored | unseen => exact Or.inl ⟨rfl, Iff.rfl⟩
  | @reversed x r _ hr => exact Or.inl ⟨rfl, notified_set.trans (notified_of_row hr).symm⟩
  | @unknown r _ hr => exact Or.inl ⟨rfl, notified_set.trans (notified_of_row hr).symm⟩
  | healthy hhealthy hle =>
    have hgone : ¬(s.drop m.fact.incident).Notified m.fact.incident := by
      rintro ⟨r, hr, -⟩
      rw [row_drop_self] at hr
      cases hr
    by_cases hnotified : s.Notified m.fact.incident
    · obtain ⟨r, hr, hsome⟩ := hnotified
      obtain ⟨at', hat⟩ := Option.isSome_iff_exists.1 hsome
      obtain ⟨hne, hdate⟩ := hregular.healthy hhealthy r hr (hle r hr) at' hat
      rw [if_pos ⟨r, hr, at', hat, hne⟩]
      unfold Message.recoveryAlert
      rw [if_pos hdate]
      refine Or.inr ⟨_, rfl, ⟨fun _ => ⟨r, hr, hsome⟩, fun _ => rfl⟩, fun h => Bool.noConfusion h, fun h => ?_⟩
      exact (hgone h).elim
    · rw [if_neg]
      · exact Or.inl ⟨rfl, fun h => (hgone h).elim, fun h => (hnotified h).elim⟩
      · rintro ⟨r, hr, at', hat, -⟩
        exact hnotified ⟨r, hr, Option.isSome_iff_exists.2 ⟨at', hat⟩⟩
  | confirmed hfailed hle hdue =>
    have hnot : ¬s.Notified m.fact.incident := by
      rintro ⟨r, hr, hsome⟩
      have hnone := hdue.2.2.2
      rw [notifiedAt_failedRow, Option.mem_def.1 hr, Option.bind_some] at hnone
      rw [hnone] at hsome
      cases hsome
    unfold Message.failureAlert
    rw [if_pos ⟨hregular.failed hfailed, failedRow_dated hregular hfailed hdated⟩]
    refine Or.inr ⟨_, rfl, ⟨fun h => Bool.noConfusion h, fun h => (hnot h).elim⟩, fun _ => ?_, fun _ => rfl⟩
    exact notified_set.2 rfl
  | pending hfailed hle =>
    refine Or.inl ⟨rfl, notified_set.trans ?_⟩
    rw [notifiedAt_failedRow]
    unfold State.Notified
    cases s.row m.fact.incident <;> simp

end

/-- The alerts of every incident so far. -/
structure Told (o : Observed) : Prop where
  dated : ∀ test, (o.stores test).Dated
  alternates : ∀ test name, Alternates (recoveries test name o.log)
  notified : ∀ test name, (recoveries test name o.log).getLast? = some false ↔ (o.stores test).Notified name

theorem told_invariant : (regularMachine dateParse).Invariant Told where
  start o hstart := by
    obtain rfl : o = .start := hstart
    have hnone : ∀ test name, ¬(Observed.start.stores test).Notified name := by
      rintro test name ⟨r, hr, -⟩
      cases hr
    refine ⟨fun _ _ r hr => (Option.not_mem_none r hr).elim, fun _ _ => ⟨.nil, fun b hb => ?_⟩, fun test name => ?_⟩
    · cases hb
    · exact ⟨fun h => (Option.some_ne_none _ h.symm).elim, fun h => (hnone test name h).elim⟩
  step o o' hreachable h hstep := by
    obtain ⟨m, hregular, rfl⟩ := hstep
    have hdid := ((faithful_invariant.reachable (regular_reachable hreachable)).sane m.test).did dateParse m
    have hself : (o.handle dateParse m).stores m.test = (lifecycle dateParse m (o.stores m.test)).1 :=
      Function.update_self _ _ _
    have hother : ∀ test, test ≠ m.test → (o.handle dateParse m).stores test = o.stores test :=
      fun test hne => Function.update_of_ne hne _ _
    -- what is told of another incident, or in the other mode
    have hquiet : ∀ test name, ¬(m.test = test ∧ m.fact.incident = name) →
        recoveries test name (o.handle dateParse m).log = recoveries test name o.log := by
      intro test name hne
      have hnone : (lifecycle dateParse m (o.stores m.test)).2.filter
          (fun a => a.test = test ∧ a.incidentKey = name) = none := by
        refine Option.filter_eq_none_iff.2 fun a ha => ?_
        obtain ⟨htest, hkey⟩ := hdid.alert_key a ha
        rw [htest, hkey]
        simpa using hne
      rw [Observed.handle, recoveries_concat, hnone]
      exact List.append_nil _
    have hnotified : ∀ test name, ¬(m.test = test ∧ m.fact.incident = name) →
        (((o.handle dateParse m).stores test).Notified name ↔ (o.stores test).Notified name) := by
      intro test name hne
      unfold State.Notified
      by_cases htest : test = m.test
      · subst htest
        rw [hself, hdid.other fun hname => hne ⟨rfl, hname.symm⟩]
      · rw [hother test htest]
    have hdated : ∀ test, ((o.handle dateParse m).stores test).Dated := by
      intro test
      by_cases htest : test = m.test
      · rw [htest, hself]
        exact hdid.dated hregular (h.dated m.test)
      · rw [hother test htest]
        exact h.dated test
    -- what is told of this incident
    have htold : Alternates (recoveries m.test m.fact.incident (o.handle dateParse m).log) ∧
        ((recoveries m.test m.fact.incident (o.handle dateParse m).log).getLast? = some false ↔
          ((o.handle dateParse m).stores m.test).Notified m.fact.incident) := by
      rw [hself, Observed.handle, recoveries_concat]
      have hlast := h.notified m.test m.fact.incident
      rcases hdid.told hregular (h.dated m.test) with ⟨hnone, hsame⟩ | ⟨a, ha, hbefore, hafter⟩
      · rw [hnone, hsame]
        simpa using ⟨h.alternates m.test m.fact.incident, hlast⟩
      · have hkey := hdid.alert_key a ha
        rw [ha, Option.filter_some_pos (by simpa using hkey)]
        refine ⟨(h.alternates m.test m.fact.incident).concat (hlast.trans hbefore.symm), ?_⟩
        rw [Option.map_some, Option.toList_some, List.getLast?_concat, Option.some_inj]
        exact hafter
    refine ⟨hdated, fun test name => ?_, fun test name => ?_⟩
    · by_cases heq : m.test = test ∧ m.fact.incident = name
      · obtain ⟨rfl, rfl⟩ := heq
        exact htold.1
      · rw [hquiet test name heq]
        exact h.alternates test name
    · by_cases heq : m.test = test ∧ m.fact.incident = name
      · obtain ⟨rfl, rfl⟩ := heq
        exact htold.2
      · rw [hquiet test name heq, hnotified test name heq]
        exact h.notified test name

/-- A test that finds the observation of the report failed or healthy. -/
def reportMessage (now : ℚ) (x : Signal) : Message where
  test := true
  runId := none
  now := now
  policy := ⟨some 1000, some 1000, some 1000⟩
  fact := ⟨"observation", none, "report", .missing, .missing⟩
  signal := some x

/-- The state after these messages, where no text is a date. -/
def reportRun (ms : List Message) : Observed := ms.foldl (Observed.handle fun _ => none) .start

end

end SmartHome.HostObserver
