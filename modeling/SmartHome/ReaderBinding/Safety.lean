/-
  The bounds of the reader-binding controller: whatever the manager answers and wherever a request
  stops, an operation has at most one apply and one restore effect, effects keep their distance and
  their daily budget, an incident has at most one operation with an effect, and nothing is written
  after a revocation.
-/
import SmartHome.Lib.Budget
import SmartHome.Lib.Machine
import SmartHome.ReaderBinding.Controller

namespace SmartHome.ReaderBinding

open Verif Program

abbrev BindingWorld := World Ledger Request

/-! ## What is written -/

/-- The effect that a row intends. -/
def Row.intent (r : Row) : Option (String × Kind) :=
  match r.state with
  | .applyIntent => some (r.id, .apply)
  | .restoreIntent => some (r.id, .restore)
  | _ => none

/-- The effect that a call of the manager writes: the one that the ledger intends. -/
def written (call : Ledger × Request) : Option (Option (String × Kind)) :=
  match call.2 with
  | .setAllow _ _ => some (call.1.rows.findSome? Row.intent)
  | _ => none

/-- The writes of a run so far. -/
def writes (w : BindingWorld) : List (Option (String × Kind)) := w.calls.filterMap written

/-- The effects of a ledger. -/
def Ledger.started (l : Ledger) : List (String × Effect) :=
  l.rows.flatMap fun r => r.effects.map (r.id, ·)

/-- The effects that an operation in some state has had. -/
def State.Allows : State → List Kind → Prop
  | .planned, ks | .noChange, ks => ks = []
  | .applyIntent, ks | .outcomeUnknown, ks | .applied, ks | .restorePlanned, ks => ks = [.apply]
  | .restoreIntent, ks | .restoreUnknown, ks | .restored, ks => ks = [.apply, .restore]
  | .notAppliedObserved, ks => ks = [.apply] ∨ ks = [.apply, .restore]

/-- The write of a row's intent: from the networks of its preview to those it wants, or back. -/
def Row.Writes (r : Row) (expected wanted : List Network) : Prop :=
  (r.state = .applyIntent ∧ expected = r.before ∧ wanted = r.after) ∨
    (r.state = .restoreIntent ∧ expected = r.after ∧ wanted = r.before)

/-- A ledger that allows a write: it holds the intent, nothing else is uncertain, and it is not
    revoked. -/
def Ledger.Ready (l : Ledger) (expected wanted : List Network) : Prop :=
  l.revoked = false ∧ ∃ r ∈ l.rows, r.Writes expected wanted ∧
    ∀ r' ∈ l.rows, r'.state.busy = true → r' = r

/-- What holds of the ledger between any two steps. -/
structure Ledger.Sound (l : Ledger) : Prop where
  ids : (l.rows.map Row.id).Nodup
  effects : ∀ r ∈ l.rows, r.state.Allows (r.effects.map Effect.kind)
  single : ∀ r ∈ l.rows, ∀ r' ∈ l.rows, r.state.busy = true → r'.state.busy = true → r = r'
  paced : Paced 600 86400 4 l.effectTimes
  incidents : ∀ r ∈ l.rows, ∀ r' ∈ l.rows, r.effects ≠ [] → r'.effects ≠ [] →
    ∀ i, r.incident = .ok i → r'.incident = .ok i → r = r'

/-- What holds of a run at every point. -/
structure Kept (w : BindingWorld) : Prop where
  sound : w.state.Sound
  once : (writes w).Nodup
  ready : ∀ call ∈ w.calls, ∀ expected wanted, call.2 = .setAllow expected wanted →
    call.1.Ready expected wanted
  recorded : ∀ d ∈ writes w, ∃ r ∈ w.state.rows, ∃ e ∈ r.effects, d = some (r.id, e.kind)

/-- How a row may change: what it pins stays, and its effects grow while nothing is revoked. -/
structure RowMove (revoked : Bool) (r r' : Row) : Prop where
  id : r'.id = r.id
  before : r'.before = r.before
  after : r'.after = r.after
  inst : r'.inst = r.inst
  effects : r'.effects = r.effects ∨ revoked = false ∧ ∃ e, r'.effects = r.effects ++ [e]

/-- What a request keeps that started from `l₀` with the writes `ds₀`. -/
structure Serves (l₀ : Ledger) (ds₀ : List (Option (String × Kind))) (w : BindingWorld) : Prop where
  kept : Kept w
  moves : ∀ r ∈ l₀.rows, ∃ r' ∈ w.state.rows, RowMove l₀.revoked r r'
  revoked : l₀.revoked = true → w.state.revoked = true ∧ w.state.started = l₀.started ∧ writes w = ds₀

section
variable {l₀ l l' : Ledger} {ds₀ ds : List (Option (String × Kind))} {w : BindingWorld}

theorem Serves.request (h : Serves l₀ ds₀ w) {q : Request} (hq : written (w.state, q) = none) :
    Serves l₀ ds₀ (w.request q) := by
  have hwrites : writes (w.request q) = writes w := by simp [writes, hq]
  refine ⟨⟨h.kept.sound, ?_, ?_, ?_⟩, h.moves, ?_⟩
  · rw [hwrites]; exact h.kept.once
  · intro call hc expected wanted hset
    rcases List.mem_append.1 hc with hc | hc
    · exact h.kept.ready call hc expected wanted hset
    · rw [List.mem_singleton.1 hc] at hset
      have hset : q = .setAllow expected wanted := hset
      rw [hset] at hq
      cases hq
  · rw [hwrites]; exact h.kept.recorded
  · rw [hwrites]; exact h.revoked

theorem serves_ignores : Ignores (Serves l₀ ds₀) written := fun _ _ h hq => h.request hq

/-! ## What the programs read -/

variable (p : Policy)

theorem reads_raised {α : Type} {x : Except String α} :
    (raised x).Reads written l fun a => x = .ok a := by
  cases x with
  | ok a => exact reads_pure rfl
  | error e => trivial

theorem reads_clock : (clock).Reads written l fun _ => True :=
  reads_ask (q := Request.clock) rfl fun _ => trivial

theorem reads_inspect : (inspect p).Reads written l fun _ => True := by
  unfold inspect
  refine reads_bind (reads_ask rfl fun r => reads_bind (reads_raised.mono fun value _ => ?_))
  refine reads_bind (reads_lift fun observed _ => reads_bind (reads_lift fun old _ => ?_))
  exact reads_bind (reads_get (reads_bind (reads_require fun _ => trivial)))

theorem reads_headroom : (headroom).Reads written l fun _ => True := by
  unfold headroom
  refine reads_bind (reads_ask rfl fun r => reads_bind (reads_raised.mono fun enough _ => ?_))
  exact reads_require fun _ => trivial

/-- What an admitted time ensures. -/
structure Admits (l : Ledger) (now : ℚ) : Prop where
  open_ : l.revoked = false
  calm : ∀ r ∈ l.rows, r.state.busy = false
  budget : l.effectTimes.countP (fun t => now - 86400 ≤ t ∧ t ≤ now) < 4
  distance : ∀ t ∈ l.effectTimes, 600 ≤ now - t

theorem reads_admission {now : ℚ} : (admission p now).Reads written l fun _ => Admits l now := by
  unfold admission
  refine reads_bind (reads_get (reads_bind (reads_require fun hopen => ?_)))
  refine reads_bind (reads_require fun _ => reads_bind (reads_require fun hcalm => ?_))
  refine reads_bind (reads_require fun _ => reads_bind (reads_require fun hbudget => ?_))
  refine reads_bind (reads_require fun hdistance => reads_headroom.mono fun _ _ => ?_)
  exact ⟨hopen.2, hcalm, hbudget, hdistance⟩

theorem reads_view {row : Row} {association : String} {matched : Bool} :
    (view row association matched).Reads written l fun _ => True := by
  unfold view
  refine reads_bind (reads_clock.mono fun now _ => reads_bind (reads_require fun _ => ?_))
  exact reads_bind (reads_lift fun _ _ => trivial)

theorem reads_correlationReadAdmission {now : ℚ} :
    (correlationReadAdmission p now).Reads written l fun _ => True := by
  unfold correlationReadAdmission
  refine reads_bind (reads_get (reads_bind (reads_require fun _ => ?_)))
  refine reads_bind (reads_require fun _ => reads_bind (reads_require fun _ => ?_))
  refine reads_bind (reads_require fun _ => reads_bind (reads_require fun _ => ?_))
  exact reads_headroom

/-- The rows of an incident are rows of the ledger, and all of them. -/
theorem matchesOf_ok {actual : Observed} {after : List Network} : ∀ {rows found : List Row},
    matchesOf actual after rows = .ok found → (∀ r ∈ found, r ∈ rows) ∧
      ∀ r ∈ rows, r.inst = actual.inst → ∀ i, r.incident = .ok i → i.after = after.toFinset →
        (actual.allowed.toFinset = i.before ∨ actual.allowed.toFinset = i.after) → r ∈ found
  | [], found, h => by
    obtain rfl := Except.ok.inj h
    exact ⟨fun r hr => hr, fun r hr => by cases hr⟩
  | row :: rows, found, h => by
    rw [matchesOf] at h
    by_cases hinst : row.inst ≠ actual.inst
    · rw [if_pos hinst] at h
      obtain ⟨hsub, hall⟩ := matchesOf_ok h
      refine ⟨fun r hr => List.mem_cons_of_mem _ (hsub r hr), fun r hr hi => ?_⟩
      rcases List.mem_cons.1 hr with rfl | hr
      · exact absurd hi hinst
      · exact hall r hr hi
    · rw [if_neg hinst, bind_ok] at h
      obtain ⟨incident, hincident, h⟩ := h
      rw [bind_ok] at h
      obtain ⟨rest, hrest, h⟩ := h
      obtain rfl := Except.ok.inj h
      obtain ⟨hsub, hall⟩ := matchesOf_ok hrest
      split_ifs with hcond
      · refine ⟨?_, fun r hr hi i hri ha hb => ?_⟩
        · intro r hr
          rcases List.mem_cons.1 hr with rfl | hr
          · exact List.mem_cons_self
          · exact List.mem_cons_of_mem _ (hsub r hr)
        · rcases List.mem_cons.1 hr with rfl | hr
          · exact List.mem_cons_self
          · exact List.mem_cons_of_mem _ (hall r hr hi i hri ha hb)
      · refine ⟨fun r hr => List.mem_cons_of_mem _ (hsub r hr), fun r hr hi i hri ha hb => ?_⟩
        rcases List.mem_cons.1 hr with rfl | hr
        · rw [hincident] at hri
          obtain rfl := Except.ok.inj hri
          exact absurd ⟨ha, hb⟩ hcond
        · exact hall r hr hi i hri ha hb

theorem foldl_earlier_mem (rows : List Row) (best : Row) :
    rows.foldl (fun best r => if r.earlier best then r else best) best ∈ best :: rows := by
  induction rows generalizing best with
  | nil => exact List.mem_cons_self
  | cons x rows ih =>
    rw [List.foldl_cons]
    by_cases hx : x.earlier best
    · rw [if_pos hx]
      exact List.mem_cons_of_mem _ (ih x)
    · rw [if_neg hx]
      rcases List.mem_cons.1 (ih best) with h | h
      · rw [h]; exact List.mem_cons_self
      · exact List.mem_cons_of_mem _ (List.mem_cons_of_mem _ h)

theorem earliest_mem {rows : List Row} {r : Row} (h : earliest rows = some r) : r ∈ rows := by
  cases rows with
  | nil => cases h
  | cons row rows =>
    rw [← Option.some.inj h]
    exact foldl_earlier_mem rows row

theorem reads_activeOf : ∀ {rows : List Row},
    (activeOf rows).Reads written l fun active => ∀ r ∈ active, r ∈ rows
  | [] => reads_pure fun r hr => hr
  | row :: rows => by
    rw [activeOf]
    split_ifs
    · refine reads_bind (reads_clock.mono fun now _ => ?_)
      refine reads_bind (reads_activeOf.mono fun rest hrest => reads_pure ?_)
      intro r hr
      split_ifs at hr
      · rcases List.mem_cons.1 hr with rfl | hr
        · exact List.mem_cons_self
        · exact List.mem_cons_of_mem _ (hrest r hr)
      · exact List.mem_cons_of_mem _ (hrest r hr)
    · exact reads_activeOf.mono fun active h r hr => List.mem_cons_of_mem _ (h r hr)

/-- Where an operation of the incident had an effect, the row that is found had one. -/
theorem reads_matchingIncident {actual : Observed} {after : List Network} :
    (matchingIncident actual after).Reads written l fun found => ∀ r ∈ found, r ∈ l.rows ∧
      ∀ r' ∈ l.rows, r'.used = true → r'.inst = actual.inst → ∀ i, r'.incident = .ok i →
        i.after = after.toFinset →
        (actual.allowed.toFinset = i.before ∨ actual.allowed.toFinset = i.after) →
        r.used = true := by
  unfold matchingIncident
  refine reads_bind (reads_get (reads_bind (reads_lift fun rows hrows => ?_)))
  obtain ⟨hsub, hall⟩ := matchesOf_ok hrows
  split_ifs with hempty
  · exact reads_pure fun r hr => by cases hr
  refine reads_bind (reads_require fun _ => reads_bind (reads_activeOf.mono fun active hactive => ?_))
  refine reads_bind (reads_require fun _ => reads_pure fun r hr => ?_)
  have hmem := earliest_mem hr
  unfold choices at hmem
  split_ifs at hmem with hused hact
  · exact ⟨hsub r (List.mem_of_mem_filter hmem), fun _ _ _ _ _ _ _ _ => (List.mem_filter.1 hmem).2⟩
  all_goals
    refine ⟨hsub r (by first | exact hactive r hmem | exact hmem), fun r' hr' hu hi i hri ha hb => ?_⟩
    exact absurd (List.mem_filter.2 ⟨hall r' hr' hi i hri ha hb, hu⟩) (by simp_all)

/-! ## Changes of the ledger -/

/-- The ledger with a saved row. -/
def Ledger.saved (l : Ledger) (row : Row) : Ledger := { l with rows := upsert Row.id row l.rows }

/-- What a row pins. -/
structure Row.Pins (r r' : Row) : Prop where
  id : r'.id = r.id
  before : r'.before = r.before
  after : r'.after = r.after
  inst : r'.inst = r.inst
  unit : r'.unitSha256 = r.unitSha256

theorem Row.Pins.incident {r r' : Row} (h : r.Pins r') : r'.incident = r.incident := by
  unfold Row.incident
  rw [h.before, h.after, h.inst, h.unit]

/-- **What a saved row has to satisfy** so that the ledger stays sound. -/
theorem Ledger.Sound.save (h : l.Sound) {row : Row}
    (hallows : row.state.Allows (row.effects.map Effect.kind))
    (hbusy : row.state.busy = true → ∀ r ∈ l.rows, r.id ≠ row.id → r.state.busy = false)
    (hpaced : Paced 600 86400 4 (l.saved row).effectTimes)
    (hincident : row.effects ≠ [] → ∀ r ∈ l.rows, r.id ≠ row.id → r.effects ≠ [] →
      ∀ i, r.incident = .ok i → row.incident ≠ .ok i) : (l.saved row).Sound where
  ids := nodup_keys_upsert h.ids
  effects r hr := by
    rcases mem_upsert.1 hr with ⟨hr, -⟩ | rfl
    · exact h.effects r hr
    · exact hallows
  single r hr r' hr' hb hb' := by
    rcases mem_upsert.1 hr with ⟨h₁, hid⟩ | hrow <;> rcases mem_upsert.1 hr' with ⟨h₂, hid'⟩ | hrow'
    · exact h.single r h₁ r' h₂ hb hb'
    · rw [hrow'] at hb'
      rw [hbusy hb' r h₁ hid] at hb; cases hb
    · rw [hrow] at hb
      rw [hbusy hb r' h₂ hid'] at hb'; cases hb'
    · rw [hrow, hrow']
  paced := hpaced
  incidents r hr r' hr' he he' i hi hi' := by
    rcases mem_upsert.1 hr with ⟨h₁, hid⟩ | hrow <;> rcases mem_upsert.1 hr' with ⟨h₂, hid'⟩ | hrow'
    · exact h.incidents r h₁ r' h₂ he he' i hi hi'
    · rw [hrow'] at he' hi'
      exact absurd hi' (hincident he' r h₁ hid he i hi)
    · rw [hrow] at he hi
      exact absurd hi (hincident he r' h₂ hid' he' i hi')
    · rw [hrow, hrow']

/-- A row is replaced by one with the same effects. -/
theorem Ledger.Sound.replace (h : l.Sound) {r r' : Row} (hr : r ∈ l.rows) (hp : r.Pins r')
    (heffects : r'.effects = r.effects) (hallows : r'.state.Allows (r.effects.map Effect.kind))
    (hbusy : r'.state.busy = true → r.state.busy = true) :
    (l.saved r').Sound ∧ (l.saved r').effectTimes = l.effectTimes ∧
      (l.saved r').started = l.started := by
  have hamend : upsert Row.id r' l.rows = amend Row.id r.id (fun _ => r') l.rows :=
    upsert_eq_amend hr hp.id
  have hsame : ∀ x ∈ l.rows, x.id = r.id → x = r := fun x hx hid => eq_of_key_eq h.ids hx hr hid
  have htimes : (l.saved r').effectTimes = l.effectTimes := by
    rw [Ledger.effectTimes, Ledger.saved, hamend]
    refine flatMap_amend_eq fun x hx hid => ?_
    rw [hsame x hx hid, heffects]
  have hstarted : (l.saved r').started = l.started := by
    rw [Ledger.started, Ledger.saved, hamend]
    refine flatMap_amend_eq fun x hx hid => ?_
    rw [hsame x hx hid, heffects, hp.id]
  refine ⟨h.save (by rw [heffects]; exact hallows) ?_ (by rw [htimes]; exact h.paced) ?_, htimes,
    hstarted⟩
  · intro hb x hx hid
    by_contra hxb
    have := h.single x hx r hr (by simpa using hxb) (hbusy hb)
    exact hid (by rw [this, hp.id])
  · intro he x hx hid hxe i hi hi'
    rw [heffects] at he
    rw [hp.incident] at hi'
    exact hid (by rw [h.incidents x hx r hr hxe he i hi hi', hp.id])

/-- A new row without effects. -/
theorem Ledger.Sound.add (h : l.Sound) {row : Row} (hnew : ∀ r ∈ l.rows, r.id ≠ row.id)
    (heffects : row.effects = []) (hstate : row.state = .planned ∨ row.state = .noChange) :
    (l.saved row).Sound ∧ (l.saved row).started = l.started := by
  have happend : upsert Row.id row l.rows = l.rows ++ [row] := upsert_eq_append hnew
  have htimes : (l.saved row).effectTimes = l.effectTimes := by
    simp [Ledger.effectTimes, Ledger.saved, happend, heffects]
  refine ⟨h.save ?_ ?_ (by rw [htimes]; exact h.paced) ?_, ?_⟩
  · rcases hstate with hs | hs <;> rw [hs, heffects] <;> rfl
  · intro hb
    rcases hstate with hs | hs <;> rw [hs] at hb <;> cases hb
  · exact fun he => absurd heffects he
  · simp [Ledger.started, Ledger.saved, happend, heffects]

/-- An intent: one effect more, at an admitted time. -/
theorem Ledger.Sound.intend (h : l.Sound) {r r' : Row} (hr : r ∈ l.rows) (hp : r.Pins r') {kind : Kind}
    {now : ℚ} (heffects : r'.effects = r.effects ++ [⟨kind, now⟩]) (hadmits : Admits l now)
    (hallows : r'.state.Allows (r'.effects.map Effect.kind))
    (hincident : ∀ x ∈ l.rows, x.id ≠ r.id → x.effects ≠ [] → ∀ i, x.incident = .ok i →
      r.incident ≠ .ok i) : (l.saved r').Sound := by
  refine h.save hallows ?_ ?_ ?_
  · exact fun _ x hx _ => hadmits.calm x hx
  · have hperm : (l.saved r').effectTimes.Perm ([now] ++ l.effectTimes) := by
      rw [Ledger.effectTimes, Ledger.saved, upsert_eq_amend hr hp.id]
      have htimes : r'.effects.map Effect.atUnix = r.effects.map Effect.atUnix ++ [now] := by
        rw [heffects, List.map_append]; rfl
      exact flatMap_amend_perm (f := fun x : Row => x.effects.map Effect.atUnix) h.ids hr rfl htimes
    exact (h.paced.cons (by norm_num) hadmits.distance hadmits.budget).perm hperm
  · intro _ x hx hid hxe i hi
    rw [hp.incident]
    exact hincident x hx (by rw [← hp.id]; exact hid) hxe i hi

/-! ## Steps -/

/-- What a saved ledger keeps of the ledgers before it. -/
structure Steps (l₀ l l' : Ledger) : Prop where
  sound : l'.Sound
  effects : ∀ r ∈ l.rows, ∃ r' ∈ l'.rows, r'.id = r.id ∧ ∀ e ∈ r.effects, e ∈ r'.effects
  moves : ∀ r ∈ l₀.rows, ∃ r' ∈ l'.rows, RowMove l₀.revoked r r'
  revoked : l₀.revoked = true → l'.revoked = true ∧ l'.started = l₀.started

theorem RowMove.refl {revoked : Bool} {r : Row} : RowMove revoked r r :=
  ⟨rfl, rfl, rfl, rfl, Or.inl rfl⟩

theorem RowMove.pins {revoked : Bool} {r r₁ r₂ : Row} (h : RowMove revoked r r₁) (hp : r₁.Pins r₂)
    (heffects : r₂.effects = r₁.effects) : RowMove revoked r r₂ where
  id := hp.id.trans h.id
  before := hp.before.trans h.before
  after := hp.after.trans h.after
  inst := hp.inst.trans h.inst
  effects := by rw [heffects]; exact h.effects

theorem Steps.refl (h : l.Sound) : Steps l l l where
  sound := h
  effects r hr := ⟨r, hr, rfl, fun _ he => he⟩
  moves r hr := ⟨r, hr, .refl⟩
  revoked h := ⟨h, rfl⟩

/-- A row with the same effects is saved. -/
theorem Steps.replace (h : Steps l₀ l l') {r r' : Row} (hr : r ∈ l'.rows) (hp : r.Pins r')
    (heffects : r'.effects = r.effects) (hallows : r'.state.Allows (r.effects.map Effect.kind))
    (hbusy : r'.state.busy = true → r.state.busy = true) : Steps l₀ l' (l'.saved r') where
  sound := (h.sound.replace hr hp heffects hallows hbusy).1
  effects x hx := by
    by_cases hid : x.id = r'.id
    · have hxr : x = r := eq_of_key_eq h.sound.ids hx hr (hid.trans hp.id)
      refine ⟨r', mem_upsert.2 (Or.inr rfl), hid.symm, ?_⟩
      rw [hxr, heffects]
      exact fun e he => he
    · exact ⟨x, mem_upsert.2 (Or.inl ⟨hx, hid⟩), rfl, fun e he => he⟩
  moves x hx := by
    obtain ⟨y, hy, hm⟩ := h.moves x hx
    by_cases hid : y.id = r'.id
    · have hyr : y = r := eq_of_key_eq h.sound.ids hy hr (hid.trans hp.id)
      rw [hyr] at hm
      exact ⟨r', mem_upsert.2 (Or.inr rfl), hm.pins hp heffects⟩
    · exact ⟨y, mem_upsert.2 (Or.inl ⟨hy, hid⟩), hm⟩
  revoked hrev := by
    obtain ⟨hrev', hstarted⟩ := h.revoked hrev
    exact ⟨hrev', (h.sound.replace hr hp heffects hallows hbusy).2.2.trans hstarted⟩

/-- A new row is saved. -/
theorem Steps.add (h : l.Sound) {row : Row} (hnew : ∀ r ∈ l.rows, r.id ≠ row.id)
    (heffects : row.effects = []) (hstate : row.state = .planned ∨ row.state = .noChange) :
    Steps l l (l.saved row) where
  sound := (h.add hnew heffects hstate).1
  effects r hr := ⟨r, mem_upsert.2 (Or.inl ⟨hr, hnew r hr⟩), rfl, fun _ he => he⟩
  moves r hr := ⟨r, mem_upsert.2 (Or.inl ⟨hr, hnew r hr⟩), .refl⟩
  revoked hrev := ⟨hrev, (h.add hnew heffects hstate).2⟩

/-- An intent is saved. -/
theorem Steps.intend (h : l.Sound) {r r' : Row} (hr : r ∈ l.rows) (hp : r.Pins r') {kind : Kind}
    {now : ℚ} (heffects : r'.effects = r.effects ++ [⟨kind, now⟩]) (hadmits : Admits l now)
    (hallows : r'.state.Allows (r'.effects.map Effect.kind))
    (hincident : ∀ x ∈ l.rows, x.id ≠ r.id → x.effects ≠ [] → ∀ i, x.incident = .ok i →
      r.incident ≠ .ok i) : Steps l l (l.saved r') where
  sound := h.intend hr hp heffects hadmits hallows hincident
  effects x hx := by
    by_cases hid : x.id = r'.id
    · have hxr : x = r := eq_of_key_eq h.ids hx hr (hid.trans hp.id)
      refine ⟨r', mem_upsert.2 (Or.inr rfl), hid.symm, fun e he => ?_⟩
      rw [heffects, ← hxr]
      exact List.mem_append_left _ he
    · exact ⟨x, mem_upsert.2 (Or.inl ⟨hx, hid⟩), rfl, fun e he => he⟩
  moves x hx := by
    by_cases hid : x.id = r'.id
    · have hxr : x = r := eq_of_key_eq h.ids hx hr (hid.trans hp.id)
      rw [hxr]
      exact ⟨r', mem_upsert.2 (Or.inr rfl), hp.id, hp.before, hp.after, hp.inst,
        Or.inr ⟨hadmits.open_, _, heffects⟩⟩
    · exact ⟨x, mem_upsert.2 (Or.inl ⟨hx, hid⟩), .refl⟩
  revoked hrev := by rw [hadmits.open_] at hrev; cases hrev

theorem Serves.put (h : Serves l₀ ds₀ w) (hs : Steps l₀ w.state l') : Serves l₀ ds₀ (w.put l') where
  kept :=
    { sound := hs.sound
      once := h.kept.once
      ready := h.kept.ready
      recorded := by
        intro d hd
        obtain ⟨r, hr, e, he, rfl⟩ := h.kept.recorded d hd
        obtain ⟨r', hr', hid, hall⟩ := hs.effects r hr
        exact ⟨r', hr', e, hall e he, by rw [hid]⟩ }
  moves := hs.moves
  revoked hrev := ⟨(hs.revoked hrev).1, (hs.revoked hrev).2, (h.revoked hrev).2.2⟩

/-- A write that the ledger allows, for an effect that was not written before. -/
theorem Serves.write (h : Serves l₀ ds₀ w) {expected wanted : List Network}
    (hready : w.state.Ready expected wanted) {r : Row} (hr : r ∈ w.state.rows) {e : Effect}
    (he : e ∈ r.effects) (hd : written (w.state, .setAllow expected wanted) = some (some (r.id, e.kind)))
    (hnew : some (r.id, e.kind) ∉ writes w) : Serves l₀ ds₀ (w.request (.setAllow expected wanted)) := by
  have hwrites : writes (w.request (.setAllow expected wanted)) =
      writes w ++ [some (r.id, e.kind)] := by simp [writes, hd]
  refine ⟨⟨h.kept.sound, ?_, ?_, ?_⟩, h.moves, ?_⟩
  · rw [hwrites]
    refine List.nodup_append.2 ⟨h.kept.once, List.nodup_singleton _, ?_⟩
    rintro a ha b hb rfl
    rw [List.mem_singleton.1 hb] at ha
    exact hnew ha
  · intro call hc expected' wanted' hset
    rcases List.mem_append.1 hc with hc | hc
    · exact h.kept.ready call hc expected' wanted' hset
    · rw [List.mem_singleton.1 hc] at hset ⊢
      obtain ⟨rfl, rfl⟩ := Request.setAllow.inj hset
      exact hready
  · intro d hmem
    rw [hwrites] at hmem
    rcases List.mem_append.1 hmem with hmem | hmem
    · exact h.kept.recorded d hmem
    · exact ⟨r, hr, e, he, List.mem_singleton.1 hmem⟩
  · intro hrev
    have := (h.revoked hrev).1
    rw [hready.1] at this
    cases this

/-- A program of a request that runs from the ledger `l`. -/
abbrev Safely {α : Type} (l₀ : Ledger) (ds₀ : List (Option (String × Kind))) (q : Prog α) (l : Ledger)
    (ds : List (Option (String × Kind))) : Prop := Keeps (Serves l₀ ds₀) written q l ds

theorem safely_save {α : Type} {row : Row} {k : Unit → Prog α} (hs : Steps l₀ l (l.saved row))
    (hk : Safely l₀ ds₀ (k ()) (l.saved row) ds) : Safely l₀ ds₀ (save row >>= k) l ds := by
  refine keeps_transaction fun l' hok => ?_
  obtain rfl := Except.ok.inj hok
  refine ⟨fun w hw hat => hw.put ?_, hk⟩
  rw [hat.state]; exact hs

theorem safely_view {row : Row} {association : String} {matched : Bool} :
    Safely l₀ ds₀ (view row association matched) l ds := keeps_reads serves_ignores reads_view

/-! ## Requests -/

theorem reconciled_ok {row : Row} {allowed : List Network} {state : State}
    (h : reconcile.reconciled row allowed = .ok state) (hbusy : row.state.busy = true) {ks : List Kind}
    (hks : row.state.Allows ks) : state.Allows ks ∧ state.busy = false := by
  unfold reconcile.reconciled at h
  cases hst : row.state <;> rw [hst] at hks hbusy h <;> simp only [State.busy, Bool.false_eq_true] at hbusy
  all_goals
    simp only [reduceCtorEq, or_self, or_true, true_or, if_true, if_false] at h
    split_ifs at h <;> obtain rfl := Except.ok.inj h
    all_goals simp_all [State.Allows, State.busy]

theorem safely_reconcile (hl : l.Sound) {row : Row} (hrow : row ∈ l.rows)
    (hbusy : row.state.busy = true) : Safely l ds₀ (reconcile p row) l ds := by
  unfold reconcile
  refine keeps_read serves_ignores (reads_inspect p) fun actual _ => keeps_require fun _ => ?_
  refine keeps_lift fun state hstate => keeps_read serves_ignores reads_clock fun now _ => ?_
  obtain ⟨hallows, hcalm⟩ := reconciled_ok hstate hbusy (hl.effects row hrow)
  refine safely_save ((Steps.refl hl).replace hrow ⟨rfl, rfl, rfl, rfl, rfl⟩ rfl hallows ?_) safely_view
  intro hb
  rw [show state.busy = true from hb] at hcalm
  cases hcalm

theorem safely_planNew (hl : l.Sound) {identifier : String}
    (hnew : ∀ r ∈ l.rows, r.id ≠ identifier) {now : ℚ} {actual : Observed} {after : List Network}
    {prior : Option String} : Safely l ds₀ (planNew p identifier now actual after prior) l ds := by
  unfold planNew
  refine keeps_read serves_ignores (reads_admission p) fun _ _ => keeps_get (keeps_require fun _ => ?_)
  refine safely_save (Steps.add hl hnew rfl ?_) safely_view
  by_cases h : actual.allowed = after
  · exact Or.inr (if_pos h)
  · exact Or.inl (if_neg h)

theorem safely_plan (hl : l.Sound) {identifier : String} (hnew : ∀ r ∈ l.rows, r.id ≠ identifier)
    {now : ℚ} : Safely l ds₀ (plan p identifier now) l ds := by
  unfold plan
  refine keeps_read serves_ignores (reads_correlationReadAdmission p) fun _ _ => ?_
  refine keeps_read serves_ignores (reads_inspect p) fun actual _ => ?_
  refine keeps_read serves_ignores reads_matchingIncident fun existing _ => ?_
  cases existing with
  | none => exact safely_planNew p hl hnew
  | some row =>
    by_cases hrenew : row.renewable now
    · simp only [if_pos hrenew]; exact safely_planNew p hl hnew
    · simp only [if_neg hrenew]; exact safely_view

theorem safely_planRestore (hl : l.Sound) {row : Row} (hrow : row ∈ l.rows)
    (hstate : row.state = .applied ∨ row.state = .restorePlanned) {now : ℚ} :
    Safely l ds₀ (planRestore p row now) l ds := by
  unfold planRestore
  refine keeps_read serves_ignores (reads_admission p) fun _ _ => keeps_require fun _ => ?_
  refine keeps_read serves_ignores (reads_inspect p) fun actual _ => keeps_require fun _ => ?_
  refine keeps_require fun _ => ?_
  refine safely_save ((Steps.refl hl).replace hrow ⟨rfl, rfl, rfl, rfl, rfl⟩ rfl ?_ (by rintro ⟨⟩))
    safely_view
  have := hl.effects row hrow
  rcases hstate with h | h <;> rw [h] at this <;> exact this

/-- The state in which an effect may start. -/
def Kind.ready : Kind → State
  | .apply => .planned
  | .restore => .restorePlanned

/-- The networks that an effect expects and wants. -/
def Row.sides (row : Row) : Kind → List Network × List Network
  | .apply => (row.before, row.after)
  | .restore => (row.after, row.before)

/-- The state after an intent, with the effects that go with it. -/
theorem Kind.intent_allows {state : State} {kind : Kind} {ks : List Kind} (hks : state.Allows ks)
    (hstate : state = kind.ready) :
    kind.intent.Allows (ks ++ [kind]) ∧ kind ∉ ks := by
  subst hstate
  cases kind with
  | apply => obtain rfl : ks = [] := hks; exact ⟨rfl, by simp⟩
  | restore => obtain rfl : ks = [.apply] := hks; exact ⟨rfl, by simp⟩

/-- The only busy row of a ledger is the one whose intent is written. -/
theorem findSome_intent {r : Row} {d : String × Kind} (hr : r ∈ l.rows) (hd : r.intent = some d)
    (hsingle : ∀ r' ∈ l.rows, r'.state.busy = true → r' = r) :
    l.rows.findSome? Row.intent = some d := by
  refine findSome_eq hr hd fun r' hr' d' hd' => ?_
  have hbusy : r'.state.busy = true := by
    unfold Row.intent at hd'
    cases hst : r'.state <;> simp_all [State.busy]
  rw [hsingle r' hr' hbusy, hd] at hd'
  exact (Option.some.inj hd').symm

/-- The end of an effect. -/
theorem safely_settle {l₁ : Ledger} (h : Steps l₀ l l₁) {row : Row} (hrow : row ∈ l₁.rows)
    {plan : Plan} (hstate : row.state = plan.kind.intent) {outcome : Except String Unit} :
    Safely l₀ ds₀ (settle row plan outcome) l₁ ds := by
  have hallows := h.sound.effects row hrow
  have hbusy : row.state.busy = true := by rw [hstate]; cases plan.kind <;> rfl
  rw [hstate] at hallows
  unfold settle
  refine keeps_read serves_ignores reads_clock fun now _ => ?_
  cases outcome with
  | error e =>
    refine safely_save (h.replace hrow ⟨rfl, rfl, rfl, rfl, rfl⟩ rfl ?_ fun _ => hbusy) safely_view
    cases hk : plan.kind <;> rw [hk] at hallows <;> exact hallows
  | ok u =>
    refine safely_save (h.replace hrow ⟨rfl, rfl, rfl, rfl, rfl⟩ rfl ?_ fun _ => hbusy) safely_view
    cases hk : plan.kind <;> rw [hk] at hallows <;> exact hallows

theorem reads_verify {row : Row} {plan : Plan} {reply : Except String Unit} :
    (verify p row plan reply).Reads written l fun _ => True := by
  unfold verify
  refine reads_bind (reads_raised.mono fun _ _ => reads_bind ?_)
  exact (reads_inspect p).mono fun _ _ => reads_require fun _ => trivial

theorem safely_perform (hl : l.Sound) (hds : ∀ d ∈ ds, ∃ r ∈ l.rows, ∃ e ∈ r.effects,
      d = some (r.id, e.kind)) {row : Row} (hrow : row ∈ l.rows) {plan : Plan}
    (hstate : row.state = plan.kind.ready)
    (hsets : (plan.expected, plan.wanted) = row.sides plan.kind)
    (hincident : ∀ x ∈ l.rows, x.id ≠ row.id → x.effects ≠ [] → ∀ i, x.incident = .ok i →
      row.incident ≠ .ok i) : Safely l ds₀ (perform p row plan) l ds := by
  obtain ⟨hallows, hfresh⟩ := Kind.intent_allows (hl.effects row hrow) hstate
  unfold perform
  refine keeps_read serves_ignores reads_clock fun now _ => ?_
  refine keeps_read serves_ignores (reads_admission p) fun _ hadmits => keeps_require fun _ => ?_
  set row₁ : Row := { row with
    state := plan.kind.intent, effects := row.effects ++ [⟨plan.kind, now⟩], observedAtUnix := now
    lastEffectEvidence := some "unconfirmed_intent", lastEffectObservedAt := some now } with hrow₁
  have hsteps : Steps l l (l.saved row₁) := by
    refine Steps.intend hl hrow ⟨rfl, rfl, rfl, rfl, rfl⟩ rfl hadmits ?_ hincident
    rw [hrow₁, List.map_append]; exact hallows
  have hmem : row₁ ∈ (l.saved row₁).rows := mem_upsert.2 (Or.inr rfl)
  have hsingle : ∀ r ∈ (l.saved row₁).rows, r.state.busy = true → r = row₁ := by
    intro r hr hb
    rcases mem_upsert.1 hr with ⟨hr, -⟩ | rfl
    · rw [hadmits.calm r hr] at hb; cases hb
    · rfl
  refine safely_save hsteps ?_
  -- the write is the one that the only busy row intends
  have hintent : row₁.intent = some (row.id, plan.kind) := by
    rw [hrow₁, Row.intent]
    cases plan.kind <;> rfl
  have hready : (l.saved row₁).Ready plan.expected plan.wanted := by
    refine ⟨hadmits.open_, row₁, hmem, ?_, hsingle⟩
    cases hk : plan.kind <;> rw [hk] at hsets <;> obtain ⟨he, hw⟩ := Prod.mk.inj hsets
    · exact Or.inl ⟨by rw [hrow₁, hk]; rfl, he, hw⟩
    · exact Or.inr ⟨by rw [hrow₁, hk]; rfl, he, hw⟩
  have hwritten : written (l.saved row₁, .setAllow plan.expected plan.wanted) =
      some (some (row.id, plan.kind)) := congrArg some (findSome_intent hmem hintent hsingle)
  have hnew : some (row.id, plan.kind) ∉ ds := by
    intro hd
    obtain ⟨r, hr, e, he, heq⟩ := hds _ hd
    obtain ⟨hid, hkind⟩ := Prod.mk.inj (Option.some.inj heq)
    have : r = row := eq_of_key_eq hl.ids hr hrow hid.symm
    rw [this] at he
    exact hfresh (List.mem_map.2 ⟨e, he, hkind.symm⟩)
  unfold write
  rw [attempt_ask, bind_assoc]
  refine keeps_record hwritten (fun w hw hat => ?_) fun reply => ?_
  · rw [← hat.state] at hready hmem hwritten
    refine hw.write hready hmem (List.mem_append_right _ (List.mem_singleton_self _)) hwritten ?_
    intro hd
    exact hnew (by rw [← hat.logged]; exact hd)
  · exact keeps_read serves_ignores (reads_attempt (reads_verify p)) fun outcome _ =>
      safely_settle hsteps hmem rfl

theorem networks_toFinset {values ns : List Network} (h : networks values = .ok ns) :
    ns.toFinset = values.toFinset := by
  simp only [networks, bind_ok, need_eq_ok, exists_unit, pure_ok] at h
  obtain ⟨-, rfl⟩ := h
  exact List.toFinset_eq_of_perm _ _ (List.perm_insertionSort _ _)

theorem Row.incident_ok {row : Row} {i : Incident} (h : row.incident = .ok i) :
    i = ⟨row.inst, row.before.toFinset, row.after.toFinset⟩ := by
  simp only [Row.incident, bind_ok, need_eq_ok, exists_unit, pure_ok] at h
  obtain ⟨-, -, before, hbefore, after, hafter, rfl⟩ := h
  rw [networks_toFinset hbefore, networks_toFinset hafter]

/-- The plan of a row in a state from which an effect may start. -/
theorem planOf_ok {row : Row} {kind : Kind} {plan : Plan} (h : planOf row kind = .ok plan) :
    plan.kind = kind ∧ (plan.expected, plan.wanted) = row.sides kind := by
  cases kind with
  | apply => obtain rfl := Except.ok.inj h; exact ⟨rfl, rfl⟩
  | restore =>
    simp only [planOf, bind_ok, orFail_eq_ok, pure_ok] at h
    obtain ⟨preview, -, rfl⟩ := h
    exact ⟨rfl, rfl⟩

/-- No other operation of the incident had an effect. -/
theorem reads_canonical (hl : l.Sound) {row : Row} (hrow : row ∈ l.rows) {actual : Observed} {kind : Kind}
    (hstate : row.state = kind.ready)
    (hinst : actual.inst = row.inst) (hallowed : kind = .apply → actual.allowed = row.before) :
    (canonical row actual kind).Reads written l fun _ => ∀ x ∈ l.rows, x.id ≠ row.id →
      x.effects ≠ [] → ∀ i, x.incident = .ok i → row.incident ≠ .ok i := by
  have hks := hl.effects row hrow
  rw [hstate] at hks
  cases kind with
  | restore =>
    refine reads_pure fun x hx hid hxe i hi hi' => ?_
    have hks : row.effects.map Effect.kind = [.apply] := hks
    have hre : row.effects ≠ [] := by rintro he; rw [he] at hks; cases hks
    exact hid (by rw [hl.incidents x hx row hrow hxe hre i hi hi'])
  | apply =>
    refine reads_bind (reads_matchingIncident.mono fun found hfound => ?_)
    refine reads_require fun hcanonical x hx hid hxe i hi hi' => ?_
    obtain ⟨r, hr, hrid⟩ := hcanonical
    obtain ⟨hmem, hall⟩ := hfound r hr
    have hrrow : r = row := eq_of_key_eq hl.ids hmem hrow hrid
    -- the operation itself is only planned, so it is not in use
    have hks : row.effects.map Effect.kind = [] := hks
    have hunused : row.used = false := by
      have hnil : row.effects = [] := by simpa using hks
      have hplanned : row.state = .planned := hstate
      simp [Row.used, hnil, hplanned, State.used, State.approved, State.busy]
    have hrowi := Row.incident_ok hi'
    have hxi := Row.incident_ok hi
    have hxinst : i.inst = x.inst := by rw [hxi]
    have hrinst : i.inst = row.inst := by rw [hrowi]
    have hafter : i.after = row.after.toFinset := by rw [hrowi]
    have hbefore : i.before = row.before.toFinset := by rw [hrowi]
    have hused := hall x hx (by simp [Row.used, hxe]) (by rw [hinst, ← hrinst, hxinst]) i hi hafter
      (Or.inl (by rw [hallowed rfl, hbefore]))
    rw [hrrow, hunused] at hused
    cases hused

theorem safely_effect (hl : l.Sound) (hds : ∀ d ∈ ds, ∃ r ∈ l.rows, ∃ e ∈ r.effects,
      d = some (r.id, e.kind)) {row : Row} (hrow : row ∈ l.rows) {kind : Kind} {now : ℚ}
    (hstate : row.state = kind.ready) :
    Safely l ds₀ (effect p row kind now) l ds := by
  unfold effect
  refine keeps_read serves_ignores (reads_admission p) fun _ _ => keeps_lift fun plan hplan => ?_
  obtain ⟨rfl, hsets⟩ := planOf_ok hplan
  refine keeps_require fun _ => keeps_ask serves_ignores rfl fun reply => ?_
  refine keeps_read serves_ignores reads_raised fun _ _ => ?_
  refine keeps_read serves_ignores reads_clock fun now _ => ?_
  refine keeps_read serves_ignores (reads_admission p) fun _ _ => keeps_require fun _ => ?_
  refine keeps_read serves_ignores (reads_inspect p) fun actual _ => keeps_require fun _ => ?_
  refine keeps_require fun hinst => keeps_require fun _ => keeps_require fun hallowed => ?_
  refine keeps_read serves_ignores (reads_canonical hl hrow hstate hinst ?_) fun _ hincident => ?_
  · intro hk
    rw [hallowed]
    rw [hk] at hsets
    exact (Prod.mk.inj hsets).1
  · exact safely_perform p hl hds hrow hstate hsets hincident

theorem safely_act (hl : l.Sound) (hds : ∀ d ∈ ds, ∃ r ∈ l.rows, ∃ e ∈ r.effects,
      d = some (r.id, e.kind)) {row : Row} (hrow : row ∈ l.rows) {action : Action} {now : ℚ} :
    Safely l ds₀ (act p action row now) l ds := by
  have happly : Safely l ds₀ (if row.state ≠ .planned then view row storedReceipt false
      else effect p row .apply now) l ds := by
    by_cases hstate : row.state = .planned
    · rw [if_neg (not_not.2 hstate)]; exact safely_effect p hl hds hrow hstate
    · rw [if_pos hstate]; exact safely_view
  cases action with
  | planRestore =>
    unfold act
    by_cases hstate : row.state ≠ .applied ∧ row.state ≠ .restorePlanned
    · simp only [if_pos hstate]; exact safely_view
    · simp only [if_neg hstate]
      split_ifs
      · exact safely_view
      · refine safely_planRestore p hl hrow ?_
        by_contra h
        exact hstate (not_or.1 h)
  | restore =>
    unfold act
    by_cases happlied : row.state = .applied
    · simp only [if_pos happlied]
      exact keeps_read serves_ignores reads_view fun _ _ => keeps_pure
    · simp only [if_neg happlied]
      by_cases hstate : row.state = .restorePlanned
      · rw [if_neg (not_not.2 hstate)]; exact safely_effect p hl hds hrow hstate
      · rw [if_pos hstate]; exact safely_view
  | plan => exact happly
  | apply => exact happly
  | revoke => exact happly

/-- Every request keeps the invariant, wherever it stops. -/
theorem safely_request (hl : l.Sound) (hds : ∀ d ∈ ds, ∃ r ∈ l.rows, ∃ e ∈ r.effects,
      d = some (r.id, e.kind)) {tool : Tool} {action : Action} {identifier : String} :
    Safely l ds (request p tool action identifier) l ds := by
  unfold request
  refine keeps_read serves_ignores reads_clock fun now _ => keeps_get ?_
  cases tool with
  | revoke =>
    refine keeps_transaction fun l' hok => ?_
    obtain rfl := Except.ok.inj hok
    refine ⟨fun w hw hat => hw.put ?_, keeps_pure⟩
    rw [hat.state]
    exact ⟨⟨hl.ids, hl.effects, hl.single, hl.paced, hl.incidents⟩,
      fun r hr => ⟨r, hr, rfl, fun _ he => he⟩, fun r hr => ⟨r, hr, .refl⟩, fun _ => ⟨rfl, rfl⟩⟩
  | status => exact keeps_lift fun row _ => safely_view
  | reconcile =>
    refine keeps_lift fun row hrow => ?_
    obtain ⟨hmem, -⟩ := lookup_eq_some (orFail_eq_ok.1 hrow)
    by_cases hbusy : row.state.busy = true
    · simp only [if_pos hbusy]; exact safely_reconcile p hl hmem hbusy
    · simp only [if_neg hbusy]; exact safely_view
  | apply =>
    cases hrow : lookup Row.id identifier l.rows with
    | none =>
      cases action with
      | plan => exact safely_plan p hl (lookup_eq_none.1 hrow)
      | _ => exact keeps_fail
    | some row =>
      obtain ⟨hmem, -⟩ := lookup_eq_some hrow
      cases action with
      | plan => exact safely_view
      | _ => exact safely_act p hl hds hmem

theorem Kept.serves (h : Kept w) {tool : String} {args : Json} {w' : BindingWorld}
    (hr : Run (handle p tool args) w w') : Serves w.state (writes w) w' := by
  have hstart : Serves w.state (writes w) w :=
    ⟨h, fun r hr => ⟨r, hr, .refl⟩, fun hrev => ⟨hrev, rfl, rfl⟩⟩
  have hsafe : Safely w.state (writes w) (handle p tool args) w.state (writes w) := by
    unfold handle
    exact keeps_lift fun v _ => safely_request p h.sound h.recorded
  exact hsafe.run hstart ⟨rfl, rfl⟩ hr

end

/-! ## Runs -/

/-- The runs of the controller: from an empty ledger, requests under reviewed policies one after
    the other, each of which may stop at any point. -/
def bindingMachine : Machine BindingWorld where
  start w := w = ⟨⟨[], false⟩, []⟩
  step w w' := ∃ (p : Policy) (tool : String) (args : Json), Run (handle p tool args) w w'

theorem bindingMachine_kept {w : BindingWorld} (hw : bindingMachine.Reachable w) : Kept w := by
  refine Machine.Invariant.reachable ⟨?_, ?_⟩ hw
  · rintro w rfl
    refine ⟨⟨List.nodup_nil, ?_, ?_, paced_nil, ?_⟩, List.nodup_nil, ?_, ?_⟩
    · intro r hr; cases hr
    · intro r hr; cases hr
    · intro r hr; cases hr
    · intro call hc; cases hc
    · intro d hd; cases hd
  · rintro w w' - h ⟨p, tool, args, hr⟩
    exact (h.serves p hr).kept

/-- An operation has at most one effect of a kind. -/
theorem State.Allows.count_le {state : State} {ks : List Kind} (h : state.Allows ks) (kind : Kind) :
    ks.count kind ≤ 1 := by
  have hcases : ks = [] ∨ ks = [.apply] ∨ ks = [.apply, .restore] := by
    cases state <;> simp_all [State.Allows]
  rcases hcases with rfl | rfl | rfl <;> cases kind <;> decide

/-- **The controller bounds its effects.**  At every point of every run: an operation has at most
    one effect of each kind, and each is written at most once; effects are at least 600 s apart,
    and a window of 24 hours holds at most 4; two operations of one incident do not both have an
    effect; a write finds its intent in a ledger that is not revoked and where nothing else is
    uncertain, and goes from the previewed networks to the wanted ones, or back.  A request,
    wherever it stops, leaves what rows pin as it is, and starts and writes nothing once the
    ledger is revoked. -/
theorem reader_binding_bounded {w : BindingWorld} (hw : bindingMachine.Reachable w) :
    (∀ r ∈ w.state.rows, ∀ kind, (r.effects.map Effect.kind).count kind ≤ 1) ∧
      (∀ d, (writes w).count d ≤ 1) ∧
      w.state.effectTimes.Pairwise (fun a b => 600 ≤ |a - b|) ∧
      (∀ t, w.state.effectTimes.countP (fun a => t ≤ a ∧ a ≤ t + 86400) ≤ 4) ∧
      (∀ r ∈ w.state.rows, ∀ r' ∈ w.state.rows, r.effects ≠ [] → r'.effects ≠ [] →
        ∀ i, r.incident = .ok i → r'.incident = .ok i → r = r') ∧
      (∀ call ∈ w.calls, ∀ expected wanted, call.2 = .setAllow expected wanted →
        call.1.Ready expected wanted) ∧
      ∀ (p : Policy) (tool : String) (args : Json) (w' : BindingWorld), Run (handle p tool args) w w' →
        (∀ r ∈ w.state.rows, ∃ r' ∈ w'.state.rows, RowMove w.state.revoked r r') ∧
        (w.state.revoked = true → w'.state.revoked = true ∧ w'.state.started = w.state.started ∧
          writes w' = writes w) := by
  have hkept := bindingMachine_kept hw
  refine ⟨fun r hr kind => (hkept.sound.effects r hr).count_le kind,
    List.nodup_iff_count_le_one.1 hkept.once, hkept.sound.paced.spaced, hkept.sound.paced.budget,
    hkept.sound.incidents, hkept.ready, ?_⟩
  intro p tool args w' hr
  have hserves := hkept.serves p hr
  exact ⟨hserves.moves, hserves.revoked⟩

/-! ## A run -/

def sampleHex : String := String.ofList (List.replicate 64 'a')

def samplePeer (n : ℕ) : ℕ := 172 * 2 ^ 24 + 18 * 2 ^ 16 + n

def samplePolicy : Policy where
  enabled := true
  networkId := sampleHex
  networkName := "docker_default"
  subnet := ⟨false, samplePeer 0, 16⟩
  baseAllow := [⟨false, 127 * 2 ^ 24, 8⟩, ⟨false, 192 * 2 ^ 24 + 168 * 2 ^ 16 + 2, 32⟩, ⟨true, 1, 128⟩]
  seedPeers := [samplePeer 4]
  unitHashes := [sampleHex]

/-- A manager that sees a new peer, and never sees the write take effect. -/
def sampleAnswer : ∀ q, Reply q
  | .clock => (1000 : ℚ)
  | .headroom => .ok true
  | .waitInactive => .ok ()
  | .setAllow _ _ => .ok ()
  | .inspect => .ok
    { containerId := sampleHex, imageId := sampleHex, networkId := sampleHex
      networkName := "docker_default", peerIpv4 := samplePeer 5, running := true
      unitSha256 := sampleHex, unitActive := "inactive", denyAll := true
      allowed := samplePolicy.baseAllow ++ [peerNetwork (samplePeer 4)]
      logicalServiceVerified := true }

def sampleArgs (action : String) : Json :=
  .obj [("host", .str "raspberry"), ("action", .str action),
    ("idempotency_key", .str "nodered-peer-00000000000000000000000000000000")]

/-- A binding is planned and applied, and the outcome stays unknown. -/
def sampleWorld : BindingWorld :=
  ["nodered_plan_reader_binding", "nodered_apply_reader_binding"].foldl
    (fun w action => exec sampleAnswer (handle samplePolicy "admin_action_apply" (sampleArgs action)) w)
    ⟨⟨[], false⟩, []⟩

theorem sampleWorld_reachable : bindingMachine.Reachable sampleWorld :=
  .step (.step (.start rfl) ⟨_, _, _, run_exec _ _ _⟩) ⟨_, _, _, run_exec _ _ _⟩

theorem reader_binding_bounded_sample :
    (∀ d, (writes sampleWorld).count d ≤ 1) ∧
      writes sampleWorld = [some ("00000000000000000000000000000000", .apply)] := by
  obtain ⟨-, honce, -⟩ := reader_binding_bounded sampleWorld_reachable
  exact ⟨honce, by decide +kernel⟩

end SmartHome.ReaderBinding
