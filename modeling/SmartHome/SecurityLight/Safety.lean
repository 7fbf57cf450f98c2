/-
  The light goes off once per activation, and only when that activation's own deadline or a pending
  OFF of its own is due.
-/
import Mathlib.Tactic.Linarith
import SmartHome.SecurityLight.Nodes

namespace SmartHome.SecurityLight

open Verif

/-! ## Events -/

/-- An activation of a lifecycle begins. -/
def Starts (i : ℕ) (h : Handled Context Message) : Prop :=
  ∃ a, h.message = .markActive a ∧ h.sent nodes ≠ [] ∧ h.context.slot a.mode = i

/-- An OFF is scheduled for the activation of a lifecycle. -/
def Schedules (i : ℕ) (p : ℚ) (h : Handled Context Message) : Prop :=
  ∃ o, h.message = .offDecision o ∧ h.sent nodes ≠ [] ∧ h.context.slot o.mode = i ∧
    ∃ q ∈ h.context.lightPolicy, p = h.time + q.graceMs

/-- An OFF is sent by which the activation of a lifecycle ends. -/
def Ends (i : ℕ) (t : Timer) (h : Handled Context Message) : Prop :=
  h.message = .turnOff t ∧ h.sent nodes ≠ [] ∧ h.context.slot t.mode = i

/-- The lifecycle is active since the event, with no OFF since, and all its deadlines come from
    there. -/
def ActiveSince (i : ℕ) (l : Lifecycle) (h : Handled Context Message)
    (after : List (Handled Context Message)) : Prop :=
  Starts i h ∧ l.onSince = some h.time ∧
    (∃ q ∈ h.context.lightPolicy, l.forceOffAt = some (h.time + q.backstopMs)) ∧
    (∀ x ∈ after, ∀ t, ¬ Ends i t x) ∧ ∀ p ∈ l.pendingOffAt, ∃ x ∈ after, Schedules i p x

/-- Where the activation of a lifecycle comes from. -/
def Accounted (i : ℕ) (l : Lifecycle) (history : List (Handled Context Message)) : Prop :=
  l.activeByArrival = true → ∃ before h after, history = before ++ h :: after ∧ ActiveSince i l h after

/-- What holds when an OFF is sent. -/
structure Due (l : Lifecycle) (t : Timer) (h : Handled Context Message) : Prop where
  active : l.activeByArrival = true
  backstop : t.deadlineType = .backstop → ∀ f ∈ l.forceOffAt, f ≤ h.time
  confirmed : t.deadlineType ≠ .backstop → t.deadlineType = .confirmedOff ∧
    (∃ p, l.pendingOffAt = some p ∧ t.deadlineAt = some p ∧ p ≤ h.time) ∧
    ∃ o, l.onSince = some o ∧ t.activationAt = some o ∧
      ∃ p ∈ h.context.locationPolicy, offEvidence (h.context.seen t.mode).vehicle l p h.time = none ∧
        ∃ e, (h.context.seen t.mode).vehicle.observedAt = some e ∧ o < e

/-! ## Lemmas on the context -/

variable {c c' : Context} {mode : Mode} {l l' : Lifecycle} {now : ℚ} {i j : ℕ}

theorem getElem?_keep (h : (c.keep mode l).objects[j]? = some l') :
    (j = c.slot mode ∧ l' = l) ∨ c.objects[j]? = some l' ∧ j ≠ c.slot mode := by
  unfold Context.keep at h
  cases hs : c.stored mode with
  | some i =>
    have hslot : c.slot mode = i := by rw [Context.slot, hs]; rfl
    rw [hslot]
    simp only [hs, Context.put, List.getElem?_set] at h
    split_ifs at h with hij hlt
    · exact Or.inl ⟨hij.symm, (Option.some.inj h).symm⟩
    · exact Or.inr ⟨h, fun hj => hij hj.symm⟩
  | none =>
    have hslot : c.slot mode = c.objects.length := by rw [Context.slot, hs]; rfl
    rw [hslot]
    simp only [hs, Context.store, Context.make, List.getElem?_append] at h
    split_ifs at h with hlt
    · exact Or.inr ⟨h, by omega⟩
    · have hj : j - c.objects.length = 0 := by
        by_contra hne
        simp [hne] at h
      rw [hj] at h
      exact Or.inl ⟨by omega, (Option.some.inj h).symm⟩

/-- An object that was made, or one that was there. -/
theorem mem_concat_getElem? {objects : List Lifecycle} (h : (objects ++ [l])[j]? = some l') :
    objects[j]? = some l' ∨ l' = l := by
  rw [List.getElem?_append] at h
  split_ifs at h
  · exact Or.inl h
  · exact Or.inr (List.mem_singleton.1 (List.mem_of_getElem? h))

theorem lifecycle_eq_some (h : c.lifecycle mode = some l) : c.objects[c.slot mode]? = some l := by
  obtain ⟨i, hi, hl⟩ := Option.bind_eq_some_iff.1 h
  rw [Context.slot, hi]
  exact hl

@[simp] theorem fired_objects (t : Timer) : (c.fired t).objects = c.objects := by
  unfold Context.fired; split_ifs <;> rfl

@[simp] theorem fired_stored (t : Timer) : (c.fired t).stored = c.stored := by
  unfold Context.fired; split_ifs <;> rfl

@[simp] theorem fired_seen (t : Timer) : (c.fired t).seen = c.seen := by
  unfold Context.fired; split_ifs <;> rfl

/-- The evidence against is none only if the engine was seen off after the activation began. -/
theorem offEvidence_none {v : Vehicle} {p : LocationPolicy} (h : offEvidence v l p now = none) :
    ∃ o e, l.onSince = some o ∧ v.observedAt = some e ∧ o < e := by
  unfold offEvidence at h
  split_ifs at h
  cases he : v.observedAt with
  | none => rw [he] at h; cases h
  | some e =>
    rw [he] at h
    simp only at h
    split_ifs at h
    cases ho : l.onSince with
    | none => rw [ho] at h; cases h
    | some o =>
      rw [ho] at h
      simp only at h
      split_ifs at h with hoe
      exact ⟨o, e, rfl, rfl, not_le.1 hoe⟩

/-! ## Steps -/

/-- An active lifecycle goes on: its start and its backstop stay, and the pending OFF may only be
    dropped or scheduled. -/
structure GoesOn (i : ℕ) (l l' : Lifecycle) (h : Handled Context Message) : Prop where
  active : l.activeByArrival = true
  onSince : l'.onSince = l.onSince
  forceOffAt : l'.forceOffAt = l.forceOffAt
  pending : ∀ p ∈ l'.pendingOffAt, l.pendingOffAt = some p ∨ Schedules i p h
  noEnd : ∀ t, ¬ Ends i t h

/-- The lifecycle is active because the event started it. -/
def Begun (i : ℕ) (l : Lifecycle) (h : Handled Context Message) : Prop :=
  ActiveSince i l h []

theorem GoesOn.refl {h : Handled Context Message} (hactive : l.activeByArrival = true)
    (hno : ∀ t, ¬ Ends i t h) : GoesOn i l l h :=
  ⟨hactive, rfl, rfl, fun _ hp => Or.inl hp, hno⟩

theorem Lifecycle.trusted_active {p : LocationPolicy} {q : LightPolicy}
    (h : (l.trusted p q now).activeByArrival = true) : l.trusted p q now = l := by
  unfold Lifecycle.trusted at h ⊢
  split_ifs at h ⊢
  rfl

theorem Lifecycle.fitted_eq (l : Lifecycle) : l.fitted.activeByArrival = l.activeByArrival ∧
    l.fitted.onSince = l.onSince ∧ l.fitted.forceOffAt = l.forceOffAt ∧
    ∀ f ∈ l.fitted.pendingOffAt, l.pendingOffAt = some f := by
  unfold Lifecycle.fitted
  split_ifs
  · exact ⟨rfl, rfl, rfl, fun f hf => by cases hf⟩
  · exact ⟨rfl, rfl, rfl, fun f hf => hf⟩

theorem Lifecycle.loaded_active {p : LocationPolicy} {q : LightPolicy}
    (h : (l.loaded p q now).activeByArrival = true) :
    l.activeByArrival = true ∧ (l.loaded p q now).onSince = l.onSince ∧
      (l.loaded p q now).forceOffAt = l.forceOffAt ∧
      ∀ f ∈ (l.loaded p q now).pendingOffAt, l.pendingOffAt = some f := by
  obtain ⟨hactive, hon, hforce, hpending⟩ := Lifecycle.fitted_eq ({ l.trusted p q now with
    vehicleRefreshAt := none
    vehicleRefreshReason := none
    vehicleRefreshSource := none } : Lifecycle)
  have htrusted := Lifecycle.trusted_active (hactive.symm.trans h)
  rw [htrusted] at hactive hon hforce hpending
  refine ⟨hactive.symm.trans (htrusted ▸ h), ?_, ?_, ?_⟩
  · unfold Lifecycle.loaded; rw [htrusted]; exact hon
  · unfold Lifecycle.loaded; rw [htrusted]; exact hforce
  · unfold Lifecycle.loaded; rw [htrusted]; exact hpending

/-- No OFF is sent by another node. -/
theorem not_ends {h : Handled Context Message} (hm : ∀ t, h.message ≠ .turnOff t) :
    ∀ t, ¬ Ends i t h := fun t he => hm t he.1

/-- Objects that stay. -/
theorem goesOn_of_objects {h : Handled Context Message} (hobjects : c'.objects = c.objects)
    (hl : c'.objects[i]? = some l') (hactive : l'.activeByArrival = true)
    (hno : ∀ t, ¬ Ends i t h) : ∃ l, c.objects[i]? = some l ∧ GoesOn i l l' h :=
  ⟨l', hobjects ▸ hl, .refl hactive hno⟩

/-! ## What the nodes do -/

theorem markActive_eq (c : Context) (now : ℚ) (a : Arrival) : markActive now a c = (c, []) ∨
    ∃ q, c.lightPolicy = some q ∧ (markActive now a c).2 ≠ [] ∧ (markActive now a c).1.objects =
      (c.keep a.mode (((c.lifecycle a.mode).getD .new).begun a.arrivalKey q now)).objects := by
  unfold markActive
  split
  · rename_i p q _ hq
    simp only
    split_ifs
    · exact Or.inr ⟨q, hq, List.cons_ne_nil _ _, rfl⟩
    · exact Or.inl rfl
  · exact Or.inl rfl

theorem offDecision_eq (c : Context) (now : ℚ) (o : Observation) : offDecision now o c = (c, []) ∨
    ∃ q l, c.lightPolicy = some q ∧ c.lifecycle o.mode = some l ∧ l.activeByArrival = true ∧
      ((offDecision now o c).1 = c.keep o.mode (l.cancelled now) ∨
        (offDecision now o c).1 = c.keep o.mode (l.scheduled q now) ∧ (offDecision now o c).2 ≠ []) := by
  unfold offDecision
  split
  · rename_i p q l _ hq hl
    simp only
    split_ifs with hready hagainst
    · exact Or.inr ⟨q, l, hq, hl, hready.1, Or.inl rfl⟩
    · exact Or.inl rfl
    · exact Or.inr ⟨q, l, hq, hl, hready.1, Or.inr ⟨rfl, List.cons_ne_nil _ _⟩⟩
    · exact Or.inl rfl
  · exact Or.inl rfl

theorem turnOff_eq (c : Context) (now : ℚ) (t : Timer) :
    ((turnOff now t c).1.objects = c.objects ∧ (turnOff now t c).2 = []) ∨
    ∃ p q l, c.locationPolicy = some p ∧ c.lifecycle t.mode = some l ∧ l.activeByArrival = true ∧
      turnOffReady t l (c.seen t.mode) p q now ∧ (turnOff now t c).2 ≠ [] ∧
      (turnOff now t c).1 = (c.fired t).keep t.mode (l.ended q now) := by
  unfold turnOff
  split
  · rename_i p q hp _
    simp only
    split
    · rename_i l hl
      split_ifs with hready
      · refine Or.inr ⟨p, q, l, hp, ?_, hready.1, ?_, List.cons_ne_nil _ _, rfl⟩
        · rw [← hl, Context.lifecycle, Context.lifecycle, fired_objects, fired_stored]
        · rw [← fired_seen t]; exact hready.2
      · exact Or.inl ⟨fired_objects t, rfl⟩
    · exact Or.inl ⟨fired_objects t, rfl⟩
  · exact Or.inl ⟨rfl, rfl⟩

theorem lifecycleLoad_eq (c : Context) (now : ℚ) (m : Physical) : (lifecycleLoad now m c).1 = c ∨
    ∃ p q, (∃ l, c.lifecycle .production = some l ∧
        (lifecycleLoad now m c).1 = c.keep .production (l.loaded p q now)) ∨
      (lifecycleLoad now m c).1 =
        c.make (({ Lifecycle.new with updatedAt := some now } : Lifecycle).loaded p q now) := by
  unfold lifecycleLoad
  split
  · rename_i p q _ _
    refine Or.inr ⟨p, q, ?_⟩
    simp only
    split
    · rename_i l hl
      exact Or.inl ⟨l, (Option.filter_eq_some_iff.1 hl).1, rfl⟩
    · exact Or.inr rfl
  · exact Or.inl rfl

theorem physicalApply_eq (r : Reconcile) : (physicalApply r c).1.objects = c.objects ∨
    ∃ l : Lifecycle, (physicalApply r c).1.objects = c.objects.set r.lifecycle (l.ended r.policy r.now) := by
  show c.corrected r = c.objects ∨ ∃ l : Lifecycle, c.corrected r = c.objects.set r.lifecycle _
  unfold Context.corrected
  split
  · rename_i l _
    split_ifs
    · exact Or.inr ⟨l, rfl⟩
    · exact Or.inl rfl
  · exact Or.inl rfl

theorem recoveryFacts_objects (r : Reconcile) : (recoveryFacts r c).1.objects = c.objects := by
  unfold recoveryFacts
  split <;> simp only <;> split_ifs <;> rfl

/-- What a message does to an active lifecycle. -/
theorem active_after (m : Message) (hl : ((nodes now m c).1).objects[i]? = some l')
    (hactive : l'.activeByArrival = true) :
    Begun i l' ⟨m, now, c⟩ ∨ ∃ l, c.objects[i]? = some l ∧ GoesOn i l l' ⟨m, now, c⟩ := by
  cases m with
  | markActive a =>
    have hno : ∀ t, ¬ Ends i t ⟨.markActive a, now, c⟩ := not_ends fun t ht => by cases ht
    rcases markActive_eq c now a with heq | ⟨q, hq, hsent, hobjects⟩
    · exact Or.inr (goesOn_of_objects (congrArg (fun r => r.1.objects) heq) hl hactive hno)
    · rw [show (nodes now (.markActive a) c).1.objects = _ from hobjects] at hl
      rcases getElem?_keep hl with ⟨rfl, rfl⟩ | ⟨hold, -⟩
      · left
        refine ⟨⟨a, rfl, hsent, rfl⟩, rfl, ⟨q, hq, rfl⟩, fun x hx => ?_, fun p hp => ?_⟩
        · cases hx
        · cases hp
      · exact Or.inr ⟨l', hold, .refl hactive hno⟩
  | offDecision o =>
    have hno : ∀ t, ¬ Ends i t ⟨.offDecision o, now, c⟩ := not_ends fun t ht => by cases ht
    right
    rcases offDecision_eq c now o with heq | ⟨q, l, hq, hlife, hbefore, hcases⟩
    · exact goesOn_of_objects (congrArg (fun r => r.1.objects) heq) hl hactive hno
    · rcases hcases with heq | ⟨heq, hsent⟩
      · rw [show (nodes now (.offDecision o) c).1 = _ from heq] at hl
        rcases getElem?_keep hl with ⟨rfl, rfl⟩ | ⟨hold, -⟩
        · refine ⟨l, lifecycle_eq_some hlife, hbefore, rfl, rfl, fun p hp => ?_, hno⟩
          cases hp
        · exact ⟨l', hold, .refl hactive hno⟩
      · rw [show (nodes now (.offDecision o) c).1 = _ from heq] at hl
        rcases getElem?_keep hl with ⟨rfl, rfl⟩ | ⟨hold, -⟩
        · refine ⟨l, lifecycle_eq_some hlife, hbefore, rfl, rfl, fun p hp => Or.inr ?_, hno⟩
          exact ⟨o, rfl, hsent, rfl, q, hq, (Option.some.inj hp).symm⟩
        · exact ⟨l', hold, .refl hactive hno⟩
  | turnOff t =>
    right
    rcases turnOff_eq c now t with ⟨hobjects, hsent⟩ | ⟨p, q, l, -, hlife, -, -, -, heq⟩
    · exact goesOn_of_objects hobjects hl hactive fun t' he => he.2.1 hsent
    · rw [show (nodes now (.turnOff t) c).1 = _ from heq] at hl
      have hslot : (c.fired t).slot t.mode = c.slot t.mode := by
        rw [Context.slot, Context.slot, fired_stored, fired_objects]
      rcases getElem?_keep hl with ⟨-, rfl⟩ | ⟨hold, hne⟩
      · cases hactive
      · rw [fired_objects] at hold
        refine ⟨l', hold, .refl hactive ?_⟩
        rintro t' ⟨ht', -, hi⟩
        obtain rfl := Message.turnOff.inj ht'
        exact hne (hi.symm.trans hslot.symm)
  | lifecycleLoad m =>
    have hno : ∀ t, ¬ Ends i t ⟨.lifecycleLoad m, now, c⟩ := not_ends fun t ht => by cases ht
    right
    rcases lifecycleLoad_eq c now m with heq | ⟨p, q, ⟨l, hlife, heq⟩ | heq⟩
    · exact goesOn_of_objects (congrArg Context.objects heq) hl hactive hno
    · rw [show (nodes now (.lifecycleLoad m) c).1 = _ from heq] at hl
      rcases getElem?_keep hl with ⟨rfl, rfl⟩ | ⟨hold, -⟩
      · obtain ⟨hbefore, hon, hforce, hpending⟩ := Lifecycle.loaded_active hactive
        exact ⟨l, lifecycle_eq_some hlife, hbefore, hon, hforce, fun f hf => Or.inl (hpending f hf), hno⟩
      · exact ⟨l', hold, .refl hactive hno⟩
    · rw [show (nodes now (.lifecycleLoad m) c).1 = _ from heq] at hl
      rcases mem_concat_getElem? hl with hold | rfl
      · exact ⟨l', hold, .refl hactive hno⟩
      · exact absurd (Lifecycle.loaded_active hactive).1 Bool.false_ne_true
  | physicalApply r =>
    have hno : ∀ t, ¬ Ends i t ⟨.physicalApply r, now, c⟩ := not_ends fun t ht => by cases ht
    right
    rcases physicalApply_eq (c := c) r with hobjects | ⟨l, hobjects⟩
    · exact goesOn_of_objects hobjects hl hactive hno
    · rw [show (nodes now (.physicalApply r) c).1.objects = _ from hobjects, List.getElem?_set] at hl
      split_ifs at hl
      · obtain rfl := Option.some.inj hl
        cases hactive
      · exact ⟨l', hl, .refl hactive hno⟩
  | recoveryFacts r =>
    exact Or.inr (goesOn_of_objects (recoveryFacts_objects r) hl hactive (not_ends fun t ht => by cases ht))
  | recoveryBuild r =>
    exact Or.inr (goesOn_of_objects rfl hl hactive (not_ends fun t ht => by cases ht))
  | on a => exact Or.inr (goesOn_of_objects rfl hl hactive (not_ends fun t ht => by cases ht))
  | off t => exact Or.inr (goesOn_of_objects rfl hl hactive (not_ends fun t ht => by cases ht))

/-- An OFF is sent only when it is due. -/
theorem due_of_ends {h : Handled Context Message} {t : Timer} (he : Ends i t h) :
    ∃ l, h.context.objects[i]? = some l ∧ Due l t h := by
  obtain ⟨message, time, context⟩ := h
  obtain ⟨rfl, hsent, rfl⟩ := he
  rcases turnOff_eq context time t with ⟨-, hnone⟩ | ⟨p, q, l, hp, hlife, hactive, hready, -, -⟩
  · exact absurd hnone hsent
  · refine ⟨l, lifecycle_eq_some hlife, hactive, fun hback => ?_, fun hconfirmed => ?_⟩
    · rw [turnOffReady, if_pos hback] at hready
      exact hready
    · rw [turnOffReady, if_neg hconfirmed] at hready
      obtain ⟨-, -, htype, ⟨f, hf, hdue⟩, hdeadline, hactivation, hevidence, -, -⟩ := hready
      obtain ⟨o, e, ho, hobserved, hafter⟩ := offEvidence_none hevidence
      exact ⟨htype, ⟨f, hf, hdeadline.trans hf, hdue⟩, o, ho, hactivation.trans ho, p, hp, hevidence, e,
        hobserved, hafter⟩

/-! ## Runs -/

theorem ActiveSince.concat {h x : Handled Context Message} {after : List (Handled Context Message)}
    (hsince : ActiveSince i l h after) (hgoes : GoesOn i l l' x) : ActiveSince i l' h (after ++ [x]) := by
  obtain ⟨hstarts, hon, ⟨q, hq, hforce⟩, hends, hpending⟩ := hsince
  refine ⟨hstarts, hgoes.onSince.trans hon, ⟨q, hq, hgoes.forceOffAt.trans hforce⟩, fun y hy => ?_,
    fun p hp => ?_⟩
  · rcases List.mem_append.1 hy with hy | hy
    · exact hends y hy
    · rw [List.mem_singleton.1 hy]
      exact hgoes.noEnd
  · rcases hgoes.pending p hp with hold | hnew
    · obtain ⟨y, hy, hschedules⟩ := hpending p hold
      exact ⟨y, List.mem_append_left _ hy, hschedules⟩
    · exact ⟨x, List.mem_append_right _ List.mem_cons_self, hnew⟩

/-- An OFF that was sent: what was due, and the activation that it ended. -/
def Answered (before : List (Handled Context Message)) (h : Handled Context Message) : Prop :=
  ∀ i t, Ends i t h → ∃ l, h.context.objects[i]? = some l ∧ Due l t h ∧ Accounted i l before

/-- Every active lifecycle comes from an activation, and every OFF was due. -/
def Safe (c : Context) (history : List (Handled Context Message)) : Prop :=
  (∀ i l, c.objects[i]? = some l → Accounted i l history) ∧ AtEach Answered history

theorem safe_after {history : List (Handled Context Message)} (h : Safe c history) (m : Message) :
    Safe (nodes now m c).1 (history ++ [⟨m, now, c⟩]) := by
  refine ⟨fun i l' hl hactive => ?_, h.2.concat fun i t he => ?_⟩
  · rcases active_after m hl hactive with hbegun | ⟨l, hbefore, hgoes⟩
    · exact ⟨history, _, [], rfl, hbegun⟩
    · obtain ⟨before, x, after, rfl, hsince⟩ := h.1 i l hbefore hgoes.active
      refine ⟨before, x, after ++ [⟨m, now, c⟩], ?_, hsince.concat hgoes⟩
      rw [List.append_assoc, List.cons_append]
  · obtain ⟨l, hl, hdue⟩ := due_of_ends he
    exact ⟨l, hl, hdue, h.1 i l hl⟩

theorem safe_reachable {b : Board Context Message} (hb : lightMachine.Reachable b) :
    Safe b.context b.history := by
  have hinvariant : FlowInvariant nodes outside (fun c _ history => Safe c history) fun _ _ _ => True := by
    constructor
    · rintro c t ⟨hobjects, -⟩
      refine ⟨fun i l hl => ?_, atEach_nil⟩
      rw [hobjects] at hl
      cases hl
    · exact fun _ _ _ _ => trivial
    · exact fun c t history m h _ => safe_after h m
    · exact fun _ _ _ _ _ _ _ _ => trivial
    · exact fun _ _ _ _ _ _ _ _ => trivial
    · exact fun _ _ _ _ h _ => ⟨h, fun _ _ => trivial⟩
    · rintro c c' t history h ⟨hobjects, -⟩
      exact ⟨⟨fun i l hl => h.1 i l (hobjects ▸ hl), h.2⟩, fun _ _ => trivial⟩
  exact (hinvariant.reachable hb).1

/-- **The light goes off only when it is due.**  Every OFF ends an activation that no OFF ended
    before; a backstop comes no earlier than the deadline of that activation; any other OFF carries
    its start and its pending deadline, which was scheduled since then and has passed, and the
    engine was seen off after the start.  An active lifecycle has the deadline that was set when
    it was activated. -/
theorem off_only_when_due {b : Board Context Message} (hb : lightMachine.Reachable b) :
    (∀ before h after, b.history = before ++ h :: after → ∀ i t, Ends i t h →
      ∃ l, h.context.objects[i]? = some l ∧ Due l t h ∧
        (∃ f, l.forceOffAt = some f ∧ (t.deadlineType = .backstop → f ≤ h.time)) ∧
        ∃ earlier x since, before = earlier ++ x :: since ∧ ActiveSince i l x since) ∧
      ∀ i l, b.context.objects[i]? = some l → l.activeByArrival = true →
        ∃ x ∈ b.history, Starts i x ∧ ∃ q ∈ x.context.lightPolicy, ∃ o f, l.onSince = some o ∧
          l.forceOffAt = some f ∧ o ≤ f ∧ f ≤ o + q.backstopMs := by
  obtain ⟨hactive, hanswered⟩ := safe_reachable hb
  refine ⟨fun before h after hsplit i t he => ?_, fun i l hl hon => ?_⟩
  · obtain ⟨l, hl, hdue, haccounted⟩ := hanswered before h after hsplit i t he
    obtain ⟨earlier, x, since, hbefore, hsince⟩ := haccounted hdue.active
    obtain ⟨q, -, hforce⟩ := hsince.2.2.1
    exact ⟨l, hl, hdue, ⟨_, hforce, fun hback => hdue.backstop hback _ hforce⟩, earlier, x, since,
      hbefore, hsince⟩
  · obtain ⟨before, x, after, hhistory, hstarts, ho, ⟨q, hq, hf⟩, -⟩ := hactive i l hl hon
    have hpositive : 0 ≤ q.backstopMs := by
      have hmin := q.limits.2.2.1.1
      unfold LightPolicy.backstopMs
      linarith
    refine ⟨x, ?_, hstarts, q, hq, _, _, ho, hf, by linarith, le_refl _⟩
    rw [hhistory]
    exact List.mem_append_right _ List.mem_cons_self

/-! ## A late timer -/

def sampleSeen : Seen where
  physicalState := some "unavailable"
  physicalObservedAt := none
  physicalUpdatedAt := none
  lightReconciled := false
  sunReady := true
  sunBelowHorizon := true
  vehicle := .empty
  engineCommunicationFailed := false
  people := ⟨true, fun _ => some ⟨some true, none, .num 0, some true, some "home", none, none⟩, fun _ => none⟩
  engineBypassAutomatic := false
  localCycle _ := none

def sampleStart : Board Context Message where
  context := ⟨some ⟨60, 10, 15, 5⟩, some .defaults, [], fun _ => none, fun _ => sampleSeen, fun _ => none⟩
  time := 0
  waiting := []
  entered := []
  history := []

/-- An arrival while the engine data are unreliable. -/
def sampleArrival (key : String) : Arrival :=
  ⟨.production, .other, none, false, true, false, true, true, false, none, false, some key⟩

/-- The backstop of the first activation. -/
def sampleTimer : Timer := ⟨.production, .backstop, some 900000, none, none, false⟩

/-- Two activations; the timer of the first fires when it is due, and again when the second one's
    backstop is due. -/
def sampleActs : List (Act Message) :=
  [.enter (.markActive (sampleArrival "first")), .handle 0, .later 900000, .handle 1, .later 1200000,
    .enter (.markActive (sampleArrival "second")), .handle 2, .later 2100000,
    .enter (.turnOff sampleTimer), .handle 4]

def sampleLate : Board Context Message := sampleActs.foldl (Board.act nodes) sampleStart

theorem sampleLate_reachable : lightMachine.Reachable sampleLate := by
  have hstart : lightMachine.Reachable sampleStart := .start ⟨⟨rfl, rfl⟩, rfl, rfl, rfl⟩
  refine reachable_acts hstart fun b m hm => ?_
  simp only [sampleActs, List.mem_cons, Act.enter.injEq, reduceCtorEq, List.not_mem_nil, or_false,
    false_or] at hm
  rcases hm with rfl | rfl | rfl <;> trivial

theorem sampleLate_length : sampleLate.history.length = 4 := by decide +kernel

def sampleEvent (i : Fin 4) : Handled Context Message :=
  sampleLate.history.get (i.cast sampleLate_length.symm)

/-- A late backstop of an earlier activation ends a later one that is overdue itself. -/
theorem late_backstop_ends : ∃ b, lightMachine.Reachable b ∧ ∃ x y h t, b.history[0]? = some x ∧
    b.history[2]? = some y ∧ b.history[3]? = some h ∧ Starts 0 x ∧ .turnOff t ∈ x.sent nodes ∧
      Starts 0 y ∧ Ends 0 t h := by
  have hget : ∀ i : Fin 4, sampleLate.history[i.val]? = some (sampleEvent i) := fun i =>
    List.getElem?_eq_getElem (i.isLt.trans_eq sampleLate_length.symm)
  refine ⟨sampleLate, sampleLate_reachable, sampleEvent 0, sampleEvent 2, sampleEvent 3, sampleTimer,
    hget 0, hget 2, hget 3, ⟨sampleArrival "first", ?_, ?_, ?_⟩, ?_,
    ⟨sampleArrival "second", ?_, ?_, ?_⟩, ?_, ?_, ?_⟩ <;> decide +kernel

/-- Both activations of the run were ended when they were due. -/
theorem off_only_when_due_sample : ∃ l, (sampleEvent 3).context.objects[0]? = some l ∧
    Due l sampleTimer (sampleEvent 3) := by
  have hsplit : sampleLate.history = sampleLate.history.take 3 ++ sampleEvent 3 :: sampleLate.history.drop 4 := by
    have hlt : 3 < sampleLate.history.length := by rw [sampleLate_length]; omega
    rw [show sampleEvent 3 = sampleLate.history[3] from rfl, ← List.drop_eq_getElem_cons hlt,
      List.take_append_drop]
  have hends : Ends 0 sampleTimer (sampleEvent 3) := by
    refine ⟨?_, ?_, ?_⟩ <;> decide +kernel
  obtain ⟨l, hl, hdue, -⟩ := (off_only_when_due sampleLate_reachable).1 _ _ _ hsplit 0 sampleTimer hends
  exact ⟨l, hl, hdue⟩

end SmartHome.SecurityLight
