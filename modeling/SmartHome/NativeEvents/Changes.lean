/-
  What a single step of the registry may do to its state, once for all operations.
-/
import SmartHome.NativeEvents.Registry

namespace SmartHome.NativeEvents

open Verif Program

/-! ## Tables -/

/-- The tables, without the clock and the handover that `meta` keeps. -/
def Db.tables (db : Db) : Db := { db with clock := none, handover := none }

@[simp] theorem Db.tables_noteClock (db : Db) (t : ℚ) : (db.noteClock t).tables = db.tables := by
  unfold Db.noteClock
  split_ifs <;> rfl

theorem Db.noteClock_eq (db : Db) (t : ℚ) : ∃ c, db.noteClock t = { db with clock := c } := by
  unfold Db.noteClock
  split_ifs
  · exact ⟨some t, rfl⟩
  · exact ⟨db.clock, rfl⟩

section
variable {db d : Db} (h : db.tables = d.tables)
include h

theorem Db.tables_subscriptions : db.subscriptions = d.subscriptions := (congrArg Db.subscriptions h :)
theorem Db.tables_events : db.events = d.events := (congrArg Db.events h :)
theorem Db.tables_archive : db.archive = d.archive := (congrArg Db.archive h :)
theorem Db.tables_dispatch : db.dispatch = d.dispatch := (congrArg Db.dispatch h :)
theorem Db.tables_lineage : db.lineage = d.lineage := (congrArg Db.lineage h :)
theorem Db.tables_batches : db.batches = d.batches := (congrArg Db.batches h :)
theorem Db.tables_members : db.members = d.members := (congrArg Db.members h :)

theorem Db.tables_data (id : String) : db.data? id = d.data? id := by
  simp only [Db.data?, Db.tables_events h, Db.tables_archive h]

theorem Db.tables_subscription (id : String) : db.subscription? id = d.subscription? id := by
  simp only [Db.subscription?, Db.tables_subscriptions h]

theorem Db.tables_othersLive (t : ℚ) (id : String) : db.othersLive t id = d.othersLive t id := by
  simp only [Db.othersLive, Db.tables_subscriptions h]

end

theorem Surrounding.tables {clockOk : ℚ → ℚ → Prop} {s s' : State} (h : Surrounding clockOk s s') :
    s'.db.tables = s.db.tables := by
  cases h with
  | clock _ => rfl
  | restart => rfl
  | arm _ => rfl

/-! ## Transactions -/

/-- The events that are not among the retired rows. -/
def without (rows events : List Event) : List Event :=
  events.filter fun e => ∀ r ∈ rows, e.id ≠ r.id

theorem without_cons (e : Event) (rows events : List Event) :
    without (e :: rows) events = without rows (remove Event.id e.id events) := by
  simp only [without, remove, List.filter_filter]
  refine List.filter_congr fun x _ => ?_
  rw [← Bool.decide_and, decide_eq_decide, List.forall_mem_cons, and_comm]

theorem retireRows_eq {t : ℚ} {rows : List Event} {db db' : Db}
    (h : retireRows t rows db = .ok db') :
    db' = { db with archive := db.archive ++ rows.map (archivedAs db.members t), events := without rows db.events } ∧
      (∀ r ∈ rows, ∀ a ∈ db.archive, a.id ≠ r.id) := by
  induction rows generalizing db with
  | nil =>
    obtain rfl := Except.ok.inj h
    refine ⟨?_, fun r hr => by cases hr⟩
    simp [without]
  | cons e es ih =>
    simp only [retireRows, bind_ok, need_eq_ok, exists_unit] at h
    obtain ⟨hnew, h⟩ := h
    obtain ⟨heq, hrest⟩ := ih h
    refine ⟨?_, ?_⟩
    · rw [heq, without_cons, List.map_cons]
      simp only [List.append_assoc, List.singleton_append]
    · intro r hr a ha
      rcases List.mem_cons.1 hr with rfl | hr
      · exact hnew a ha
      · exact hrest r hr a (List.mem_append_left _ ha)

/-- The rows that `prune` retires. -/
def Db.retired (db : Db) (t : ℚ) : List Event := db.events.filter fun e => db.retirable t e

theorem Db.retire_eq {t : ℚ} {db db' : Db} (h : db.retire t = .ok db') :
    db.archive.length + (db.retired t).length ≤ 4096 ∧
      (∀ r ∈ db.retired t, ∀ a ∈ db.archive, a.id ≠ r.id) ∧
      db' = { db with
        archive := db.archive ++ (db.retired t).map (archivedAs db.members t), events := without (db.retired t) db.events } := by
  simp only [Db.retire, bind_ok, need_eq_ok, exists_unit] at h
  obtain ⟨hroom, h⟩ := h
  obtain ⟨heq, hnew⟩ := retireRows_eq h
  exact ⟨hroom, hnew, heq⟩

theorem insertMembers_eq {sub batch : String} {members : List String} {db db' : Db}
    (h : Db.insertMembers sub batch members db = .ok db') :
    db' = { db with members := db.members ++ members.map fun e => ⟨sub, e, batch⟩ } ∧
      members.Nodup ∧ ∀ m ∈ db.members, m.subscription = sub → m.event ∉ members := by
  induction members generalizing db with
  | nil =>
    obtain rfl := Except.ok.inj h
    exact ⟨by simp, List.nodup_nil, by simp⟩
  | cons e es ih =>
    simp only [Db.insertMembers, Db.insertMember, bind_ok, need_eq_ok, exists_unit, pure_ok] at h
    obtain ⟨db₁, ⟨hnew, rfl⟩, h⟩ := h
    obtain ⟨heq, hnodup, hrest⟩ := ih h
    have he : e ∉ es := hrest ⟨sub, e, batch⟩ (mem_concat.2 (Or.inr rfl)) rfl
    refine ⟨by rw [heq]; simp, List.nodup_cons.2 ⟨he, hnodup⟩, ?_⟩
    intro m hm hsub
    rw [List.mem_cons, not_or]
    exact ⟨fun heq => hnew m hm ⟨hsub, heq⟩, hrest m (List.mem_append_left _ hm) hsub⟩

theorem Db.intend_eq {t : ℚ} {sub : Subscription} {plan : Plan} {db db' : Db}
    (h : db.intend t sub plan = .ok db') :
    (∀ b ∈ db.batches, b.id ≠ plan.identity) ∧ plan.members.Nodup ∧
      (∀ m ∈ db.members, m.subscription = sub.id → m.event ∉ plan.members) ∧
      db' = { db with
        batches := db.batches ++ [⟨plan.identity, sub.id, plan.body, t⟩]
        members := db.members ++ plan.members.map fun e => ⟨sub.id, e, plan.identity⟩
        dispatch := db.dispatch ++ [⟨sub.id, plan.identity, .uncertain, t⟩] } := by
  simp only [Db.intend, Db.insertBatch, Db.insertDispatch, bind_ok, need_eq_ok, exists_unit,
    pure_ok] at h
  obtain ⟨db₁, ⟨hbatch, rfl⟩, db₂, hmembers, -, rfl⟩ := h
  obtain ⟨rfl, hnodup, hnew⟩ := insertMembers_eq hmembers
  exact ⟨hbatch, hnodup, hnew, rfl⟩

/-- The subscriptions after their predecessor was ended. -/
def Origin.ended (o : Origin) (subscriptions : List Subscription) : List Subscription :=
  if o.predecessor.active then
    amend Subscription.id o.predecessor.id (fun s => { s with active := false }) subscriptions
  else subscriptions

/-- The handover after a migration. -/
def handoverAfter (t : ℚ) (attempt : Option Attempt) (handover : Option Handover) : Option Handover :=
  match attempt with
  | some a => some (.completed a t)
  | none => handover

theorem Db.migrate_eq [Texts] {principal : String} {t : ℚ} {o : Origin} {attempt : Option Attempt}
    {row : Subscription} {db db' : Db} (h : db.migrate principal t o attempt row = .ok db') :
    db.unchanged principal t o attempt ∧ (∀ s ∈ db.subscriptions, s.id ≠ row.id) ∧
      (∀ l ∈ db.lineage, l.successor ≠ row.id ∧ l.predecessor ≠ o.predecessor.id) ∧
      db' = { db with
        subscriptions := o.ended db.subscriptions ++ [row]
        markers := remove Marker.predecessor o.predecessor.id db.markers
        lineage := db.lineage ++ [⟨row.id, o.predecessor.id⟩]
        handover := handoverAfter t attempt db.handover } := by
  simp only [Db.migrate, Db.insertSubscription, Db.insertLineage, bind_ok, need_eq_ok, exists_unit,
    pure_ok] at h
  obtain ⟨hunchanged, db₁, ⟨hrow, rfl⟩, db₂, ⟨hlineage, rfl⟩, rfl⟩ := h
  by_cases hactive : o.predecessor.active = true
  · simp only [hactive, if_true, Db.updateSubscription] at hrow hlineage ⊢
    refine ⟨hunchanged, fun s hs heq => ?_, hlineage, ?_⟩
    · have hkeys : (amend Subscription.id o.predecessor.id (fun s => { s with active := false })
          db.subscriptions).map Subscription.id = db.subscriptions.map Subscription.id :=
        map_key_amend fun _ _ _ => rfl
      have hmem : row.id ∈ db.subscriptions.map Subscription.id := heq ▸ List.mem_map_of_mem hs
      rw [← hkeys] at hmem
      obtain ⟨s', hs', hid⟩ := List.mem_map.1 hmem
      exact hrow s' hs' hid
    · cases attempt <;> simp [Origin.ended, hactive, handoverAfter]
  · simp only [hactive, if_false, Bool.false_eq_true] at hrow hlineage ⊢
    refine ⟨hunchanged, hrow, hlineage, ?_⟩
    cases attempt <;> simp [Origin.ended, hactive, handoverAfter]

/-- The end of a subscription in `unsubscribe`. -/
def Subscription.ended (principal : String) (r : Subscription) : Subscription :=
  if r.owner = principal then { r with active := false, secret := "", oldSecret := none } else r

theorem Db.unsubscribe_eq {principal id : String} {topics : List Topic} {t : ℚ} {db db' : Db}
    (h : db.unsubscribe principal id topics t = .ok db') :
    ∃ markers, db' = { db with
      subscriptions := amend Subscription.id id (Subscription.ended principal) db.subscriptions
      markers } := by
  simp only [Db.unsubscribe, bind_ok, need_eq_ok, exists_unit, pure_ok] at h
  obtain ⟨-, rfl⟩ := h
  exact ⟨_, rfl⟩

/-! ## Changes -/

/-- The clock has passed every start. -/
def State.Dated (clockOk : ℚ → ℚ → Prop) (s : State) (t : ℚ) : Prop :=
  (∀ r ∈ s.db.subscriptions, clockOk r.started t) ∧ ∀ m ∈ s.record.migrations, clockOk m.1.started t

section
variable [Texts] (principal : String) (clockOk : ℚ → ℚ → Prop)

/-- The row comes from a renewal or from a subscription without a predecessor. -/
def Stored (s : State) (row : Subscription) : Prop :=
  ∃ (p : SubscribeParams) (topics : List Topic) (t verified : ℚ),
    row = subscriptionRow principal p row.id topics (s.db.subscription? row.id) t verified ∧
    row.id = subscriptionId principal topics p.url ∧
    clockOk t s.time ∧ s.Dated clockOk t ∧ s.db.othersLive t row.id = []

/-- The intent for a batch, as `summary_plan` found it at a time. -/
def Intended (s : State) (sub : Subscription) (plan : Plan) (db : Db) : Prop :=
  ∃ (t : ℚ) (allowed : Option (List Topic)) (c : Option ℚ),
    ¬ ({ s.db with clock := c } : Db).budgetHeld t ∧ clockOk t s.time ∧
    State.plan principal { s with db := { s.db with clock := c } } t allowed = .ok (some (sub, plan)) ∧
    ({ s.db with clock := c } : Db).intend t sub plan = .ok db

/-- What one step may do. -/
inductive Change : State → State → Prop
  | quiet {s : State} (c high : Option ℚ) (evidence : Option (ℚ × Current)) :
      Change s { s with db := { s.db with clock := c }, high, evidence }
  | accept {s : State} (e : Event) : s.db.data? e.id = none → s.db.events.length < 256 →
      Change s { s with
        db := { s.db with events := s.db.events ++ [e] }
        record := { s.record with accepted := s.record.accepted ++ [e.id] } }
  | expire {s : State} (t : ℚ) : Change s { s with db := s.db.expire t }
  | forget {s : State} (t : ℚ) : clockOk t s.time → Change s { s with db := s.db.forget t }
  | retire {s : State} {db : Db} (t : ℚ) : s.db.retire t = .ok db → Change s { s with db }
  | take {s : State} (a : Attempt) : s.db.handover = some (.armed a.grant) → Change s { s with
      db := { s.db with handover := some (.verificationIntent a) }
      record := { s.record with attempts := s.record.attempts ++ [a.grant] } }
  | unconfirmed {s : State} (a : Attempt) : s.db.handover = some (.verificationIntent a) →
      Change s { s with db := { s.db with handover := some (.verificationUnconfirmed a) } }
  | store {s : State} {row : Subscription} : Stored principal clockOk s row →
      Change s { s with db := s.db.putSubscription row }
  | migrate {s : State} {o : Origin} {attempt : Option Attempt} {row : Subscription} {db : Db} :
      row.id = subscriptionId principal row.topics row.url → row.topics = bothTopics →
      o.predecessor.topics = [.haNotification] → row.started = o.predecessor.started → row.expires ≤ o.predecessor.expires →
      s.db.migrate principal s.time o attempt row = .ok db → Change s { s with
        db, record := { s.record with migrations := s.record.migrations ++ [(o.predecessor, row)] } }
  | unsubscribe {s : State} {db : Db} (id : String) (topics : List Topic) (t : ℚ) :
      s.db.unsubscribe principal id topics t = .ok db → Change s { s with db }
  | intend {s : State} {sub : Subscription} {plan : Plan} {db : Db} :
      Intended principal clockOk s sub plan db → Change s { s with db }
  | post {s : State} {sub : Subscription} {plan : Plan} {before db : Db} (t : ℚ) :
      before.intend t sub plan = .ok db → s.db.tables = db.tables →
      (∀ p ∈ s.record.posts, p.1 ≠ plan.identity) → Change s { s with
        record := { s.record with posts := s.record.posts ++ [(plan.identity, s.db)] } }
  | respond {s : State} (sub identity : String) (state : DispatchState) :
      Change s { s with db := { s.db with dispatch := s.db.dispatch.map fun d =>
        if d.subscription = sub ∧ d.event = identity then { d with state } else d } }
  | deactivate {s : State} (id : String) :
      Change s { s with db := s.db.updateSubscription id fun r => { r with active := false } }

end

end SmartHome.NativeEvents
