/-
  Deliveries: an event is in one batch of a subscription and its forebears, and a batch is sent once,
  after all its rows were committed.
-/
import SmartHome.NativeEvents.Lineage

namespace SmartHome.NativeEvents

open Verif Program

/-! ## Plans -/

theorem mem_batchMembers {α : Type} {groups : List (Group α)} {e : String}
    (h : e ∈ batchMembers groups) : ∃ g ∈ groups, e ∈ g.members := by
  rw [batchMembers, List.mem_mergeSort, List.mem_flatMap] at h
  obtain ⟨g, hg, he⟩ := h
  exact ⟨g, List.mem_of_mem_take hg, he⟩

/-- The groups of notifications cover only the rows. -/
theorem mem_objectGroups {current : Option Current} {rows : List Event} {g : Group NotificationGroup}
    {e : String} (hg : g ∈ objectGroups current rows) (he : e ∈ g.members) : ∃ r ∈ rows, r.id = e := by
  obtain ⟨objectId, -, hgroup⟩ := List.mem_filterMap.1 hg
  simp only at hgroup
  split at hgroup
  · obtain rfl := Option.some.inj hgroup
    obtain ⟨r, hr, rfl⟩ := List.mem_map.1 he
    rw [List.mem_mergeSort] at hr
    exact ⟨r, List.mem_of_mem_filter hr, rfl⟩
  · cases hgroup

theorem mem_groupEvents {rows : List Event} {t : ℚ} {current : Option Current}
    {groups : List (Group NotificationGroup)} (h : groupEvents rows t current = .ok groups)
    {g : Group NotificationGroup} (hg : g ∈ groups) {e : String} (he : e ∈ g.members) :
    ∃ r ∈ rows, r.id = e := by
  simp only [groupEvents, bind_ok, need_eq_ok, exists_unit, pure_ok] at h
  obtain ⟨-, -, rfl⟩ := h
  rw [List.mem_mergeSort] at hg
  exact mem_objectGroups hg he

section
variable [Texts] {principal : String} {clockOk : ℚ → ℚ → Prop} {s s' : State}

theorem mem_groupTerminalEvents {rows : List Event} {t : ℚ} {groups : List (Group TerminalGroup)}
    (h : groupTerminalEvents rows t = .ok groups) {g : Group TerminalGroup} (hg : g ∈ groups)
    {e : String} (he : e ∈ g.members) : ∃ r ∈ rows, r.id = e := by
  simp only [groupTerminalEvents, bind_ok, need_eq_ok, exists_unit, pure_ok] at h
  obtain ⟨-, -, rfl⟩ := h
  rw [List.mem_mergeSort] at hg
  obtain ⟨r, hr, rfl⟩ := List.mem_map.1 hg
  exact ⟨r, hr, (List.mem_singleton.1 he).symm⟩

theorem planOf_members {α : Type} {kind : Kind} {sub : String} {t : ℚ} {summary : List α → Summary}
    {reason : String} {groups : List (Group α)} {plan : Plan}
    (h : planOf kind sub t summary reason groups = .ok plan) : plan.members = batchMembers groups := by
  simp only [planOf, bind_ok, need_eq_ok, exists_unit, pure_ok] at h
  obtain ⟨-, rfl⟩ := h
  rfl

omit [Texts] in
theorem mem_eligibleRows {db : Db} {t : ℚ} {sub : Subscription} {allowed : Option (List Topic)}
    {e : Event} (h : e ∈ db.eligibleRows t sub allowed) :
    e ∈ db.events ∧ db.eligible t sub sub.topics e := by
  rw [Db.eligibleRows, List.mem_mergeSort, List.mem_filter] at h
  simp only [decide_eq_true_eq] at h
  exact ⟨h.1, h.2.1⟩

/-- A batch is made of eligible events. -/
theorem planFor_members {t : ℚ} {sub : Subscription} {allowed : Option (List Topic)} {plan : Plan}
    (h : s.planFor t sub allowed = .ok (some plan)) :
    ∀ id ∈ plan.members, ∃ e ∈ s.db.events, e.id = id ∧ s.db.eligible t sub sub.topics e := by
  simp only [State.planFor, bind_ok, need_eq_ok, exists_unit] at h
  obtain ⟨-, h⟩ := h
  have hrow : ∀ {first : Event} {id : String},
      (∃ r ∈ (s.db.eligibleRows t sub allowed).filter (fun e => e.topic = first.topic), r.id = id) →
      ∃ e ∈ s.db.events, e.id = id ∧ s.db.eligible t sub sub.topics e := by
    rintro first id ⟨r, hr, rfl⟩
    obtain ⟨hmem, heligible⟩ := mem_eligibleRows (List.mem_of_mem_filter hr)
    exact ⟨r, hmem, rfl, heligible⟩
  intro id hid
  split at h
  · cases pure_ok.1 h
  · split at h
    · obtain ⟨groups, hgroups, h⟩ := bind_ok.1 h
      obtain ⟨plan', hplan, h⟩ := bind_ok.1 h
      obtain rfl := Option.some.inj (pure_ok.1 h)
      rw [planOf_members hplan] at hid
      obtain ⟨g, hg, hmem⟩ := mem_batchMembers hid
      exact hrow (mem_groupTerminalEvents hgroups hg hmem)
    · obtain ⟨groups, hgroups, h⟩ := bind_ok.1 h
      obtain ⟨plan', hplan, h⟩ := bind_ok.1 h
      obtain rfl := Option.some.inj (pure_ok.1 h)
      rw [planOf_members hplan] at hid
      obtain ⟨g, hg, hmem⟩ := mem_batchMembers hid
      have hgroup : g ∈ groups := by
        split_ifs at hg
        · exact List.mem_mergeSort.1 hg
        · exact hg
      exact hrow (mem_groupEvents hgroups hgroup hmem)

/-- The batch is for a subscription of the registry. -/
theorem plan_members {t : ℚ} {sub : Subscription} {allowed : Option (List Topic)} {plan : Plan}
    (h : s.plan principal t allowed = .ok (some (sub, plan))) : sub ∈ s.db.subscriptions ∧
      ∀ id ∈ plan.members, ∃ e ∈ s.db.events, e.id = id ∧ s.db.eligible t sub sub.topics e := by
  unfold State.plan at h
  split at h
  · cases h
  · rename_i r hlive
    obtain ⟨plan', hplan, h⟩ := bind_ok.1 h
    cases plan' with
    | none => cases pure_ok.1 h
    | some plan' =>
      obtain ⟨rfl, rfl⟩ := Prod.mk.inj (Option.some.inj (pure_ok.1 h))
      refine ⟨?_, planFor_members hplan⟩
      have hmem : r ∈ s.db.subscriptions.filter fun r => r.live t ∧ r.owner = principal :=
        hlive ▸ List.mem_singleton_self r
      exact List.mem_of_mem_filter hmem
  · cases h

/-! ## Runs in which no event comes back -/

variable (principal) in
/-- The step is the transaction of `dispatch_one` at a time, for a subscription. -/
def Intends (s s' : State) (t : ℚ) (sub : Subscription) : Prop :=
  ∃ (allowed : Option (List Topic)) (c : Option ℚ) (plan : Plan) (db : Db),
    State.plan principal { s with db := { s.db with clock := c } } t allowed = .ok (some (sub, plan)) ∧
    ({ s.db with clock := c } : Db).intend t sub plan = .ok db ∧ s' = { s with db }

/-- What was delivered for those who took over from a subscription lies before its events. -/
def State.Behind (s : State) (t : ℚ) (sub : Subscription) : Prop :=
  ∀ l ∈ s.db.lineage, l.predecessor = sub.id → ∀ m ∈ s.db.members, m.subscription = l.successor →
    ∀ e ∈ s.db.events, e.id = m.event → e.topic ∈ sub.topics → e.created < max (t - 86400) sub.started

variable (principal) in
/-- The runs in which every batch is planned for a subscription that is behind nothing delivered. -/
def behindMachine : Machine (Desk State Reply Unit) where
  start := (registryMachine principal anyClock).start
  step w w' := (registryMachine principal anyClock).step w w' ∧
    ∀ t sub, Intends principal w.state w'.state t sub → w.state.Behind t sub

/-! ## The invariant -/

variable (principal) in
/-- Who takes over from whom. -/
structure State.Lineal (s : State) : Prop where
  named : ∀ r ∈ s.db.subscriptions, r.id = subscriptionId principal r.topics r.url
  lineal : ∀ l ∈ s.db.lineage,
    (∃ url, l.successor = subscriptionId principal bothTopics url) ∧
      ∃ url, l.predecessor = subscriptionId principal [.haNotification] url
  single : ∀ l ∈ s.db.lineage, ∀ l' ∈ s.db.lineage, l.successor = l'.successor → l = l'
  apart : ∀ l ∈ s.db.lineage, l.successor ≠ l.predecessor

/-- Where the members of batches come from. -/
structure State.Delivered (s : State) : Prop where
  owners : ∀ m ∈ s.db.members, m.subscription ∈ s.db.subscriptions.map Subscription.id
  keys : ∀ m ∈ s.db.members, ∀ m' ∈ s.db.members, m.subscription = m'.subscription →
    m.event = m'.event → m = m'
  once : ∀ l ∈ s.db.lineage, ∀ m ∈ s.db.members, ∀ m' ∈ s.db.members,
    m.subscription = l.successor → m'.subscription = l.predecessor → m.event ≠ m'.event

/-- When batches are sent. -/
structure State.Sent (s : State) : Prop where
  once : (s.record.posts.map Prod.fst).Nodup
  stored : s.Posted
  committed : ∀ p ∈ s.record.posts, (∃ b ∈ p.2.batches, b.id = p.1) ∧
    (∃ d ∈ p.2.dispatch, d.event = p.1 ∧ d.state = .uncertain) ∧
    ∀ m ∈ s.db.members, m.batch = p.1 → m ∈ p.2.members

theorem Change.sent (h : s.Sent) (hc : Change principal clockOk s s') : s'.Sent := by
  have hposted := hc.posted h.stored
  cases hc with
  | retire t hdb =>
    obtain ⟨-, -, rfl⟩ := Db.retire_eq hdb
    exact ⟨h.once, hposted, h.committed⟩
  | migrate _ _ _ _ _ hdb =>
    obtain ⟨-, -, -, rfl⟩ := Db.migrate_eq hdb
    exact ⟨h.once, hposted, h.committed⟩
  | unsubscribe _ _ _ hdb =>
    obtain ⟨_, rfl⟩ := Db.unsubscribe_eq hdb
    exact ⟨h.once, hposted, h.committed⟩
  | @intend sub plan db hi =>
    obtain ⟨t, _, _, -, -, -, hdb⟩ := hi
    obtain ⟨hnew, -, -, rfl⟩ := Db.intend_eq hdb
    refine ⟨h.once, hposted, fun p hp => ?_⟩
    obtain ⟨hbatch, hdispatch, hmembers⟩ := h.committed p hp
    refine ⟨hbatch, hdispatch, fun m hm heq => ?_⟩
    rcases List.mem_append.1 hm with hm | hm
    · exact hmembers m hm heq
    · -- the new members are of a new batch
      obtain ⟨e, -, rfl⟩ := List.mem_map.1 hm
      obtain ⟨b, hb, hid⟩ := h.stored p hp
      exact absurd (hid.trans heq.symm) (hnew b hb)
  | @post sub plan before db t hdb htables hnew =>
    obtain ⟨-, -, -, rfl⟩ := Db.intend_eq hdb
    refine ⟨?_, hposted, fun p hp => ?_⟩
    · rw [List.map_append]
      refine List.nodup_append.2 ⟨h.once, List.nodup_singleton _, ?_⟩
      rintro x hx y hy rfl
      obtain ⟨p, hp, rfl⟩ := List.mem_map.1 hx
      exact hnew p hp (List.mem_singleton.1 hy)
    · rcases mem_concat.1 hp with hp | rfl
      · exact h.committed p hp
      · refine ⟨⟨⟨plan.identity, sub.id, plan.body, t⟩, ?_, rfl⟩,
          ⟨⟨sub.id, plan.identity, .uncertain, t⟩, ?_, rfl, rfl⟩, fun m hm _ => hm⟩
        · rw [Db.tables_batches htables]
          exact mem_concat.2 (Or.inr rfl)
        · rw [Db.tables_dispatch htables]
          exact mem_concat.2 (Or.inr rfl)
  | _ => exact ⟨h.once, hposted, h.committed⟩

/-- What a change does to the members of batches. -/
theorem Change.members (hc : Change principal clockOk s s') : s'.db.members = s.db.members ∨
    ∃ (t : ℚ) (sub : Subscription) (plan : Plan), Intends principal s s' t sub ∧
      s'.db.subscriptions = s.db.subscriptions ∧ s'.db.lineage = s.db.lineage ∧
      sub ∈ s.db.subscriptions ∧ plan.members.Nodup ∧
      (∀ id ∈ plan.members, ∃ e ∈ s.db.events, e.id = id ∧ s.db.eligible t sub sub.topics e) ∧
      s'.db.members = s.db.members ++ plan.members.map fun e => ⟨sub.id, e, plan.identity⟩ := by
  cases hc with
  | retire t hdb => obtain ⟨-, -, rfl⟩ := Db.retire_eq hdb; exact Or.inl rfl
  | migrate _ _ _ _ _ hdb => obtain ⟨-, -, -, rfl⟩ := Db.migrate_eq hdb; exact Or.inl rfl
  | unsubscribe _ _ _ hdb => obtain ⟨_, rfl⟩ := Db.unsubscribe_eq hdb; exact Or.inl rfl
  | @intend sub plan db hi =>
    obtain ⟨t, allowed, c, -, -, hplan, hdb⟩ := hi
    obtain ⟨hsub, hmembers⟩ := plan_members hplan
    obtain ⟨-, hnodup, -, heq⟩ := Db.intend_eq hdb
    refine Or.inr ⟨t, sub, plan, ⟨allowed, c, plan, db, hplan, hdb, rfl⟩, ?_, ?_, hsub, hnodup,
      hmembers, ?_⟩
    · rw [heq]
    · rw [heq]
    · rw [heq]
  | _ => exact Or.inl rfl

theorem State.Lineal.change (h : s.Lineal principal) (hc : Change principal clockOk s s') :
    s'.Lineal principal := by
  obtain ⟨-, ⟨hrows, -, hlineage⟩ | ⟨row, hstored, -, hlineage, hrows⟩ | ⟨o, row, htakes⟩⟩ := hc.rows
  · refine ⟨fun r hr => ?_, by rw [hlineage]; exact h.lineal, by rw [hlineage]; exact h.single,
      by rw [hlineage]; exact h.apart⟩
    obtain ⟨r', hr', hid, -, -, -, htopics, hurl⟩ := hrows.row r hr
    rw [hid, htopics, hurl]
    exact h.named r' hr'
  · refine ⟨fun r hr => ?_, by rw [hlineage]; exact h.lineal, by rw [hlineage]; exact h.single,
      by rw [hlineage]; exact h.apart⟩
    obtain ⟨p, topics, t, verified, hrow, hid, -⟩ := hstored
    rw [hrows] at hr
    rcases List.mem_cons.1 hr with rfl | hr
    · have htopics : r.topics = topics := congrArg Subscription.topics hrow
      have hurl : r.url = p.url := congrArg Subscription.url hrow
      rw [htopics, hurl]
      exact hid
    · exact h.named r (List.mem_of_mem_filter hr)
  · obtain ⟨attempt, ⟨current, hcurrent, -, -, -, htopics, -⟩, -⟩ := htakes.unchanged
    obtain ⟨hmem, hid⟩ := lookup_eq_some hcurrent
    refine ⟨fun r hr => ?_, fun l hl => ?_, fun l hl l' hl' heq => ?_, fun l hl => ?_⟩
    · rw [htakes.rows] at hr
      rcases mem_concat.1 hr with hr | rfl
      · obtain ⟨r', hr', hid, -, -, -, htopics, hurl⟩ := (o.weakens s.db.subscriptions).row r hr
        rw [hid, htopics, hurl]
        exact h.named r' hr'
      · exact htakes.named
    · rw [htakes.lineage] at hl
      rcases mem_concat.1 hl with hl | rfl
      · exact h.lineal l hl
      · refine ⟨⟨row.url, htakes.topics ▸ htakes.named⟩, current.url, ?_⟩
        rw [← hid, h.named current hmem, htopics, htakes.predecessor]
    · rw [htakes.lineage] at hl hl'
      rcases mem_concat.1 hl with hl | rfl
      · rcases mem_concat.1 hl' with hl' | rfl
        · exact h.single l hl l' hl' heq
        · exact absurd heq (htakes.fresh l hl)
      · rcases mem_concat.1 hl' with hl' | rfl
        · exact absurd heq.symm (htakes.fresh l' hl')
        · rfl
    · rw [htakes.lineage] at hl
      rcases mem_concat.1 hl with hl | rfl
      · exact h.apart l hl
      · exact fun heq => htakes.new current hmem (hid.trans heq.symm)

/-- The ids of the subscriptions stay. -/
theorem Change.ids_subset (hc : Change principal clockOk s s') :
    s.db.subscriptions.map Subscription.id ⊆ s'.db.subscriptions.map Subscription.id := by
  intro id hid
  obtain ⟨-, ⟨hrows, -⟩ | ⟨row, -, -, -, hrows⟩ | ⟨o, row, htakes⟩⟩ := hc.rows
  · rw [hrows.ids]; exact hid
  · rw [hrows]; exact mem_keys_put hid
  · rw [htakes.rows, List.map_append, (o.weakens s.db.subscriptions).ids]
    exact List.mem_append_left _ hid

theorem State.Delivered.change (h : s.Delivered) (hlineal : s.Lineal principal) (hc : Change principal clockOk s s')
    (hbehind : ∀ t sub, Intends principal s s' t sub → s.Behind t sub) : s'.Delivered := by
  rcases hc.members with hmembers | ⟨t, sub, plan, hintends, hrows, hlineage, hsub, hnodup, heligible,
    hmembers⟩
  · refine ⟨?_, by rw [hmembers]; exact h.keys, ?_⟩
    · rw [hmembers]
      exact fun m hm => hc.ids_subset (h.owners m hm)
    · rw [hmembers]
      intro l hl m hm m' hm' hs hp
      obtain ⟨-, ⟨-, -, hlineage⟩ | ⟨_, -, -, hlineage, -⟩ | ⟨o, row, htakes⟩⟩ := hc.rows
      · exact h.once l (hlineage ▸ hl) m hm m' hm' hs hp
      · exact h.once l (hlineage ▸ hl) m hm m' hm' hs hp
      · rw [htakes.lineage] at hl
        rcases mem_concat.1 hl with hl | rfl
        · exact h.once l hl m hm m' hm' hs hp
        · -- the new row has no member yet
          obtain ⟨r, hr, hid⟩ := List.mem_map.1 (h.owners m hm)
          exact absurd (hid.trans hs) (htakes.new r hr)
  · -- an event of the new batch was not covered before
    have hnew : ∀ e ∈ plan.members, ∀ m ∈ s.db.members, m.event = e → m.subscription ≠ sub.id ∧
        ∀ l ∈ s.db.lineage, (l.successor = sub.id → m.subscription ≠ l.predecessor) ∧
          (l.predecessor = sub.id → m.subscription ≠ l.successor) := by
      rintro e he m hm rfl
      obtain ⟨ev, hev, hid, hwindow, htopic, hcovered, hforebears⟩ := heligible _ he
      refine ⟨fun hs => hcovered (Or.inr ⟨m, hm, hs, hid.symm⟩), fun l hl => ⟨fun hs hp => ?_, fun hp hs => ?_⟩⟩
      · exact hforebears l hl hs (Or.inr ⟨m, hm, hp, hid.symm⟩)
      · exact absurd (hbehind t sub hintends l hl hp m hm hs ev hev hid htopic) (not_lt.2 hwindow)
    refine ⟨fun m hm => ?_, fun m hm m' hm' hs he => ?_, fun l hl m hm m' hm' hs hp he => ?_⟩
    · rw [hmembers] at hm
      rw [hrows]
      rcases List.mem_append.1 hm with hm | hm
      · exact h.owners m hm
      · obtain ⟨e, -, rfl⟩ := List.mem_map.1 hm
        exact List.mem_map_of_mem hsub
    · rw [hmembers] at hm hm'
      rcases List.mem_append.1 hm with hm | hm
      · rcases List.mem_append.1 hm' with hm' | hm'
        · exact h.keys m hm m' hm' hs he
        · obtain ⟨e, he', rfl⟩ := List.mem_map.1 hm'
          exact absurd hs (hnew e he' m hm he).1
      · obtain ⟨e, he', rfl⟩ := List.mem_map.1 hm
        rcases List.mem_append.1 hm' with hm' | hm'
        · exact absurd hs.symm (hnew e he' m' hm' he.symm).1
        · obtain ⟨e', -, rfl⟩ := List.mem_map.1 hm'
          rw [show e = e' from he]
    · rw [hlineage] at hl
      rw [hmembers] at hm hm'
      rcases List.mem_append.1 hm with hm | hm
      · rcases List.mem_append.1 hm' with hm' | hm'
        · exact h.once l hl m hm m' hm' hs hp he
        · obtain ⟨e, he', rfl⟩ := List.mem_map.1 hm'
          exact ((hnew e he' m hm he).2 l hl).2 hp.symm hs
      · obtain ⟨e, he', rfl⟩ := List.mem_map.1 hm
        rcases List.mem_append.1 hm' with hm' | hm'
        · exact ((hnew e he' m' hm' he.symm).2 l hl).1 hs.symm hp
        · obtain ⟨e', -, rfl⟩ := List.mem_map.1 hm'
          exact hlineal.apart l hl (hs.symm.trans hp)

/-! ## Lines of succession -/

omit [Texts] in
/-- The text of a subscription tells its topics. -/
theorem subscriptionText_topics {topics topics' : List Topic} {url url' : String}
    (h : subscriptionText principal topics url = subscriptionText principal topics' url') :
    topics = topics' := by
  have hsorted : ∀ (ts : List Topic) (u : String), (Json.arr [.str principal, .str observationName,
      argsJson ts, .str u]).Sorted := by
    intro ts u
    have helems : Json.SortedElems (ts.map fun t => .str t.name) := by
      induction ts with
      | nil => trivial
      | cons t ts ih => exact ⟨trivial, ih⟩
    have hkeys : ["project", "topics"].Pairwise (· < ·) := by decide
    exact ⟨trivial, trivial, ⟨hkeys, trivial, helems, trivial⟩, trivial, trivial⟩
  have hcanonical := String.ofList_injective h
  rw [Json.canonical_of_sorted (hsorted _ _), Json.canonical_of_sorted (hsorted _ _)] at hcanonical
  have hvalue := Json.render_injective hcanonical
  simp only [argsJson, Json.arr.injEq, Json.obj.injEq, List.cons.injEq, Prod.mk.injEq, true_and,
    and_true] at hvalue
  refine List.map_injective_iff.2 (fun t t' ht => ?_) hvalue.1
  cases t <;> cases t' <;> first | rfl | exact absurd (Json.str.inj ht) (by decide)

variable (principal) in
/-- The hash tells apart the texts of subscriptions. -/
def CollisionFree : Prop :=
  ∀ topics url topics' url', subscriptionId principal topics url = subscriptionId principal topics' url' →
    subscriptionText principal topics url = subscriptionText principal topics' url'

omit [Texts] in
/-- `id` is the subscription itself or one that it took over from, directly or through others. -/
def Db.Line (db : Db) : String → String → Prop :=
  Relation.ReflTransGen fun a b => (⟨a, b⟩ : Lineage) ∈ db.lineage

/-- A line has at most two subscriptions. -/
theorem State.Lineal.line (h : s.Lineal principal) (hfree : CollisionFree principal) {sub id : String}
    (hline : s.db.Line sub id) : id = sub ∨ (⟨sub, id⟩ : Lineage) ∈ s.db.lineage := by
  induction hline with
  | refl => exact Or.inl rfl
  | @tail a b _ hb ih =>
    rcases ih with rfl | ha
    · exact Or.inr hb
    · obtain ⟨-, url, hpred⟩ := h.lineal _ ha
      obtain ⟨⟨url', hsucc⟩, -⟩ := h.lineal _ hb
      have htopics := subscriptionText_topics (hfree _ _ _ _ (hpred.symm.trans hsucc))
      cases htopics

/-! ## Runs -/

theorem Surrounding.delivered (h : s.Lineal principal ∧ s.Delivered ∧ s.Sent)
    (hs : Surrounding clockOk s s') : s'.Lineal principal ∧ s'.Delivered ∧ s'.Sent := by
  obtain ⟨hlineal, hdelivered, hsent⟩ := h
  have hlineal' := fun hn hl hu ha => (State.Lineal.mk hn hl hu ha : s'.Lineal principal)
  cases hs with
  | clock _ => exact ⟨hlineal' hlineal.named hlineal.lineal hlineal.single hlineal.apart,
      ⟨hdelivered.owners, hdelivered.keys, hdelivered.once⟩, ⟨hsent.once, hsent.stored, hsent.committed⟩⟩
  | restart => exact ⟨hlineal' hlineal.named hlineal.lineal hlineal.single hlineal.apart,
      ⟨hdelivered.owners, hdelivered.keys, hdelivered.once⟩, ⟨hsent.once, hsent.stored, hsent.committed⟩⟩
  | arm _ => exact ⟨hlineal' hlineal.named hlineal.lineal hlineal.single hlineal.apart,
      ⟨hdelivered.owners, hdelivered.keys, hdelivered.once⟩, ⟨hsent.once, hsent.stored, hsent.committed⟩⟩

theorem delivered_fresh (h : s.Fresh) : s.Lineal principal ∧ s.Delivered ∧ s.Sent := by
  obtain ⟨hdb, hrecord⟩ := h
  refine ⟨⟨?_, ?_, ?_, ?_⟩, ⟨?_, ?_, ?_⟩, ⟨?_, ?_, ?_⟩⟩ <;> simp [hdb, hrecord, Db.empty, State.Posted]

variable {w w' : Desk State Reply Unit}

theorem behind_reachable (hw : (behindMachine principal).Reachable w) :
    (registryMachine principal anyClock).Reachable w := by
  induction hw with
  | start hw => exact .start hw
  | step _ hs ih => exact .step ih hs.1

theorem delivered_reachable (hw : (behindMachine principal).Reachable w) :
    w.state.Lineal principal ∧ w.state.Delivered ∧ w.state.Sent := by
  refine Machine.Invariant.reachable
    (p := fun w => w.state.Lineal principal ∧ w.state.Delivered ∧ w.state.Sent) ⟨?_, ?_⟩ hw
  · exact fun w hstart => delivered_fresh hstart.1
  · rintro w w' hw ⟨hlineal, hdelivered, hsent⟩ ⟨hs, hbehind⟩
    rcases registry_step (behind_reachable hw) hs with hc | ho
    · exact ⟨hlineal.change hc, hdelivered.change hlineal hc hbehind, hc.sent hsent⟩
    · exact ho.delivered ⟨hlineal, hdelivered, hsent⟩

/-- A run in which nothing was taken over. -/
theorem behind_of_lineage_nil (hw : (registryMachine principal anyClock).Reachable w)
    (hnone : w.state.db.lineage = []) : (behindMachine principal).Reachable w := by
  induction hw with
  | start hw => exact .start hw
  | @step w w' hw hs ih =>
    have hbefore : w.state.db.lineage = [] := by
      rcases registry_step hw hs with hc | ho
      · obtain ⟨-, ⟨-, -, hlineage⟩ | ⟨_, -, -, hlineage, -⟩ | ⟨o, row, htakes⟩⟩ := hc.rows
        · exact hlineage ▸ hnone
        · exact hlineage ▸ hnone
        · rw [htakes.lineage] at hnone
          exact absurd hnone (List.append_ne_nil_of_right_ne_nil _ (List.cons_ne_nil _ _))
      · exact Db.tables_lineage ho.tables ▸ hnone
    refine .step (ih hbefore) ⟨hs, fun t sub _ l hl => ?_⟩
    rw [hbefore] at hl
    cases hl

end

/-! ## A run -/

/-- Texts that begin alike have different hashes in these runs. -/
theorem sampleTexts_injective {a b : String} (ha : a.toList.head? = some '[')
    (hb : b.toList.head? = some '[') (h : sampleTexts.sha256 a = sampleTexts.sha256 b) : a = b := by
  have hdigest : ∀ p ∈ sampleDigests, p.2.toList.head? ≠ some '[' := by
    intro p hp
    have hall : ∀ d ∈ sampleDigests.map Prod.snd, d.toList.head? ≠ some '[' := by decide +kernel
    exact hall p.2 (List.mem_map_of_mem hp)
  have hnodup : (sampleDigests.map Prod.snd).Nodup := by decide +kernel
  replace h : ((lookup Prod.fst a sampleDigests).map Prod.snd).getD a =
      ((lookup Prod.fst b sampleDigests).map Prod.snd).getD b := h
  cases hla : lookup Prod.fst a sampleDigests with
  | none =>
    cases hlb : lookup Prod.fst b sampleDigests with
    | none => simpa [hla, hlb] using h
    | some q =>
      have hq : a = q.2 := by simpa [hla, hlb] using h
      exact absurd (hq ▸ ha) (hdigest q (lookup_eq_some hlb).1)
  | some p =>
    cases hlb : lookup Prod.fst b sampleDigests with
    | none =>
      have hp : p.2 = b := by simpa [hla, hlb] using h
      exact absurd (hp ▸ hb) (hdigest p (lookup_eq_some hla).1)
    | some q =>
      have hpq : p.2 = q.2 := by simpa [hla, hlb] using h
      have hsame := eq_of_key_eq hnodup (lookup_eq_some hla).1 (lookup_eq_some hlb).1 hpq
      exact (lookup_eq_some hla).2.symm.trans (hsame ▸ (lookup_eq_some hlb).2)

theorem sampleTexts_collisionFree : @CollisionFree sampleTexts samplePrincipal := by
  intro topics url topics' url' h
  have hhead : ∀ ts u, (subscriptionText samplePrincipal ts u).toList.head? = some '[' := by
    intro ts u
    rw [subscriptionText, canonicalText, String.toList_ofList, Json.canonical, Json.sort, Json.render]
    rfl
  exact sampleTexts_injective (hhead _ _) (hhead _ _) h

/-- A subscription to notifications delivered an event. -/
def sampleSent : Desk State Reply Unit :=
  sampleRun (.dispatchOne true none) (sampleRun (.enqueue ⟨sampleData, 1000⟩) sampleSubscribed)

theorem sampleSent_reachable :
    (@registryMachine sampleTexts samplePrincipal anyClock).Reachable sampleSent :=
  sampleRun_reachable _ (sampleRun_reachable _ (sampleRun_reachable _ (sampleStart_reachable _)))

/-- An event that is dated one second ahead. -/
def sampleAhead : Desk State Reply Unit := sampleRun (.enqueue ⟨sampleData, 1001⟩) sampleMigrated

theorem sampleAhead_reachable :
    (@registryMachine sampleTexts samplePrincipal (· ≤ ·)).Reachable sampleAhead :=
  sampleRun_reachable _ sampleMigrated_reachable

/-- The successor delivered it. -/
def sampleDelivered : Desk State Reply Unit := sampleRun (.dispatchOne true none) sampleAhead

theorem sampleDelivered_reachable :
    (@registryMachine sampleTexts samplePrincipal (· ≤ ·)).Reachable sampleDelivered :=
  sampleRun_reachable _ sampleAhead_reachable

/-- The successor was unsubscribed. -/
def sampleUnsubscribed : Desk State Reply Unit :=
  sampleRun (.unsubscribe observationName project bothTopics "webhook" sampleUrl) sampleDelivered

theorem sampleUnsubscribed_reachable :
    (@registryMachine sampleTexts samplePrincipal (· ≤ ·)).Reachable sampleUnsubscribed :=
  sampleRun_reachable _ sampleDelivered_reachable

/-- The predecessor subscribed anew, half a second after its start. -/
def sampleReturned : Desk State Reply Unit :=
  sampleRun (.subscribe true (sampleParams [.haNotification] 86400000))
    (sampleLater (2001 / 2) sampleUnsubscribed)

theorem sampleLater_unsubscribed :
    (@registryMachine sampleTexts samplePrincipal (· ≤ ·)).Reachable (sampleLater (2001 / 2) sampleUnsubscribed) := by
  have htime : sampleUnsubscribed.state.time ≤ 2001 / 2 := by
    rw [sampleUnsubscribed, sampleRun_time _ sampleDelivered_reachable, sampleDelivered,
      sampleRun_time _ sampleAhead_reachable, sampleAhead, sampleRun_time _ sampleMigrated_reachable,
      sampleMigrated_time]
    norm_num
  exact sampleLater_reachable htime sampleUnsubscribed_reachable

theorem sampleReturned_reachable :
    (@registryMachine sampleTexts samplePrincipal (· ≤ ·)).Reachable sampleReturned :=
  sampleRun_reachable _ sampleLater_unsubscribed

/-- The predecessor delivered too. -/
def sampleTwice : Desk State Reply Unit :=
  sampleRun (.dispatchOne true none) (sampleLater 1700 sampleReturned)

theorem sampleTwice_reachable :
    (@registryMachine sampleTexts samplePrincipal (· ≤ ·)).Reachable sampleTwice := by
  have htime : sampleReturned.state.time ≤ 1700 := by
    rw [sampleReturned, sampleRun_time _ sampleLater_unsubscribed, sampleLater]
    norm_num
  exact sampleRun_reachable _ (sampleLater_reachable htime sampleReturned_reachable)

end SmartHome.NativeEvents
