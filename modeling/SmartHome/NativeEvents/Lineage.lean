/-
  Subscriptions: at most one is live, a successor starts where its predecessor started, and a grant
  is used once.
-/
import SmartHome.NativeEvents.Conservation

namespace SmartHome.NativeEvents

open Verif Program

/-! ## Rows -/

theorem Subscription.live_iff {r : Subscription} {t : ℚ} :
    r.live t = true ↔ r.active = true ∧ t < r.expires := by
  simp [Subscription.live]

/-- What is live later is live now. -/
theorem Subscription.live_mono {r : Subscription} {t t' : ℚ} (h : r.live t' = true) (ht : t ≤ t') :
    r.live t = true := by
  rw [Subscription.live_iff] at h ⊢
  exact ⟨h.1, lt_of_le_of_lt ht h.2⟩

theorem length_le_one {α : Type} {l : List α} (hl : l.Nodup) (h : ∀ a ∈ l, ∀ b ∈ l, a = b) :
    l.length ≤ 1 := by
  cases l with
  | nil => exact Nat.zero_le 1
  | cons a l =>
    cases l with
    | nil => exact Nat.le_refl 1
    | cons b l =>
      have hab : a = b := h a List.mem_cons_self b (List.mem_cons_of_mem _ List.mem_cons_self)
      exact absurd (hab ▸ List.mem_cons_self) (List.nodup_cons.1 hl).1

/-- The rows stay, and at most end. -/
structure Weakens (rows rows' : List Subscription) : Prop where
  ids : rows'.map Subscription.id = rows.map Subscription.id
  row : ∀ r' ∈ rows', ∃ r ∈ rows, r'.id = r.id ∧ r'.started = r.started ∧ r'.expires = r.expires ∧
    (r'.active = true → r.active = true) ∧ r'.topics = r.topics ∧ r'.url = r.url

theorem Weakens.refl (rows : List Subscription) : Weakens rows rows :=
  ⟨rfl, fun r hr => ⟨r, hr, rfl, rfl, rfl, id, rfl, rfl⟩⟩

theorem weakens_map {g : Subscription → Subscription} (rows : List Subscription)
    (h : ∀ r, (g r).id = r.id ∧ (g r).started = r.started ∧ (g r).expires = r.expires ∧
      ((g r).active = true → r.active = true) ∧ (g r).topics = r.topics ∧ (g r).url = r.url) :
    Weakens rows (rows.map g) := by
  refine ⟨?_, fun r' hr' => ?_⟩
  · rw [List.map_map]
    exact List.map_congr_left fun r _ => (h r).1
  · obtain ⟨r, hr, rfl⟩ := List.mem_map.1 hr'
    exact ⟨r, hr, h r⟩

theorem weakens_amend {id : String} {change : Subscription → Subscription} (rows : List Subscription)
    (h : ∀ r, (change r).id = r.id ∧ (change r).started = r.started ∧
      (change r).expires = r.expires ∧ ((change r).active = true → r.active = true) ∧
      (change r).topics = r.topics ∧ (change r).url = r.url) :
    Weakens rows (amend Subscription.id id change rows) := by
  refine weakens_map rows fun r => ?_
  split_ifs
  · exact h r
  · exact ⟨rfl, rfl, rfl, fun hr => hr, rfl, rfl⟩

theorem Origin.weakens (o : Origin) (rows : List Subscription) : Weakens rows (o.ended rows) := by
  unfold Origin.ended
  split_ifs
  · refine weakens_amend rows fun r => ⟨rfl, rfl, rfl, fun hr => ?_, rfl, rfl⟩
    cases hr
  · exact .refl rows

section
variable [Texts] {principal : String} {clockOk : ℚ → ℚ → Prop} {s s' : State}

/-- A row takes over from a predecessor. -/
structure TakesOver (principal : String) (s s' : State) (o : Origin) (row : Subscription) : Prop where
  named : row.id = subscriptionId principal row.topics row.url
  topics : row.topics = bothTopics
  predecessor : o.predecessor.topics = [.haNotification]
  started : row.started = o.predecessor.started
  expires : row.expires ≤ o.predecessor.expires
  unchanged : ∃ attempt, s.db.unchanged principal s.time o attempt
  new : ∀ r ∈ s.db.subscriptions, r.id ≠ row.id
  fresh : ∀ l ∈ s.db.lineage, l.successor ≠ row.id
  record : s'.record.migrations = s.record.migrations ++ [(o.predecessor, row)]
  lineage : s'.db.lineage = s.db.lineage ++ [⟨row.id, o.predecessor.id⟩]
  rows : s'.db.subscriptions = o.ended s.db.subscriptions ++ [row]

/-- What a change does to the subscriptions. -/
theorem Change.rows (hc : Change principal clockOk s s') : s'.time = s.time ∧
    ((Weakens s.db.subscriptions s'.db.subscriptions ∧
        s'.record.migrations = s.record.migrations ∧ s'.db.lineage = s.db.lineage) ∨
      (∃ row, Stored principal clockOk s row ∧ s'.record.migrations = s.record.migrations ∧
        s'.db.lineage = s.db.lineage ∧
        s'.db.subscriptions = put Subscription.id row s.db.subscriptions) ∨
      ∃ o row, TakesOver principal s s' o row) := by
  cases hc with
  | expire t =>
    refine ⟨rfl, Or.inl ⟨weakens_map _ fun r => ?_, rfl, rfl⟩⟩
    split_ifs
    · exact ⟨rfl, rfl, rfl, fun hr => hr.elim, rfl, rfl⟩
    · exact ⟨rfl, rfl, rfl, fun hr => hr, rfl, rfl⟩
  | retire t hdb =>
    obtain ⟨-, -, rfl⟩ := Db.retire_eq hdb
    exact ⟨rfl, Or.inl ⟨.refl _, rfl, rfl⟩⟩
  | @store row hstored => exact ⟨rfl, Or.inr (Or.inl ⟨row, hstored, rfl, rfl, rfl⟩)⟩
  | @migrate o attempt row db hnamed htopics hpred hstarted hexpires hdb =>
    obtain ⟨hunchanged, hnew, hfresh, rfl⟩ := Db.migrate_eq hdb
    exact ⟨rfl, Or.inr (Or.inr ⟨o, row, hnamed, htopics, hpred, hstarted, hexpires,
      ⟨attempt, hunchanged⟩, hnew, fun l hl => (hfresh l hl).1, rfl, rfl, rfl⟩)⟩
  | unsubscribe id _ _ hdb =>
    obtain ⟨_, rfl⟩ := Db.unsubscribe_eq hdb
    refine ⟨rfl, Or.inl ⟨weakens_amend _ fun r => ?_, rfl, rfl⟩⟩
    unfold Subscription.ended
    split_ifs
    · exact ⟨rfl, rfl, rfl, fun hr => hr.elim, rfl, rfl⟩
    · exact ⟨rfl, rfl, rfl, fun hr => hr, rfl, rfl⟩
  | intend hi =>
    obtain ⟨_, _, _, -, -, -, hdb⟩ := hi
    obtain ⟨-, -, -, rfl⟩ := Db.intend_eq hdb
    exact ⟨rfl, Or.inl ⟨.refl _, rfl, rfl⟩⟩
  | deactivate id =>
    refine ⟨rfl, Or.inl ⟨weakens_amend _ fun r => ⟨rfl, rfl, rfl, fun hr => ?_, rfl, rfl⟩, rfl, rfl⟩⟩
    cases hr
  | _ => exact ⟨rfl, Or.inl ⟨.refl _, rfl, rfl⟩⟩

end

/-! ## The invariant of subscriptions -/

/-- At most one subscription is live, and migrations pass on starts. -/
structure State.Leased (s : State) : Prop where
  ids : (s.db.subscriptions.map Subscription.id).Nodup
  single : ∀ a ∈ s.db.subscriptions, ∀ b ∈ s.db.subscriptions,
    a.live s.time = true → b.live s.time = true → a.id = b.id
  kept : ∀ m ∈ s.record.migrations, m.1.id ∈ s.db.subscriptions.map Subscription.id ∧
    m.2.id ∈ s.db.subscriptions.map Subscription.id
  taken : ∀ m ∈ s.record.migrations, m.2.started = m.1.started ∧ m.2.expires ≤ m.1.expires
  inherited : ∀ m ∈ s.record.migrations, ∀ a ∈ s.db.subscriptions, a.id = m.2.id →
    m.1.started ≤ a.started
  chained : ∀ m ∈ s.record.migrations, ∀ m' ∈ s.record.migrations, m'.2.id = m.1.id →
    m'.1.started ≤ m.1.started

theorem State.Leased.weaken {s s' : State} (h : s.Leased)
    (hrows : Weakens s.db.subscriptions s'.db.subscriptions) (htime : s'.time = s.time)
    (hrecord : s'.record.migrations = s.record.migrations) : s'.Leased := by
  constructor
  · rw [hrows.ids]; exact h.ids
  · intro a ha b hb hla hlb
    obtain ⟨a', ha', hida, -, hea, haa, -⟩ := hrows.row a ha
    obtain ⟨b', hb', hidb, -, heb, hab, -⟩ := hrows.row b hb
    rw [Subscription.live_iff, htime] at hla hlb
    rw [hida, hidb]
    exact h.single a' ha' b' hb' (Subscription.live_iff.2 ⟨haa hla.1, hea ▸ hla.2⟩)
      (Subscription.live_iff.2 ⟨hab hlb.1, heb ▸ hlb.2⟩)
  · rw [hrecord, hrows.ids]; exact h.kept
  · rw [hrecord]; exact h.taken
  · rw [hrecord]
    intro m hm a ha hid
    obtain ⟨a', ha', hida, hsa, -, -⟩ := hrows.row a ha
    rw [hsa]
    exact h.inherited m hm a' ha' (hida.symm.trans hid)
  · rw [hrecord]; exact h.chained

theorem mem_othersLive {db : Db} {t : ℚ} {id : String} {r : Subscription} :
    r ∈ db.othersLive t id ↔ r ∈ db.subscriptions ∧ r.live t = true ∧ r.id ≠ id := by
  simp [Db.othersLive]

section
variable [Texts] {principal : String} {s s' : State}

theorem State.Leased.store {row : Subscription} (h : s.Leased) (hstored : Stored principal (· ≤ ·) s row)
    (htime : s'.time = s.time) (hrecord : s'.record.migrations = s.record.migrations)
    (hrows : s'.db.subscriptions = put Subscription.id row s.db.subscriptions) : s'.Leased := by
  obtain ⟨p, topics, t, verified, hrow, -, ht, hdated, hothers⟩ := hstored
  -- no other row is live, then or now
  have hlive : ∀ a ∈ s'.db.subscriptions, a.live s'.time = true → a.id = row.id := by
    intro a ha hla
    rw [hrows] at ha
    rw [htime] at hla
    by_contra hid
    have hmem : a ∈ s.db.othersLive t row.id := by
      rcases List.mem_cons.1 ha with rfl | ha
      · exact absurd rfl hid
      · exact mem_othersLive.2 ⟨List.mem_of_mem_filter ha, Subscription.live_mono hla ht, hid⟩
    rw [hothers] at hmem
    cases hmem
  have hids : ∀ id ∈ s.db.subscriptions.map Subscription.id,
      id ∈ s'.db.subscriptions.map Subscription.id := by
    intro id hid
    rw [hrows]
    exact mem_keys_put hid
  constructor
  · rw [hrows]; exact nodup_keys_put h.ids
  · exact fun a ha b hb hla hlb => (hlive a ha hla).trans (hlive b hb hlb).symm
  · rw [hrecord]; exact fun m hm => ⟨hids _ (h.kept m hm).1, hids _ (h.kept m hm).2⟩
  · rw [hrecord]; exact h.taken
  · rw [hrecord, hrows]
    intro m hm a ha hid
    rcases List.mem_cons.1 ha with rfl | ha
    · -- a renewal goes on from the old row, or starts now
      rcases started_cases p a.id topics (s.db.subscription? a.id) t verified with hs | ⟨r, hr, hs⟩
      · rw [hrow, hs]; exact hdated.2 m hm
      · obtain ⟨hr, hrid⟩ := lookup_eq_some hr
        rw [hrow, hs]
        exact h.inherited m hm r hr (hrid.trans hid)
    · exact h.inherited m hm a (List.mem_of_mem_filter ha) hid
  · rw [hrecord]; exact h.chained

omit [Texts] in
/-- After its predecessor was ended no row is live. -/
theorem State.Leased.ended {o : Origin} {attempt : Option Attempt} (h : s.Leased)
    (hunchanged : s.db.unchanged principal s.time o attempt) :
    ∀ a ∈ o.ended s.db.subscriptions, a.live s.time = false := by
  obtain ⟨⟨current, hcurrent, hactive, -, -, -, -, -, hexpires⟩, -, -, hcount⟩ := hunchanged
  obtain ⟨hmem, hid⟩ := lookup_eq_some hcurrent
  intro a ha
  unfold Origin.ended at ha
  cases hpred : o.predecessor.active with
  | true =>
    rw [hpred, if_pos rfl] at ha
    rcases mem_amend.1 ha with ⟨ha, hne⟩ | ⟨r, -, -, rfl⟩
    · by_contra hla
      rw [Bool.not_eq_false] at hla
      have hlc : current.live s.time = true := Subscription.live_iff.2 ⟨hactive.trans hpred, hexpires⟩
      exact hne ((h.single a ha current hmem hla hlc).trans hid)
    · rfl
  | false =>
    rw [hpred, if_neg Bool.false_ne_true] at ha
    rw [hpred, if_neg Bool.false_ne_true, List.length_eq_zero_iff, List.filter_eq_nil_iff] at hcount
    exact Bool.eq_false_iff.2 (hcount a ha)

theorem State.Leased.migrate {o : Origin} {row : Subscription} (h : s.Leased)
    (htime : s'.time = s.time) (htakes : TakesOver principal s s' o row) : s'.Leased := by
  have hrows := htakes.rows
  have hrecord := htakes.record
  have hnew := htakes.new
  obtain ⟨attempt, hunchanged⟩ := htakes.unchanged
  have hlive : ∀ a ∈ s'.db.subscriptions, a.live s'.time = true → a.id = row.id := by
    intro a ha hla
    rw [hrows] at ha
    rw [htime] at hla
    rcases mem_concat.1 ha with ha | rfl
    · rw [h.ended hunchanged a ha] at hla
      cases hla
    · rfl
  obtain ⟨⟨current, hcurrent, -, -, -, -, hsame, -, -⟩, -⟩ := hunchanged
  obtain ⟨hmem, hid⟩ := lookup_eq_some hcurrent
  have hweak := o.weakens s.db.subscriptions
  have hids : s'.db.subscriptions.map Subscription.id =
      s.db.subscriptions.map Subscription.id ++ [row.id] := by
    rw [hrows, List.map_append, hweak.ids]
    rfl
  have hpred : o.predecessor.id ∈ s.db.subscriptions.map Subscription.id :=
    hid ▸ List.mem_map_of_mem hmem
  have hfresh : row.id ∉ s.db.subscriptions.map Subscription.id := by
    intro hin
    obtain ⟨r, hr, hrid⟩ := List.mem_map.1 hin
    exact hnew r hr hrid
  constructor
  · rw [hids]
    exact List.nodup_append.2 ⟨h.ids, List.nodup_singleton _,
      fun x hx y hy hxy => hfresh (List.mem_singleton.1 hy ▸ hxy ▸ hx)⟩
  · exact fun a ha b hb hla hlb => (hlive a ha hla).trans (hlive b hb hlb).symm
  · rw [hrecord, hids]
    intro m hm
    rcases mem_concat.1 hm with hm | rfl
    · exact ⟨List.mem_append_left _ (h.kept m hm).1, List.mem_append_left _ (h.kept m hm).2⟩
    · exact ⟨List.mem_append_left _ hpred, mem_concat.2 (Or.inr rfl)⟩
  · rw [hrecord]
    intro m hm
    rcases mem_concat.1 hm with hm | rfl
    · exact h.taken m hm
    · exact ⟨htakes.started, htakes.expires⟩
  · rw [hrecord, hrows]
    intro m hm a ha haid
    rcases mem_concat.1 ha with hold | rfl
    · obtain ⟨a', ha', hida, hsa, -, -⟩ := hweak.row a hold
      rcases mem_concat.1 hm with hm | rfl
      · rw [hsa]
        exact h.inherited m hm a' ha' (hida.symm.trans haid)
      · exact absurd (hida.symm.trans haid) (hnew a' ha')
    · rcases mem_concat.1 hm with hm | rfl
      · exact absurd (haid ▸ (h.kept m hm).2) hfresh
      · exact htakes.started.ge
  · rw [hrecord]
    intro m hm m' hm' hlink
    rcases mem_concat.1 hm with hm | rfl
    · rcases mem_concat.1 hm' with hm' | rfl
      · exact h.chained m hm m' hm' hlink
      · exact absurd (hlink ▸ (h.kept m hm).1) hfresh
    · rcases mem_concat.1 hm' with hm' | rfl
      · rw [← hsame]
        exact h.inherited m' hm' current hmem (hid.trans hlink.symm)
      · exact absurd (hlink ▸ hpred) hfresh

theorem Change.leased (h : s.Leased) (hc : Change principal (· ≤ ·) s s') : s'.Leased := by
  obtain ⟨htime, ⟨hrows, hrecord, -⟩ | ⟨row, hstored, hrecord, -, hrows⟩ | ⟨o, row, htakes⟩⟩ := hc.rows
  · exact h.weaken hrows htime hrecord
  · exact h.store hstored htime hrecord hrows
  · exact h.migrate htime htakes

/-! ## The invariant of grants -/

/-- Every grant was taken at most once. -/
structure State.Granted (s : State) : Prop where
  once : s.record.attempts.Nodup
  armed : ∀ g ∈ s.record.attempts, g ∈ s.record.armed
  pending : ∀ g, s.db.handover = some (.armed g) → g ∈ s.record.armed ∧ g ∉ s.record.attempts

theorem Change.granted {clockOk : ℚ → ℚ → Prop} (h : s.Granted) (hc : Change principal clockOk s s') :
    s'.Granted := by
  cases hc with
  | retire t hdb =>
    obtain ⟨-, -, rfl⟩ := Db.retire_eq hdb
    exact ⟨h.once, h.armed, h.pending⟩
  | take a harmed =>
    obtain ⟨hin, hnot⟩ := h.pending a.grant harmed
    refine ⟨?_, fun g hg => ?_, fun g hg => by cases hg⟩
    · exact List.nodup_append.2 ⟨h.once, List.nodup_singleton _,
        fun x hx y hy hxy => hnot (List.mem_singleton.1 hy ▸ hxy ▸ hx)⟩
    · rcases mem_concat.1 hg with hg | rfl
      · exact h.armed g hg
      · exact hin
  | unconfirmed a _ => exact ⟨h.once, h.armed, fun g hg => by cases hg⟩
  | @migrate o attempt row db _ _ _ _ _ hdb =>
    obtain ⟨-, -, -, rfl⟩ := Db.migrate_eq hdb
    refine ⟨h.once, h.armed, fun g hg => ?_⟩
    cases attempt with
    | none => exact h.pending g hg
    | some a => cases hg
  | unsubscribe _ _ _ hdb =>
    obtain ⟨_, rfl⟩ := Db.unsubscribe_eq hdb
    exact ⟨h.once, h.armed, h.pending⟩
  | intend hi =>
    obtain ⟨_, _, _, -, -, -, hdb⟩ := hi
    obtain ⟨-, -, -, rfl⟩ := Db.intend_eq hdb
    exact ⟨h.once, h.armed, h.pending⟩
  | _ => exact ⟨h.once, h.armed, h.pending⟩

omit [Texts] in
theorem Surrounding.granted {clockOk : ℚ → ℚ → Prop} (h : s.Granted) (hs : Surrounding clockOk s s') :
    s'.Granted := by
  cases hs with
  | clock _ => exact ⟨h.once, h.armed, h.pending⟩
  | restart => exact ⟨h.once, h.armed, h.pending⟩
  | @arm g hnew =>
    refine ⟨h.once, fun g' hg' => List.mem_append_left _ (h.armed g' hg'), ?_⟩
    rintro g' ⟨⟩
    exact ⟨mem_concat.2 (Or.inr rfl), fun hmem => hnew (h.armed g hmem)⟩

omit [Texts] in
theorem Surrounding.leased (h : s.Leased) (hs : Surrounding (· ≤ ·) s s') : s'.Leased := by
  cases hs with
  | clock ht =>
    refine ⟨h.ids, fun a ha b hb hla hlb => ?_, h.kept, h.taken, h.inherited, h.chained⟩
    exact h.single a ha b hb (Subscription.live_mono hla ht) (Subscription.live_mono hlb ht)
  | restart => exact ⟨h.ids, h.single, h.kept, h.taken, h.inherited, h.chained⟩
  | arm _ => exact ⟨h.ids, h.single, h.kept, h.taken, h.inherited, h.chained⟩

/-! ## Lineage -/

/-- The id was taken over from `p`, directly or through others. -/
inductive Heir (migrations : List (Subscription × Subscription)) (p : Subscription) : String → Prop
  | direct {r : Subscription} : (p, r) ∈ migrations → Heir migrations p r.id
  | later {m : Subscription × Subscription} : Heir migrations p m.1.id → m ∈ migrations →
      Heir migrations p m.2.id

omit [Texts] in
theorem Heir.started {p : Subscription} {id : String} (h : s.Leased)
    (hheir : Heir s.record.migrations p id) :
    (∀ m ∈ s.record.migrations, m.1.id = id → p.started ≤ m.1.started) ∧
      ∀ a ∈ s.db.subscriptions, a.id = id → p.started ≤ a.started := by
  induction hheir with
  | @direct r hr =>
    exact ⟨fun m hm hid => h.chained m hm (p, r) hr hid.symm, fun a ha hid => h.inherited (p, r) hr a ha hid⟩
  | @later m₀ _ hm₀ ih =>
    have hfirst := ih.1 m₀ hm₀ rfl
    exact ⟨fun m hm hid => hfirst.trans (h.chained m hm m₀ hm₀ hid.symm),
      fun a ha hid => hfirst.trans (h.inherited m₀ hm₀ a ha hid)⟩

omit [Texts] in
/-- A subscription is eligible for no event from before its start. -/
theorem Db.eligible.started_le {db : Db} {t : ℚ} {r : Subscription} {topics : List Topic} {e : Event}
    (h : db.eligible t r topics e) : r.started ≤ e.created := (le_max_right _ _).trans h.1

/-- The row of a subscription whose expiry grows was stored by a renewal. -/
theorem Change.renewed (h : s.Leased) (hc : Change principal (· ≤ ·) s s') {a a' : Subscription}
    (ha : a ∈ s.db.subscriptions) (ha' : a' ∈ s'.db.subscriptions) (hid : a'.id = a.id)
    (hgrown : a.expires < a'.expires) : Stored principal (· ≤ ·) s a' := by
  obtain ⟨-, ⟨hrows, -⟩ | ⟨row, hstored, -, -, hrows⟩ | ⟨o, row, htakes⟩⟩ := hc.rows
  · obtain ⟨r, hr, hrid, -, he, -⟩ := hrows.row a' ha'
    rw [eq_of_key_eq h.ids ha hr (hid.symm.trans hrid), he] at hgrown
    exact absurd hgrown (lt_irrefl _)
  · rw [hrows] at ha'
    rcases List.mem_cons.1 ha' with rfl | ha'
    · exact hstored
    · rw [eq_of_key_eq h.ids ha (List.mem_of_mem_filter ha') hid.symm] at hgrown
      exact absurd hgrown (lt_irrefl _)
  · rw [htakes.rows] at ha'
    rcases mem_concat.1 ha' with ha' | rfl
    · obtain ⟨r, hr, hrid, -, he, -⟩ := (o.weakens s.db.subscriptions).row a' ha'
      rw [eq_of_key_eq h.ids ha hr (hid.symm.trans hrid), he] at hgrown
      exact absurd hgrown (lt_irrefl _)
    · exact absurd hid.symm (htakes.new a ha)

/-! ## Runs -/

variable {w w' : Desk State Reply Unit}

omit [Texts] in
theorem leased_fresh (h : s.Fresh) : s.Leased ∧ s.Granted := by
  obtain ⟨hdb, hrecord⟩ := h
  refine ⟨⟨?_, ?_, ?_, ?_, ?_, ?_⟩, ⟨?_, ?_, ?_⟩⟩ <;> simp [hdb, hrecord, Db.empty]

theorem leased_reachable (hw : (registryMachine principal (· ≤ ·)).Reachable w) :
    w.state.Leased ∧ w.state.Granted :=
  registry_invariant (fun _ => leased_fresh) (fun _ _ h hc => ⟨hc.leased h.1, hc.granted h.2⟩)
    (fun _ _ h hs => ⟨hs.leased h.1, hs.granted h.2⟩) hw

end

/-! ## A run -/

/-- An operation does not move the clock. -/
theorem sampleRun_time {clockOk : ℚ → ℚ → Prop} [IsTrans ℚ clockOk] [Std.Refl clockOk]
    {w : Desk State Reply Unit} (op : Operation)
    (hw : (@registryMachine sampleTexts samplePrincipal clockOk).Reachable w) :
    (sampleRun op w).state.time = w.state.time := by
  have hstart := sampleRun_started op hw
  rw [sampleRun]
  generalize 30 = n
  induction n with
  | zero => rfl
  | succ n ih =>
    have hn := reachable_advance_iterate sampleAnswer n (fun _ _ => trivial) hstart
    rw [Function.iterate_succ_apply']
    rcases (Desk.own_advance sampleAnswer trivial : _ ∨ Desk.Own (setting clockOk) _ _ _) with hs | hs
    · rw [hs]
      exact ih
    · have hchange := @registry_own sampleTexts _ _ _ _ _ _ hn hs
      exact (@Change.rows sampleTexts _ _ _ _ hchange).1.trans ih

def sampleParams (topics : List Topic) (ttlMs : ℕ) : SubscribeParams where
  name := observationName
  project := project
  topics := topics
  mode := "webhook"
  url := sampleUrl
  secret := "whsec_AAAAAAAAAAAAAAAAAAAAAAAAAAAAAAAAAAAAAAAAAAAA"
  cursor := none
  ttlMs := some ttlMs

/-- A subscription to notifications for ten seconds. -/
def sampleSubscribed : Desk State Reply Unit :=
  sampleRun (.subscribe true (sampleParams [.haNotification] 10000)) sampleStart

/-- A subscription to both topics took over. -/
def sampleMigrated : Desk State Reply Unit :=
  sampleRun (.subscribe true (sampleParams bothTopics 86400000)) sampleSubscribed

/-- The successor was renewed. -/
def sampleRenewed : Desk State Reply Unit :=
  sampleRun (.subscribe true (sampleParams bothTopics 86400000)) sampleMigrated

theorem sampleMigrated_reachable :
    (@registryMachine sampleTexts samplePrincipal (· ≤ ·)).Reachable sampleMigrated :=
  sampleRun_reachable _ (sampleRun_reachable _ (sampleStart_reachable _))

theorem sampleMigrated_time : sampleMigrated.state.time = 1000 := by
  have hstart : (@registryMachine sampleTexts samplePrincipal (· ≤ ·)).Reachable sampleStart :=
    sampleStart_reachable _
  rw [sampleMigrated, sampleSubscribed, sampleRun_time _ (sampleRun_reachable _ hstart),
    sampleRun_time _ hstart, sampleStart]

theorem sampleRenewed_run : sampleMigrated.state.db.lineage = [⟨sampleSecond, sampleFirst⟩] ∧
    ∃ m ∈ sampleRenewed.state.record.migrations, ∃ r ∈ sampleRenewed.state.db.subscriptions, r.id = m.2.id ∧
      m.1.expires < 2000 ∧ r.live 2000 = true := by
  decide +kernel

end SmartHome.NativeEvents
