/-
  Every operation of the registry proceeds by the changes of `Change`.
-/
import SmartHome.NativeEvents.Changes

namespace SmartHome.NativeEvents

open Verif Program

section
variable [Texts] {principal : String} {clockOk : ℚ → ℚ → Prop} {s s' : State}

/-! ## Posted batches -/

/-- Every batch that was posted is stored. -/
def State.Posted (s : State) : Prop := ∀ p ∈ s.record.posts, ∃ b ∈ s.db.batches, b.id = p.1

theorem Change.posted (h : s.Posted) (hc : Change principal clockOk s s') : s'.Posted := by
  cases hc with
  | retire t hdb => obtain ⟨-, -, rfl⟩ := Db.retire_eq hdb; exact h
  | migrate _ _ _ _ _ hdb => obtain ⟨-, -, -, rfl⟩ := Db.migrate_eq hdb; exact h
  | unsubscribe _ _ _ hdb => obtain ⟨_, rfl⟩ := Db.unsubscribe_eq hdb; exact h
  | intend hi =>
    obtain ⟨_, _, _, -, -, -, hdb⟩ := hi
    obtain ⟨-, -, -, rfl⟩ := Db.intend_eq hdb
    intro p hp
    obtain ⟨b, hb, hid⟩ := h p hp
    exact ⟨b, List.mem_append_left _ hb, hid⟩
  | @post sub plan before db t hdb htables _ =>
    obtain ⟨-, -, -, rfl⟩ := Db.intend_eq hdb
    intro p hp
    rcases mem_concat.1 hp with hp | rfl
    · exact h p hp
    · refine ⟨⟨plan.identity, sub.id, plan.body, t⟩, ?_, rfl⟩
      rw [Db.tables_batches htables]
      exact mem_concat.2 (Or.inr rfl)
  | _ => exact h

/-! ## Starts -/

omit [Texts] in
theorem State.Dated.amend {t : ℚ} {id : String} (change : Subscription → Subscription)
    (h : s.Dated clockOk t) (hchange : ∀ r, (change r).started = r.started)
    (hrows : s'.db.subscriptions = amend Subscription.id id change s.db.subscriptions)
    (hrecord : s'.record.migrations = s.record.migrations) : s'.Dated clockOk t := by
  refine ⟨fun r hr => ?_, by rw [hrecord]; exact h.2⟩
  rw [hrows] at hr
  rcases mem_amend.1 hr with ⟨hr, -⟩ | ⟨r', hr', -, rfl⟩
  · exact h.1 r hr
  · rw [hchange]
    exact h.1 r' hr'

omit [Texts] in
theorem State.Dated.expire {t : ℚ} (h : s.Dated clockOk t) (t' : ℚ) :
    State.Dated clockOk { s with db := s.db.expire t' } t := by
  refine ⟨fun r hr => ?_, h.2⟩
  obtain ⟨r', hr', rfl⟩ := List.mem_map.1 hr
  split_ifs
  · exact h.1 r' hr'
  · exact h.1 r' hr'

omit [Texts] in
theorem started_cases (p : SubscribeParams) (id : String) (topics : List Topic)
    (old : Option Subscription) (t verified : ℚ) :
    (subscriptionRow principal p id topics old t verified).started = t ∨
      ∃ r ∈ old, (subscriptionRow principal p id topics old t verified).started = r.started := by
  cases hold : old.filter Subscription.active with
  | none =>
    left
    simp [subscriptionRow, hold]
  | some r =>
    right
    refine ⟨r, (Option.filter_eq_some_iff.1 hold).1, ?_⟩
    simp [subscriptionRow, hold]

theorem Change.dated (h : s.Dated clockOk s.time) (hc : Change principal clockOk s s') :
    s'.Dated clockOk s'.time := by
  cases hc with
  | expire t => exact h.expire t
  | retire t hdb => obtain ⟨-, -, rfl⟩ := Db.retire_eq hdb; exact h
  | @store row hstored =>
    obtain ⟨p, topics, t, verified, hrow, -, ht, hdated, -⟩ := hstored
    refine ⟨fun r hr => ?_, h.2⟩
    rcases List.mem_cons.1 hr with rfl | hr
    · rcases started_cases p r.id topics (s.db.subscription? r.id) t verified with hs | ⟨r', hr', hs⟩
      · rw [hrow, hs]; exact ht
      · rw [hrow, hs]; exact h.1 r' (lookup_eq_some hr').1
    · exact h.1 r (List.mem_of_mem_filter hr)
  | @migrate o attempt row db _ _ _ hstarted _ hdb =>
    obtain ⟨⟨⟨current, hcurrent, -, -, -, -, hsame, -, -⟩, -⟩, -, -, rfl⟩ := Db.migrate_eq hdb
    have hstart : clockOk o.predecessor.started s.time :=
      hsame ▸ h.1 current (lookup_eq_some hcurrent).1
    refine ⟨fun r hr => ?_, fun m hm => ?_⟩
    · rcases mem_concat.1 hr with hr | rfl
      · unfold Origin.ended at hr
        split_ifs at hr
        · rcases mem_amend.1 hr with ⟨hr, -⟩ | ⟨r', hr', -, rfl⟩
          · exact h.1 r hr
          · exact h.1 r' hr'
        · exact h.1 r hr
      · rw [hstarted]; exact hstart
    · rcases mem_concat.1 hm with hm | rfl
      · exact h.2 m hm
      · exact hstart
  | unsubscribe id _ _ hdb =>
    obtain ⟨_, rfl⟩ := Db.unsubscribe_eq hdb
    refine h.amend (Subscription.ended principal) (fun r => ?_) rfl rfl
    unfold Subscription.ended
    split_ifs <;> rfl
  | intend hi =>
    obtain ⟨_, _, _, -, -, -, hdb⟩ := hi
    obtain ⟨-, -, -, rfl⟩ := Db.intend_eq hdb
    exact h
  | deactivate id => exact h.amend (fun r => { r with active := false }) (fun r => rfl) rfl rfl
  | _ => exact h

/-- The invariant of the operations. -/
structure State.Consistent (clockOk : ℚ → ℚ → Prop) (s : State) : Prop where
  posted : s.Posted
  dated : s.Dated clockOk s.time

theorem Change.consistent (h : s.Consistent clockOk) (hc : Change principal clockOk s s') :
    s'.Consistent clockOk := ⟨hc.posted h.posted, hc.dated h.dated⟩

/-! ## Rules -/

variable (principal clockOk) in
/-- The rules under which the operations run. -/
def rules : Rules State Request Unit where
  inv := State.Consistent clockOk
  rel := Change principal clockOk
  refl s := .quiet s.db.clock s.high s.evidence
  others := Surrounding clockOk
  possible _ := True
  issued _ := []
  cost _ := none

variable {A : (rules principal clockOk).Known} {α β : Type} {ok : Prog β → State → Prop}
  {post : β → (rules principal clockOk).Known → List Unit → Prop}

/-- The operation proceeds by changes, from wherever `A` holds. -/
abbrev Proceeds (p : Prog β) (A : (rules principal clockOk).Known) : Prop :=
  Guar (rules principal clockOk) (fun _ _ => True) (fun _ _ _ => True) p A []

theorem proceeds_pure {b : β} : Proceeds (pure b) A := trivial

theorem proceeds_fail {e : String} : Proceeds (.fail e : Prog β) A := trivial

/-- A transaction, after which `A'` is known. -/
theorem proceeds_commit {f : State → Except String (State × α)} {k : α → Prog β}
    (h : ∀ s s' b, s.Consistent clockOk → A.holds s → f s = .ok (s', b) → Change principal clockOk s s' ∧
      ∃ A' : (rules principal clockOk).Known, A'.holds s' ∧ Proceeds (k b) A') :
    Proceeds (commit f >>= k) A := by
  refine guar_earn fun s s' b hs hA _ hf => ?_
  obtain ⟨hc, A', hA', hk⟩ := h s s' b hs hA hf
  exact ⟨hc.consistent hs, hc, A', [], hA', fun t => Nat.le_refl _, hk⟩

/-- A statement, after which nothing special is known. -/
theorem proceeds_execute {f : State → Except String Db} {k : Unit → Prog β}
    (h : ∀ s db, A.holds s → f s = .ok db → Change principal clockOk s { s with db })
    (hk : Proceeds (k ()) (.trivial (rules principal clockOk))) : Proceeds (execute f >>= k) A := by
  refine proceeds_commit fun s s' b _ hA hf => ?_
  simp only [bind_ok, pure_ok] at hf
  obtain ⟨db, hdb, heq⟩ := hf
  obtain ⟨rfl, rfl⟩ := Prod.mk.inj heq
  exact ⟨h s db hA hdb, _, trivial, hk⟩

theorem proceeds_last {p : Prog Unit} (h : Proceeds (p >>= pure) A) : Proceeds p A := by
  rwa [bind_pure] at h

/-! ## What an operation knows -/

/-- Two facts. -/
def both (A B : (rules principal clockOk).Known) : (rules principal clockOk).Known where
  holds s := A.holds s ∧ B.holds s
  stable s s' hs h := ⟨A.stable s s' hs h.1, B.stable s s' hs h.2⟩

/-- A fact that the clock in `meta` and the memory of the worker do not matter for. -/
def Settled (A : (rules principal clockOk).Known) : Prop :=
  ∀ (s : State) c high, A.holds s → A.holds { s with db := { s.db with clock := c }, high }

variable [IsTrans ℚ clockOk] [Std.Refl clockOk]

/-- The clock was read at `t`, after every start. -/
def passed (t : ℚ) : (rules principal clockOk).Known where
  holds s := clockOk t s.time ∧ s.Dated clockOk t
  stable s s' hs h := by
    cases hs with
    | clock ht => exact ⟨IsTrans.trans _ _ _ h.1 ht, h.2.1, h.2.2⟩
    | restart => exact h
    | arm _ => exact ⟨h.1, h.2.1, h.2.2⟩

/-- The tables and the posts are those that were read. -/
def sees (d : Db) (posts : List (String × Db)) : (rules principal clockOk).Known where
  holds s := s.db.tables = d.tables ∧ s.record.posts = posts
  stable s s' hs h := by
    cases hs with
    | clock _ => exact h
    | restart => exact h
    | arm _ => exact h

omit [IsTrans ℚ clockOk] [Std.Refl clockOk] in
theorem settled_sees (d : Db) (posts : List (String × Db)) :
    Settled (sees d posts : (rules principal clockOk).Known) := fun _ _ _ h => h

/-- Checking the clock. -/
theorem proceeds_observeClock {k : ℚ → Prog β} (hA : Settled A)
    (h : ∀ t, Proceeds (k t) (both A (passed t))) : Proceeds (observeClock >>= k) A := by
  unfold observeClock
  refine proceeds_commit fun s s' t hcons hs hf => ?_
  simp only [bind_ok, need_eq_ok, exists_unit, pure_ok, Prod.mk.injEq] at hf
  obtain ⟨-, rfl, rfl⟩ := hf
  refine ⟨.quiet s.db.clock _ s.evidence, both A (passed s.time), ?_, h s.time⟩
  exact ⟨hA s s.db.clock _ hs, Std.Refl.refl s.time, hcons.dated⟩

/-- Reading the clock. -/
theorem proceeds_now {k : ℚ → Prog β} (hA : Settled A)
    (h : ∀ t, Proceeds (k t) (both A (passed t))) : Proceeds (now >>= k) A := by
  simp only [now, bind_assoc, pure_bind]
  refine proceeds_observeClock hA fun t => ?_
  unfold execute
  refine proceeds_commit fun s s' b _ hs hf => ?_
  simp only [bind_ok, pure_ok, Except.ok.injEq] at hf
  obtain ⟨db, rfl, heq⟩ := hf
  obtain ⟨rfl, rfl⟩ := Prod.mk.inj heq
  obtain ⟨c, hc⟩ := Db.noteClock_eq s.db t
  rw [hc]
  exact ⟨.quiet c s.high s.evidence, both A (passed t), ⟨hA s c s.high hs.1, hs.2⟩, h t⟩

omit [IsTrans ℚ clockOk] [Std.Refl clockOk] in
/-- Reading the database. -/
theorem proceeds_get {k : State → Prog β}
    (h : ∀ s, s.Consistent clockOk → A.holds s → Proceeds (k s) (both A (sees s.db s.record.posts))) :
    Proceeds (get >>= k) A := by
  intro s hs hA _ _
  exact ⟨hs, .quiet s.db.clock s.high s.evidence, both A (sees s.db s.record.posts), [],
    ⟨hA, rfl, rfl⟩, fun t => Nat.le_refl _, h s hs hA⟩

omit [IsTrans ℚ clockOk] [Std.Refl clockOk] in
theorem proceeds_clock {k : ℚ → Prog β} (h : ∀ t, Proceeds (k t) A) : Proceeds (clock >>= k) A := by
  simp only [clock, bind_assoc, pure_bind]
  exact guar_get fun s => h s.time

/-! ## Operations -/

omit [IsTrans ℚ clockOk] [Std.Refl clockOk] in
theorem settled_trivial : Settled (.trivial (rules principal clockOk)) := fun _ _ _ h => h

theorem proceeds_enqueue (e : Enqueue) :
    Proceeds (enqueue e) (.trivial (rules principal clockOk)) := by
  unfold enqueue
  refine guar_require fun _ => guar_require fun _ => proceeds_clock fun t => guar_require fun _ => ?_
  refine proceeds_get fun s _ _ => ?_
  cases hdata : s.db.data? (eventId e.data) with
  | some existing => exact guar_require fun _ => proceeds_pure
  | none =>
    refine guar_require fun hroom => proceeds_now (fun _ _ _ h => h) fun _ => ?_
    refine proceeds_commit fun s₁ s' b _ hsees hf => ?_
    obtain ⟨htables, -⟩ := hsees.1.2
    simp only [Db.insertEvent, bind_ok, need_eq_ok, exists_unit, pure_ok, Prod.mk.injEq] at hf
    obtain ⟨db, ⟨-, rfl⟩, rfl, -⟩ := hf
    refine ⟨.accept _ ?_ ?_, .trivial _, trivial, proceeds_pure⟩
    · rw [Db.tables_data htables]
      exact hdata
    · rw [Db.tables_events htables]
      exact hroom

theorem proceeds_prune : Proceeds prune (.trivial (rules principal clockOk)) := by
  unfold prune
  refine proceeds_now settled_trivial fun t => ?_
  refine proceeds_commit fun s s' b _ hA hf => ?_
  simp only [bind_ok, pure_ok, Except.ok.injEq, Prod.mk.injEq] at hf
  obtain ⟨db, rfl, rfl, -⟩ := hf
  refine ⟨.expire t, both (.trivial _) (passed t), ⟨trivial, hA.2.1, hA.2.2.expire t⟩, ?_⟩
  refine proceeds_execute (fun s db hA hf => ?_) ?_
  · obtain rfl := Except.ok.inj hf
    exact .forget t hA.2.1
  · exact proceeds_last (proceeds_execute (fun s db _ hf => .retire t hf) proceeds_pure)

theorem proceeds_unsubscribe (name project' : String) (topics : List Topic) (mode url : String) :
    Proceeds (unsubscribe principal name project' topics mode url)
      (.trivial (rules principal clockOk)) := by
  unfold unsubscribe
  refine guar_lift fun i _ => proceeds_now settled_trivial fun t => proceeds_last ?_
  exact proceeds_execute (fun s db _ hf => .unsubscribe i.1 i.2 t hf) proceeds_pure

omit [IsTrans ℚ clockOk] [Std.Refl clockOk] in
theorem proceeds_observeCurrent (notifications : Current) (observedAt : ℚ) :
    Proceeds (observeCurrent notifications observedAt) (.trivial (rules principal clockOk)) := by
  unfold observeCurrent
  refine proceeds_clock fun t => guar_require fun _ => guar_require fun _ => ?_
  intro s hs _ _ _
  have hquiet : Change principal clockOk s { s with evidence := some (observedAt, notifications) } :=
    .quiet s.db.clock s.high _
  exact ⟨hquiet.consistent hs, hquiet, .trivial _, [], trivial, fun t => Nat.le_refl _, trivial⟩

omit [IsTrans ℚ clockOk] [Std.Refl clockOk] in
/-- The transaction of `dispatch_one`. -/
theorem intend_cases {t : ℚ} {allowed : Option (List Topic)} {out : Outgoing} (ht : clockOk t s.time)
    (h : s.intend principal t allowed = .ok (s', out)) :
    Change principal clockOk s s' ∧ s'.record = s.record ∧ ∀ sub plan, out = .batch sub plan →
      ∃ db : Db, db.batches = s.db.batches ∧ db.intend t sub plan = .ok s'.db := by
  obtain ⟨c, hc⟩ := Db.noteClock_eq s.db t
  simp only [State.intend, hc] at h
  split_ifs at h with hheld
  · obtain ⟨rfl, rfl⟩ := Prod.mk.inj (pure_ok.1 h)
    exact ⟨.quiet c s.high s.evidence, rfl, fun sub plan hout => by cases hout⟩
  · obtain ⟨plan, hplan, h⟩ := bind_ok.1 h
    cases plan with
    | none =>
      obtain ⟨rfl, rfl⟩ := Prod.mk.inj (pure_ok.1 h)
      exact ⟨.quiet c s.high s.evidence, rfl, fun sub plan hout => by cases hout⟩
    | some r =>
      obtain ⟨db, hdb, h⟩ := bind_ok.1 h
      obtain ⟨rfl, rfl⟩ := Prod.mk.inj (pure_ok.1 h)
      refine ⟨.intend ⟨t, allowed, c, hheld, ht, hplan, hdb⟩, rfl, ?_⟩
      rintro sub plan ⟨⟩
      exact ⟨{ s.db with clock := c }, rfl, hdb⟩

theorem proceeds_dispatchOne (approved : Bool) (allowed : Option (List Topic)) :
    Proceeds (dispatchOne principal approved allowed) (.trivial (rules principal clockOk)) := by
  unfold dispatchOne
  refine guar_require fun _ => proceeds_observeClock settled_trivial fun t => ?_
  refine proceeds_commit fun s s' out hcons hA hf => ?_
  obtain ⟨hc, hrecord, hbatch⟩ := intend_cases hA.2.1 hf
  refine ⟨hc, sees s'.db s'.record.posts, ⟨rfl, rfl⟩, ?_⟩
  cases out with
  | budgetHeld => exact proceeds_pure
  | idle => exact proceeds_pure
  | batch sub plan =>
    obtain ⟨before, hbatches, hdb⟩ := hbatch sub plan rfl
    -- the batch is new, so no post was for it
    have hnew : ∀ p ∈ s'.record.posts, p.1 ≠ plan.identity := by
      intro p hp heq
      rw [hrecord] at hp
      obtain ⟨b, hb, hid⟩ := hcons.posted p hp
      rw [← hbatches] at hb
      exact (Db.intend_eq hdb).1 b hb (hid.trans heq)
    refine guar_require fun _ => ?_
    simp only [post, bind_assoc]
    intro s₁ hs₁ hsees _ _
    obtain ⟨htables, hposts⟩ := hsees
    have hpost : Change principal clockOk s₁ { s₁ with
        record := { s₁.record with posts := s₁.record.posts ++ [(plan.identity, s₁.db)] } } :=
      .post t hdb htables (by rw [hposts]; exact hnew)
    refine ⟨hpost.consistent hs₁, hpost, .trivial _, [], trivial, fun t => Nat.le_refl _, ?_⟩
    refine guar_ask rfl fun status => ?_
    cases status with
    | none => exact proceeds_pure
    | some status =>
      refine proceeds_execute (fun s db _ hf => ?_) ?_
      · obtain rfl := Except.ok.inj hf
        exact .respond sub.id plan.identity _
      · split_ifs with hgone
        · refine proceeds_last (proceeds_execute (fun s db _ hf => ?_) proceeds_pure)
          obtain rfl := Except.ok.inj hf
          exact .deactivate sub.id
        · exact proceeds_pure

omit [IsTrans ℚ clockOk] [Std.Refl clockOk] in
/-- The verification of the callback, under a fact that an attempt does not change. -/
theorem proceeds_verifyCallback {p : SubscribeParams} {id : String} {attempt : Option Attempt}
    {k : Unit → Prog β} (hA : ∀ (s : State) handover attempts, A.holds s → A.holds { s with
      db := { s.db with handover }, record := { s.record with attempts } })
    (hk : Proceeds (k ()) A) : Proceeds (verifyCallback p id attempt >>= k) A := by
  cases attempt with
  | none =>
    simp only [verifyCallback, bind_assoc]
    refine guar_ask rfl fun verified => ?_
    cases verified with
    | true => exact hk
    | false => exact proceeds_fail
  | some a =>
    simp only [verifyCallback, bind_assoc]
    refine proceeds_commit fun s s' b _ hs hf => ?_
    simp only [bind_ok, need_eq_ok, exists_unit, pure_ok, Prod.mk.injEq] at hf
    obtain ⟨harmed, rfl, -⟩ := hf
    refine ⟨.take a harmed, A, hA s _ _ hs, guar_ask rfl fun verified => ?_⟩
    cases verified with
    | true => exact hk
    | false =>
      simp only [bind_assoc]
      refine proceeds_execute (fun s db _ hf => ?_) proceeds_fail
      obtain rfl := Except.ok.inj hf
      by_cases hintent : s.db.handover = some (.verificationIntent a)
      · rw [if_pos hintent]
        exact .unconfirmed a hintent
      · rw [if_neg hintent]
        exact .quiet s.db.clock s.high s.evidence

omit [IsTrans ℚ clockOk] [Std.Refl clockOk] in
/-- Without a predecessor no other subscription is live. -/
theorem origin_none {db : Db} {id url : String} {topics : List Topic} {t : ℚ}
    (h : origin principal db id topics url t = .ok none) : db.othersLive t id = [] := by
  unfold origin at h
  cases hlive : db.othersLive t id with
  | nil => rfl
  | cons prior rest =>
    rw [hlive] at h
    cases rest with
    | nil =>
      obtain ⟨_, -, hprior⟩ := bind_ok.1 h
      split_ifs at hprior
      · cases pure_ok.1 hprior
      · obtain ⟨_, -, hhandover⟩ := bind_ok.1 hprior
        obtain ⟨_, -, hgrant⟩ := bind_ok.1 hhandover
        cases pure_ok.1 hgrant
    | cons _ _ => cases h

omit [IsTrans ℚ clockOk] [Std.Refl clockOk] in
theorem authorizeHandover_some {db : Db} {topics : List Topic} {url : String} {t : ℚ}
    {predecessor : Option Subscription} {h : Grant × Subscription}
    (hh : authorizeHandover principal db topics url t predecessor = .ok (some h)) :
    topics = bothTopics ∧ h.2.topics = [.haNotification] ∧ ∀ r ∈ predecessor, h.2 = r := by
  unfold authorizeHandover at hh
  split at hh
  case h_6 g _ =>
    simp only [bind_ok, need_eq_ok, exists_unit, orFail_eq_ok, pure_ok, Option.some.injEq] at hh
    obtain ⟨hadmits, prior, hprior, hnames, -, -, rfl⟩ := hh
    refine ⟨hadmits.2.2.2.2.2.2.2.2.1, hnames.2.2.1, ?_⟩
    rintro r rfl
    exact (Option.some.inj hprior).symm
  all_goals cases hh

omit [IsTrans ℚ clockOk] [Std.Refl clockOk] in
/-- Only a subscription to both topics takes over, from one to notifications. -/
theorem origin_some {db : Db} {id url : String} {topics : List Topic} {t : ℚ} {o : Origin}
    (h : origin principal db id topics url t = .ok (some o)) :
    topics = bothTopics ∧ o.predecessor.topics = [.haNotification] := by
  unfold origin at h
  split at h
  · obtain ⟨_, hneed, hprior⟩ := bind_ok.1 h
    obtain ⟨-, htopics, -, hha⟩ := need_eq_ok.1 hneed
    split_ifs at hprior
    · obtain rfl := Option.some.inj (pure_ok.1 hprior)
      exact ⟨htopics, hha⟩
    · obtain ⟨_, -, hhandover⟩ := bind_ok.1 hprior
      obtain ⟨_, -, hgrant⟩ := bind_ok.1 hhandover
      obtain rfl := Option.some.inj (pure_ok.1 hgrant)
      exact ⟨htopics, hha⟩
  · cases h
  · split_ifs at h with hboth
    · split at h
      · rename_i prior hcandidates
        obtain rfl := Option.some.inj (Except.ok.inj h)
        have hmem : prior ∈ db.candidates principal url t := hcandidates ▸ List.mem_singleton_self _
        have hcandidate := (List.mem_filter.1 hmem).2
        simp only [decide_eq_true_eq] at hcandidate
        exact ⟨hboth.2, hcandidate.2.2.2.2.1⟩
      · cases h
      · obtain ⟨handover, hauthorize, hgrant⟩ := bind_ok.1 h
        cases handover with
        | none =>
          obtain ⟨_, -, hnone⟩ := bind_ok.1 hgrant
          cases pure_ok.1 hnone
        | some g =>
          obtain rfl := Option.some.inj (pure_ok.1 hgrant)
          exact ⟨hboth.2, (authorizeHandover_some hauthorize).2.1⟩
    · cases h

theorem proceeds_subscribe (approved : Bool) (p : SubscribeParams) :
    Proceeds (subscribe principal approved p) (.trivial (rules principal clockOk)) := by
  unfold subscribe
  refine guar_require fun _ => guar_lift fun i hi => guar_require fun _ => guar_require fun _ => ?_
  have hid : i.1 = subscriptionId principal i.2 p.url := by
    simp only [identity, bind_ok, need_eq_ok, exists_unit, pure_ok] at hi
    obtain ⟨-, -, topics, -, -, -, rfl⟩ := hi
    rfl
  refine proceeds_now settled_trivial fun t => proceeds_get fun s _ _ => ?_
  refine guar_lift fun o ho => guar_require fun _ => ?_
  -- whether the callback is verified or not, the tables stay as they were read
  have hstore : ∀ verified attempt, Proceeds (storeSubscription principal o attempt
      (subscriptionRow principal p i.1 i.2 (s.db.subscription? i.1) t verified) >>= fun _ => pure i.1)
      (both (both (.trivial (rules principal clockOk)) (passed t)) (sees s.db s.record.posts)) := by
    intro verified attempt
    unfold storeSubscription
    cases o with
    | some o =>
      unfold migrate
      refine proceeds_commit fun s₁ s' b _ _ hf => ?_
      obtain ⟨db, hdb, heq⟩ := bind_ok.1 hf
      obtain ⟨rfl, -⟩ := Prod.mk.inj (pure_ok.1 heq)
      obtain ⟨htopics, hha⟩ := origin_some ho
      exact ⟨.migrate hid htopics hha rfl (min_le_right _ _) hdb, .trivial _, trivial, proceeds_pure⟩
    | none =>
      refine proceeds_execute (fun s₁ db hknown hf => ?_) proceeds_pure
      obtain rfl := Except.ok.inj hf
      obtain ⟨⟨-, hpassed, hdated⟩, htables, -⟩ := hknown
      refine .store ⟨p, i.2, t, verified, ?_, hid, hpassed, hdated, ?_⟩
      · show _ = subscriptionRow principal p i.1 i.2 (s₁.db.subscription? i.1) t verified
        rw [Db.tables_subscription htables]
      · show s₁.db.othersLive t i.1 = []
        rw [Db.tables_othersLive htables]
        exact origin_none ho
  unfold verifiedAt
  cases (s.db.subscription? i.1).filter
      fun r => r.active = true ∧ r.secret = p.secret ∧ t - r.verified ≤ 300 with
  | some r => exact hstore r.verified _
  | none =>
    simp only [bind_assoc]
    exact proceeds_verifyCallback (fun _ _ _ h => h) (hstore t _)

theorem proceeds_program (op : Operation) :
    Proceeds (op.program principal) (.trivial (rules principal clockOk)) := by
  cases op with
  | enqueue e => exact guar_then (proceeds_enqueue e) fun _ _ _ => trivial
  | prune => exact proceeds_prune
  | subscribe approved p => exact guar_then (proceeds_subscribe approved p) fun _ _ _ => trivial
  | unsubscribe name project' topics mode url =>
    exact proceeds_unsubscribe name project' topics mode url
  | observeCurrent notifications observedAt => exact proceeds_observeCurrent notifications observedAt
  | dispatchOne approved allowed => exact proceeds_dispatchOne approved allowed

/-! ## Runs -/

omit [Std.Refl clockOk] in
theorem rules_suits : (rules principal clockOk).Suits (setting clockOk) where
  others s s' h hs _ := by
    refine ⟨?_, hs⟩
    cases hs with
    | clock ht =>
      refine ⟨h.posted, fun r hr => ?_, fun m hm => ?_⟩
      · exact IsTrans.trans _ _ _ (h.dated.1 r hr) ht
      · exact IsTrans.trans _ _ _ (h.dated.2 m hm) ht
    | restart => exact ⟨h.posted, h.dated⟩
    | arm _ => exact ⟨h.posted, h.dated.1, h.dated.2⟩
  possible _ _ := trivial
  release s h := ⟨h, .quiet s.db.clock s.high s.evidence⟩

/-- Every step of the registry itself is a change. -/
theorem registry_own {w w' : Desk State Reply Unit}
    (h : (registryMachine principal clockOk).Reachable w)
    (hs : Desk.Own (setting clockOk) (fun p => ∃ op : Operation, p = op.program principal) w w') :
    Change principal clockOk w.state w'.state := by
  have hstarts : ∀ p, (∃ op : Operation, p = op.program principal) →
      Proceeds p (.trivial (rules principal clockOk)) := by
    rintro p ⟨op, rfl⟩
    exact proceeds_program op
  have hgood : w.Good (rules principal clockOk) := by
    refine Desk.Good.reachable rules_suits (fun s hs => ?_) hstarts h
    obtain ⟨hdb, hrecord⟩ := hs
    refine ⟨?_, ?_, ?_⟩
    · rw [State.Posted, hrecord]; exact fun p hp => by cases hp
    · rw [hdb]; exact fun r hr => by cases hr
    · rw [hrecord]; exact fun m hm => by cases hm
  exact (hgood.own rules_suits hstarts hs).2

/-- Every step of a run is a change or comes from the surroundings. -/
theorem registry_step {w w' : Desk State Reply Unit}
    (h : (registryMachine principal clockOk).Reachable w)
    (hs : (registryMachine principal clockOk).step w w') :
    Change principal clockOk w.state w'.state ∨ Surrounding clockOk w.state w'.state := by
  cases hs with
  | own hown => exact Or.inl (registry_own h hown)
  | others hothers _ => exact Or.inr hothers

/-- **The rule of runs.**  What holds of a new database and is kept by every change and by the
    surroundings holds in every state that is reached. -/
theorem registry_invariant {P : State → Prop} (hstart : ∀ s, s.Fresh → P s)
    (hchange : ∀ s s', P s → Change principal clockOk s s' → P s')
    (hothers : ∀ s s', P s → Surrounding clockOk s s' → P s') {w : Desk State Reply Unit}
    (h : (registryMachine principal clockOk).Reachable w) : P w.state := by
  refine Machine.Invariant.reachable (p := fun w => P w.state) ⟨?_, ?_⟩ h
  · rintro w ⟨hfresh, -⟩
    exact hstart _ hfresh
  · intro w w' hw hP hs
    rcases registry_step hw hs with hc | ho
    · exact hchange _ _ hP hc
    · exact hothers _ _ hP ho

end

end SmartHome.NativeEvents
