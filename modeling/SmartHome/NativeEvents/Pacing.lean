/-
  The limits on attempts: `dispatch_one` reads them from rows that `prune` deletes, but the stored
  clock keeps a later attempt away from every deleted row.
-/
import SmartHome.Lib.Spaced
import SmartHome.NativeEvents.Conservation

namespace SmartHome.NativeEvents

open Verif Program

/-! ## Attempts -/

/-- The times of all attempts: every intent stores a batch, and no batch is deleted. -/
def State.attempts (s : State) : List ℚ := s.db.batches.map Batch.time

/-- A row that is deleted is a week older than the clock in `meta`, up to its delay. -/
structure State.Paced (s : State) : Prop where
  spaced : Spaced minimumAttemptSpacing s.attempts
  rows : ∀ d ∈ s.db.dispatch, d.time ∈ s.attempts
  kept : ∀ a ∈ s.attempts, (∃ d ∈ s.db.dispatch, d.time = a) ∨ ∃ c ∈ s.db.clock, a < c + 30 - 7 * 86400

/-- The attempts stay, and the stored clock does not go back. -/
structure Calm (s s' : State) : Prop where
  batches : s'.db.batches = s.db.batches
  times : s'.db.dispatch.map Dispatch.time = s.db.dispatch.map Dispatch.time
  clock : ∀ c ∈ s.db.clock, ∃ c' ∈ s'.db.clock, c ≤ c'

theorem calm_of_eq {s s' : State} (hbatches : s'.db.batches = s.db.batches)
    (hdispatch : s'.db.dispatch = s.db.dispatch) (hclock : s'.db.clock = s.db.clock) : Calm s s' := by
  refine ⟨hbatches, by rw [hdispatch], fun c hc => ⟨c, ?_, le_rfl⟩⟩
  rw [hclock]
  exact hc

theorem Calm.paced {s s' : State} (h : Calm s s') (hs : s.Paced) : s'.Paced := by
  have hattempts : s'.attempts = s.attempts := congrArg (List.map Batch.time) h.batches
  refine ⟨by rw [hattempts]; exact hs.spaced, fun d hd => ?_, fun a ha => ?_⟩
  · have htime : d.time ∈ s.db.dispatch.map Dispatch.time := h.times ▸ List.mem_map_of_mem hd
    obtain ⟨d', hd', heq⟩ := List.mem_map.1 htime
    rw [hattempts, ← heq]
    exact hs.rows d' hd'
  · rw [hattempts] at ha
    rcases hs.kept a ha with ⟨d, hd, rfl⟩ | ⟨c, hc, hlt⟩
    · left
      have htime : d.time ∈ s'.db.dispatch.map Dispatch.time := h.times ▸ List.mem_map_of_mem hd
      exact List.mem_map.1 htime
    · right
      obtain ⟨c', hc', hle⟩ := h.clock c hc
      exact ⟨c', hc', by linarith⟩

theorem State.Paced.same {s s' : State} (hs : s.Paced) (hbatches : s'.db.batches = s.db.batches)
    (hdispatch : s'.db.dispatch = s.db.dispatch) (hclock : s'.db.clock = s.db.clock) : s'.Paced :=
  (calm_of_eq hbatches hdispatch hclock).paced hs

theorem paced_fresh {s : State} (h : s.Fresh) : s.Paced := by
  obtain ⟨hdb, -⟩ := h
  have hattempts : s.attempts = [] := by rw [State.attempts, hdb]; rfl
  refine ⟨?_, ?_, ?_⟩
  · rw [hattempts]; exact List.Pairwise.nil
  · rw [hdb]; exact fun d hd => by cases hd
  · rw [hattempts]; exact fun a ha => by cases ha

/-! ## Clocks -/

theorem noteClock_mono (db : Db) (t : ℚ) : ∀ c ∈ db.clock, ∃ c' ∈ (db.noteClock t).clock, c ≤ c' := by
  intro c hc
  unfold Db.noteClock
  split_ifs with hold
  · refine ⟨t, rfl, ?_⟩
    have hlate := hold c hc
    linarith
  · exact ⟨c, hc, le_rfl⟩

/-- The stored clock is at most 30 seconds behind. -/
theorem noteClock_near (db : Db) (t : ℚ) : ∃ c ∈ (db.noteClock t).clock, t - 30 < c := by
  unfold Db.noteClock
  split_ifs with hold
  · exact ⟨t, rfl, by linarith⟩
  · push Not at hold
    obtain ⟨c, hc, hlt⟩ := hold
    exact ⟨c, hc, by linarith⟩

theorem calm_noteClock (s : State) (t : ℚ) : Calm s { s with db := s.db.noteClock t } := by
  have htables := Db.tables_noteClock s.db t
  exact ⟨Db.tables_batches htables, congrArg (List.map Dispatch.time) (Db.tables_dispatch htables),
    noteClock_mono s.db t⟩

/-! ## The two operations -/

/-- Where the budget is not used up, all attempts are spaced from now. -/
theorem State.Paced.clear {s : State} {t : ℚ} (h : s.Paced) (hclock : ∀ c ∈ s.db.clock, c - 1 ≤ t)
    (hfree : ¬ s.db.budgetHeld t) : ∀ a ∈ s.attempts, a + minimumAttemptSpacing ≤ t := by
  intro a ha
  unfold minimumAttemptSpacing
  rcases h.kept a ha with ⟨d, hd, rfl⟩ | ⟨c, hc, hlt⟩
  · by_contra hnear
    refine hfree (Or.inr ⟨d, List.mem_filter.2 ⟨hd, ?_⟩, ?_⟩)
    · rw [decide_eq_true_eq]
      linarith
    · unfold minimumAttemptSpacing
      linarith
  · have hc := hclock c hc
    linarith

/-- `prune` keeps the pace. -/
theorem State.Paced.forget {s : State} {t : ℚ} (h : s.Paced) (hnear : ∃ c ∈ s.db.clock, t - 30 < c) :
    State.Paced { s with db := s.db.forget t } := by
  refine ⟨h.spaced, fun d hd => h.rows d (List.mem_of_mem_filter hd), fun a ha => ?_⟩
  rcases h.kept a ha with ⟨d, hd, rfl⟩ | hold
  · by_cases hgone : d.state ≠ .uncertain ∧ d.time < t - 7 * 86400
    · right
      obtain ⟨c, hc, hlt⟩ := hnear
      exact ⟨c, hc, by linarith [hgone.2]⟩
    · left
      exact ⟨d, List.mem_filter.2 ⟨hd, decide_eq_true hgone⟩, rfl⟩
  · exact Or.inr hold

/-! ## Rules -/

/-- The rules under which the operations keep the pace. -/
def pacing (clockOk : ℚ → ℚ → Prop) : Rules State Request Unit where
  inv := State.Paced
  rel _ _ := True
  refl _ := trivial
  others := Surrounding clockOk
  possible _ := True
  issued _ := []
  cost _ := none

section
variable {clockOk : ℚ → ℚ → Prop} {A : (pacing clockOk).Known} {α β : Type}

/-- The operation keeps the pace, from wherever `A` holds. -/
abbrev KeepsPace (p : Prog β) (A : (pacing clockOk).Known) : Prop :=
  Guar (pacing clockOk) (fun _ _ => True) (fun _ _ _ => True) p A []

theorem surrounding_clock {s s' : State} (h : Surrounding clockOk s s') : s'.db.clock = s.db.clock := by
  cases h with
  | clock _ => rfl
  | restart => rfl
  | arm _ => rfl

theorem surrounding_calm {s s' : State} (h : Surrounding clockOk s s') : Calm s s' :=
  calm_of_eq (Db.tables_batches h.tables) (Db.tables_dispatch h.tables) (surrounding_clock h)

/-- The stored clock is a second ahead at most. -/
def low (t : ℚ) : (pacing clockOk).Known where
  holds s := ∀ c ∈ s.db.clock, c - 1 ≤ t
  stable s s' hs h := by rw [surrounding_clock hs]; exact h

/-- The clock was stored a short while ago. -/
def near (t : ℚ) : (pacing clockOk).Known where
  holds s := ∃ c ∈ s.db.clock, t - 30 < c
  stable s s' hs h := by rw [surrounding_clock hs]; exact h

/-- A transaction, after which `A'` is known. -/
theorem pace_commit {f : State → Except String (State × α)} {k : α → Prog β}
    (h : ∀ s s' b, s.Paced → A.holds s → f s = .ok (s', b) → s'.Paced ∧
      ∃ A' : (pacing clockOk).Known, A'.holds s' ∧ KeepsPace (k b) A') : KeepsPace (commit f >>= k) A := by
  refine guar_earn fun s s' b hs hA _ hf => ?_
  obtain ⟨hpaced, A', hA', hk⟩ := h s s' b hs hA hf
  exact ⟨hpaced, trivial, A', [], hA', fun t => Nat.le_refl _, hk⟩

/-- A transaction that does not matter for attempts. -/
theorem pace_calm {f : State → Except String (State × α)} {k : α → Prog β}
    (h : ∀ s s' b, f s = .ok (s', b) → Calm s s')
    (hk : ∀ b, KeepsPace (k b) (.trivial (pacing clockOk))) : KeepsPace (commit f >>= k) A :=
  pace_commit fun s s' b hs _ hf => ⟨(h s s' b hf).paced hs, .trivial _, trivial, hk b⟩

/-- A statement that does not matter for attempts. -/
theorem pace_execute {f : State → Except String Db} {k : Unit → Prog β}
    (h : ∀ s db, f s = .ok db → db.batches = s.db.batches ∧ db.dispatch.map Dispatch.time = s.db.dispatch.map Dispatch.time ∧
      db.clock = s.db.clock) (hk : KeepsPace (k ()) (.trivial (pacing clockOk))) :
    KeepsPace (execute f >>= k) A := by
  refine pace_calm (fun s s' b hf => ?_) fun _ => hk
  simp only [bind_ok, pure_ok] at hf
  obtain ⟨db, hdb, heq⟩ := hf
  obtain ⟨rfl, -⟩ := Prod.mk.inj heq
  obtain ⟨hbatches, hdispatch, hclock⟩ := h s db hdb
  refine ⟨hbatches, hdispatch, fun c hc => ⟨c, ?_, le_rfl⟩⟩
  show c ∈ db.clock
  rw [hclock]
  exact hc

theorem pace_last {p : Prog Unit} (h : KeepsPace (p >>= pure) A) : KeepsPace p A := by
  rwa [bind_pure] at h

theorem pace_observeClock {k : ℚ → Prog β} (h : ∀ t, KeepsPace (k t) (low t : (pacing clockOk).Known)) :
    KeepsPace (observeClock >>= k) A := by
  unfold observeClock
  refine pace_commit fun s s' t hs _ hf => ?_
  simp only [bind_ok, need_eq_ok, exists_unit, pure_ok, Prod.mk.injEq] at hf
  obtain ⟨hprior, rfl, rfl⟩ := hf
  refine ⟨hs.same rfl rfl rfl, low s.time, fun c hc => ?_, h s.time⟩
  have hmax : s.db.clock.getD s.time ≤ max (s.db.clock.getD s.time) (s.high.getD s.time) := le_max_left _ _
  rw [Option.mem_def] at hc
  change s.db.clock = some c at hc
  rw [hc, Option.getD_some] at hmax hprior
  linarith

theorem pace_now {k : ℚ → Prog β} (h : ∀ t, KeepsPace (k t) (near t : (pacing clockOk).Known)) :
    KeepsPace (now >>= k) A := by
  simp only [now, bind_assoc, pure_bind]
  refine pace_observeClock fun t => ?_
  unfold execute
  refine pace_commit fun s s' b hs _ hf => ?_
  simp only [bind_ok, pure_ok, Except.ok.injEq] at hf
  obtain ⟨db, rfl, heq⟩ := hf
  obtain ⟨rfl, -⟩ := Prod.mk.inj heq
  exact ⟨(calm_noteClock s t).paced hs, near t, noteClock_near s.db t, h t⟩

theorem pace_clock {k : ℚ → Prog β} (h : ∀ t, KeepsPace (k t) A) : KeepsPace (clock >>= k) A := by
  simp only [clock, bind_assoc, pure_bind]
  exact guar_get fun s => h s.time

end

/-! ## Operations -/

section
variable [Texts] {principal : String} {clockOk : ℚ → ℚ → Prop} {A : (pacing clockOk).Known} {β : Type}

/-- An attempt keeps the pace. -/
theorem State.Paced.intend {s s' : State} {t : ℚ} {allowed : Option (List Topic)} {out : Outgoing}
    (h : s.Paced) (hclock : ∀ c ∈ s.db.clock, c - 1 ≤ t) (hi : s.intend principal t allowed = .ok (s', out)) :
    s'.Paced := by
  have hnoted := (calm_noteClock s t).paced h
  have hlow : ∀ c ∈ (s.db.noteClock t).clock, c - 1 ≤ t := by
    intro c hc
    unfold Db.noteClock at hc
    split_ifs at hc
    · obtain rfl := Option.some.inj hc
      linarith
    · exact hclock c hc
  simp only [State.intend] at hi
  split_ifs at hi with hheld
  · obtain ⟨rfl, -⟩ := Prod.mk.inj (pure_ok.1 hi)
    exact hnoted
  · obtain ⟨plan, -, hi⟩ := bind_ok.1 hi
    cases plan with
    | none =>
      obtain ⟨rfl, -⟩ := Prod.mk.inj (pure_ok.1 hi)
      exact hnoted
    | some r =>
      obtain ⟨db, hdb, hi⟩ := bind_ok.1 hi
      obtain ⟨rfl, -⟩ := Prod.mk.inj (pure_ok.1 hi)
      obtain ⟨-, -, -, rfl⟩ := Db.intend_eq hdb
      have hattempts : ((s.db.noteClock t).batches ++ [(⟨r.2.identity, r.1.id, r.2.body, t⟩ : Batch)]).map
          Batch.time = (s.db.noteClock t).batches.map Batch.time ++ [t] := by
        rw [List.map_append, List.map_singleton]
      refine ⟨?_, fun d hd => ?_, fun a ha => ?_⟩
      · show Spaced minimumAttemptSpacing (List.map Batch.time _)
        rw [hattempts, spaced_concat]
        exact ⟨hnoted.spaced, hnoted.clear hlow hheld⟩
      · show d.time ∈ List.map Batch.time _
        rw [hattempts, mem_concat]
        rcases mem_concat.1 hd with hd | rfl
        · exact Or.inl (hnoted.rows d hd)
        · exact Or.inr rfl
      · change a ∈ List.map Batch.time _ at ha
        rw [hattempts, mem_concat] at ha
        rcases ha with ha | rfl
        · rcases hnoted.kept a ha with ⟨d, hd, hat⟩ | hold
          · exact Or.inl ⟨d, List.mem_append_left _ hd, hat⟩
          · exact Or.inr hold
        · exact Or.inl ⟨_, mem_concat.2 (Or.inr rfl), rfl⟩

theorem pace_enqueue (e : Enqueue) : KeepsPace (enqueue e) (.trivial (pacing clockOk)) := by
  unfold enqueue
  refine guar_require fun _ => guar_require fun _ => pace_clock fun t => guar_require fun _ => ?_
  refine guar_get fun s => ?_
  cases s.db.data? (eventId e.data) with
  | some existing => exact guar_require fun _ => trivial
  | none =>
    refine guar_require fun _ => pace_now fun _ => ?_
    refine pace_calm (fun s₁ s' b hf => ?_) fun _ => trivial
    simp only [Db.insertEvent, bind_ok, need_eq_ok, exists_unit, pure_ok, Prod.mk.injEq] at hf
    obtain ⟨db, ⟨-, rfl⟩, rfl, -⟩ := hf
    exact calm_of_eq rfl rfl rfl

omit [Texts] in
theorem pace_prune : KeepsPace prune (.trivial (pacing clockOk)) := by
  unfold prune
  refine pace_now fun t => ?_
  unfold execute
  refine pace_commit fun s s' b hs hnear hf => ?_
  simp only [bind_ok, pure_ok, Except.ok.injEq, Prod.mk.injEq] at hf
  obtain ⟨db, rfl, rfl, -⟩ := hf
  refine ⟨hs.same rfl rfl rfl, near t, hnear, ?_⟩
  refine pace_commit fun s s' b hs hnear hf => ?_
  simp only [bind_ok, pure_ok, Except.ok.injEq, Prod.mk.injEq] at hf
  obtain ⟨db, rfl, rfl, -⟩ := hf
  refine ⟨hs.forget hnear, .trivial _, trivial, ?_⟩
  refine pace_last (pace_execute (fun s db hf => ?_) trivial)
  obtain ⟨-, -, rfl⟩ := Db.retire_eq hf
  exact ⟨rfl, rfl, rfl⟩

theorem pace_unsubscribe (name project' : String) (topics : List Topic) (mode url : String) :
    KeepsPace (unsubscribe principal name project' topics mode url) (.trivial (pacing clockOk)) := by
  unfold unsubscribe
  refine guar_lift fun i _ => pace_now fun t => pace_last (pace_execute (fun s db hf => ?_) trivial)
  obtain ⟨_, rfl⟩ := Db.unsubscribe_eq hf
  exact ⟨rfl, rfl, rfl⟩

omit [Texts] in
theorem pace_observeCurrent (notifications : Current) (observedAt : ℚ) :
    KeepsPace (observeCurrent notifications observedAt) (.trivial (pacing clockOk)) := by
  unfold observeCurrent
  refine pace_clock fun t => guar_require fun _ => guar_require fun _ => ?_
  intro s hs _ _ _
  exact ⟨hs.same rfl rfl rfl, trivial, .trivial _, [], trivial, fun t => Nat.le_refl _, trivial⟩

omit [Texts] in
theorem pace_verifyCallback {p : SubscribeParams} {id : String} {attempt : Option Attempt} {k : Unit → Prog β}
    (hk : ∀ A : (pacing clockOk).Known, KeepsPace (k ()) A) : KeepsPace (verifyCallback p id attempt >>= k) A := by
  cases attempt with
  | none =>
    simp only [verifyCallback, bind_assoc]
    refine guar_ask rfl fun verified => ?_
    cases verified with
    | true => exact hk _
    | false => exact trivial
  | some a =>
    simp only [verifyCallback, bind_assoc]
    refine pace_calm (fun s s' b hf => ?_) fun _ => guar_ask rfl fun verified => ?_
    · simp only [bind_ok, need_eq_ok, exists_unit, pure_ok, Prod.mk.injEq] at hf
      obtain ⟨-, rfl, -⟩ := hf
      exact calm_of_eq rfl rfl rfl
    · cases verified with
      | true => exact hk _
      | false =>
        simp only [bind_assoc]
        refine pace_execute (fun s db hf => ?_) trivial
        obtain rfl := Except.ok.inj hf
        split_ifs
        · exact ⟨rfl, rfl, rfl⟩
        · exact ⟨rfl, rfl, rfl⟩

theorem pace_storeSubscription (o : Option Origin) (attempt : Option Attempt) (row : Subscription)
    (id : String) : KeepsPace (storeSubscription principal o attempt row >>= fun _ => pure id) A := by
  unfold storeSubscription
  cases o with
  | some o =>
    refine pace_calm (fun s s' b hf => ?_) fun _ => trivial
    obtain ⟨db, hdb, heq⟩ := bind_ok.1 hf
    obtain ⟨rfl, -⟩ := Prod.mk.inj (pure_ok.1 heq)
    obtain ⟨-, -, -, rfl⟩ := Db.migrate_eq hdb
    exact calm_of_eq rfl rfl rfl
  | none =>
    refine pace_execute (fun s db hf => ?_) trivial
    obtain rfl := Except.ok.inj hf
    exact ⟨rfl, rfl, rfl⟩

theorem pace_subscribe (approved : Bool) (p : SubscribeParams) :
    KeepsPace (subscribe principal approved p) (.trivial (pacing clockOk)) := by
  unfold subscribe
  refine guar_require fun _ => guar_lift fun i _ => guar_require fun _ => guar_require fun _ => ?_
  refine pace_now fun t => guar_get fun s => guar_lift fun o _ => guar_require fun _ => ?_
  unfold verifiedAt
  cases (s.db.subscription? i.1).filter fun r => r.active = true ∧ r.secret = p.secret ∧ t - r.verified ≤ 300 with
  | some r => exact pace_storeSubscription o _ _ i.1
  | none =>
    simp only [bind_assoc]
    exact pace_verifyCallback fun A => pace_storeSubscription o _ _ i.1

theorem pace_dispatchOne (approved : Bool) (allowed : Option (List Topic)) :
    KeepsPace (dispatchOne principal approved allowed) (.trivial (pacing clockOk)) := by
  unfold dispatchOne
  refine guar_require fun _ => pace_observeClock fun t => ?_
  refine pace_commit fun s s' out hs hlow hf => ⟨hs.intend hlow hf, .trivial _, trivial, ?_⟩
  cases out with
  | budgetHeld => exact trivial
  | idle => exact trivial
  | batch sub plan =>
    refine guar_require fun _ => ?_
    simp only [post, bind_assoc]
    intro s₁ hs₁ _ _ _
    refine ⟨hs₁.same rfl rfl rfl, trivial, .trivial _, [], trivial, fun t => Nat.le_refl _, ?_⟩
    refine guar_ask rfl fun status => ?_
    cases status with
    | none => exact trivial
    | some status =>
      refine pace_execute (fun s db hf => ?_) ?_
      · obtain rfl := Except.ok.inj hf
        refine ⟨rfl, ?_, rfl⟩
        rw [List.map_map]
        refine List.map_congr_left fun d _ => ?_
        rw [Function.comp_apply]
        split_ifs <;> rfl
      · split_ifs
        · refine pace_last (pace_execute (fun s db hf => ?_) trivial)
          obtain rfl := Except.ok.inj hf
          exact ⟨rfl, rfl, rfl⟩
        · exact trivial

theorem pace_program (op : Operation) : KeepsPace (op.program principal) (.trivial (pacing clockOk)) := by
  cases op with
  | enqueue e => exact guar_then (pace_enqueue e) fun _ _ _ => trivial
  | prune => exact pace_prune
  | subscribe approved p => exact guar_then (pace_subscribe approved p) fun _ _ _ => trivial
  | unsubscribe name project' topics mode url => exact pace_unsubscribe name project' topics mode url
  | observeCurrent notifications observedAt => exact pace_observeCurrent notifications observedAt
  | dispatchOne approved allowed => exact pace_dispatchOne approved allowed

/-! ## Runs -/

/-- **Attempts keep their pace**, whatever the clock does. -/
theorem paced_reachable {w : Desk State Reply Unit}
    (h : (registryMachine principal clockOk).Reachable w) : w.state.Paced := by
  have hsuits : (pacing clockOk).Suits (setting clockOk) :=
    ⟨fun s s' hs ho _ => ⟨(surrounding_calm ho).paced hs, ho⟩, fun _ _ => trivial, fun s hs => ⟨hs, trivial⟩⟩
  refine (Desk.Good.reachable hsuits (fun s hs => paced_fresh hs) ?_ h).inv
  rintro p ⟨op, rfl⟩
  exact pace_program op

end

end SmartHome.NativeEvents
