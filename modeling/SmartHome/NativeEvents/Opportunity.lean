/-
  The forecast of the next attempt (`opportunity` in `delivery_summary.py`), and that it agrees with
  what `dispatch_one` admits.
-/
import Mathlib.Algebra.Order.Floor.Ring
import Mathlib.Data.Rat.Floor
import Mathlib.Order.Bounds.Basic
import SmartHome.NativeEvents.Lineage
import SmartHome.NativeEvents.Pacing

namespace SmartHome.NativeEvents

open Verif Program

/-! ## The forecast -/

/-- `ATTEMPT_WINDOW_SECONDS` -/
def attemptWindow : ℚ := 86400

/-- The nearest integer, or the even one of two. -/
def roundHalfEven (x : ℚ) : ℤ :=
  let below := ⌊x⌋
  if x - below < 1 / 2 then below
  else if 1 / 2 < x - below then below + 1
  else if below % 2 = 0 then below else below + 1

/-- `iso`: the text names a time in whole microseconds. -/
def iso (value : ℚ) : ℚ := roundHalfEven (value * 1000000) / 1000000

/-- `block_reason` -/
inductive BlockReason where
  | subscriptionInactive | noEligibleEvents | rollingDailyAttemptLimitReached | minimumSpacing | ready
  deriving DecidableEq, Repr

/-- What `opportunity` returns, without the fields that are the same always. -/
structure Opportunity where
  blockReason : BlockReason
  attemptsLast24h : ℕ
  budgetAvailableAt : ℚ
  spacingAvailableAt : ℚ
  nextOpportunityAt : Option ℚ
  subscriptionExpiresAt : Option ℚ
  withinSubscriptionValidity : Bool
  requiresSubscriptionRenewal : Bool
  deriving DecidableEq, Repr

/-- `recent`, in order. -/
def recentAttempts (attemptTimes : List ℚ) (now : ℚ) : List ℚ :=
  (attemptTimes.filter fun t => now - attemptWindow < t).insertionSort (· ≤ ·)

/-- `budget_at` -/
def budgetAt (recent : List ℚ) (now : ℚ) : ℚ :=
  ((latest maximumAttemptsPerDay recent).map (· + attemptWindow)).getD now

/-- `spacing_at` -/
def spacingAt (recent : List ℚ) (now : ℚ) : ℚ :=
  ((latest 1 recent).map (· + minimumAttemptSpacing)).getD now

/-- `next_at` -/
def nextAt (recent : List ℚ) (now : ℚ) : ℚ := max now (max (budgetAt recent now) (spacingAt recent now))

/-- `opportunity` -/
def opportunity (attemptTimes : List ℚ) (now : ℚ) (expires : Option ℚ) (pending : ℤ) :
    Except String Opportunity := do
  need ((∀ t ∈ attemptTimes, t ≤ now + 1) ∧ 0 ≤ pending) "delivery_opportunity_unconfirmed"
  let recent := recentAttempts attemptTimes now
  let active := decide (∃ e ∈ expires, now < e)
  return {
    blockReason :=
      if ¬ active then .subscriptionInactive
      else if pending = 0 then .noEligibleEvents
      else if now < budgetAt recent now then .rollingDailyAttemptLimitReached
      else if now < spacingAt recent now then .minimumSpacing
      else .ready
    attemptsLast24h := recent.length
    budgetAvailableAt := iso (max now (budgetAt recent now))
    spacingAvailableAt := iso (max now (spacingAt recent now))
    nextOpportunityAt := if active ∧ pending ≠ 0 then some (iso (nextAt recent now)) else none
    subscriptionExpiresAt := expires.map iso
    withinSubscriptionValidity :=
      decide (active ∧ pending ≠ 0 ∧ ∃ e ∈ expires, nextAt recent now < e)
    requiresSubscriptionRenewal :=
      decide (pending ≠ 0 ∧ (¬ active ∨ ∃ e ∈ expires, e ≤ nextAt recent now)) }

/-- `SELECT at FROM dispatch WHERE at>?` -/
def Db.attemptTimes (db : Db) (now : ℚ) : List ℚ :=
  (db.dispatch.map Dispatch.time).filter fun t => now - attemptWindow < t

/-- `summary_plan`: the subscription and its rows, where its groups can be made. -/
def State.summaryPlan [Texts] (principal : String) (s : State) (now : ℚ) :
    Except String (Option Subscription × List Event) :=
  match s.db.subscriptions.filter fun r => r.live now ∧ r.owner = principal with
  | [] => .ok (none, [])
  | [sub] => do
    need (0 ≤ sub.started ∧ sub.started ≤ now) "summary_subscription_scope_unconfirmed"
    let rows := s.db.eligibleRows now sub none
    let topic := (rows.head?.map Event.topic).getD .haNotification
    let selected := rows.filter fun e => e.topic = topic
    match topic with
    | .taskTerminal =>
      let _ ← groupTerminalEvents selected now
      return (some sub, rows)
    | .haNotification =>
      let _ ← groupEvents selected now ((s.fresh now).map Prod.snd)
      return (some sub, rows)
  | _ => .error "summary_subscription_scope_unconfirmed"

/-- The forecast in `delivery_diagnostics`. -/
def State.deliveryOpportunity [Texts] (principal : String) (s : State) (now : ℚ) : Except String Opportunity := do
  let plan ← s.summaryPlan principal now
  let _ ← groupEvents (plan.2.filter fun e => e.topic = .haNotification) now ((s.fresh now).map Prod.snd)
  opportunity (s.db.attemptTimes now) now (plan.1.map Subscription.expires) plan.2.length

/-! ## Agreement -/

section
variable {db : Db} {now t : ℚ}

theorem recent_sorted (times : List ℚ) : (recentAttempts times now).Pairwise (· ≤ ·) :=
  List.pairwise_insertionSort _ _

/-- The attempts after a later time are among the recent ones. -/
theorem length_recent_after (times : List ℚ) {x : ℚ} (hx : now - attemptWindow ≤ x) :
    ((recentAttempts times now).filter fun a => x < a).length = (times.filter fun a => x < a).length := by
  have hperm := List.perm_insertionSort (· ≤ ·) (times.filter fun a => now - attemptWindow < a)
  rw [recentAttempts, (hperm.filter _).length_eq, List.filter_filter]
  congr 1
  refine List.filter_congr fun a _ => ?_
  rw [← Bool.decide_and, decide_eq_decide]
  exact and_iff_left_of_imp fun h => hx.trans_lt h

theorem lt_getD_iff {k : ℕ} {recent : List ℚ} {gap : ℚ} (hnow : now ≤ t) :
    t < ((latest k recent).map (· + gap)).getD now ↔ ∃ a ∈ latest k recent, t - gap < a := by
  cases latest k recent with
  | none => simpa using hnow
  | some a => simp [sub_lt_iff_lt_add]

theorem attemptTimes_recent : recentAttempts (db.attemptTimes now) now = recentAttempts (db.dispatch.map Dispatch.time) now := by
  unfold recentAttempts Db.attemptTimes
  rw [List.filter_filter]
  simp only [Bool.and_self]

theorem length_attempts_after (x : ℚ) : ((db.dispatch.map Dispatch.time).filter fun a => x < a).length =
    (db.dispatch.filter fun d => x < d.time).length := by
  rw [List.filter_map, List.length_map]
  rfl

/-- **The two comparisons agree**: from now on, the budget is used up before the forecast. -/
theorem budgetHeld_iff (hnow : now ≤ t) :
    db.budgetHeld t ↔ t < nextAt (recentAttempts (db.attemptTimes now) now) now := by
  have hbudget : maximumAttemptsPerDay ≤ (db.dispatch.filter fun d => t - 86400 < d.time).length ↔
      t < budgetAt (recentAttempts (db.attemptTimes now) now) now := by
    rw [attemptTimes_recent, budgetAt, lt_getD_iff hnow, ← le_length_after_iff (recent_sorted _) (by decide),
      length_recent_after _ (by unfold attemptWindow; linarith), length_attempts_after]
    rfl
  have hspacing : (∃ d ∈ db.dispatch.filter fun d => t - 86400 < d.time, t - d.time < minimumAttemptSpacing) ↔
      t < spacingAt (recentAttempts (db.attemptTimes now) now) now := by
    have hlate : now - attemptWindow ≤ t - minimumAttemptSpacing := by
      unfold attemptWindow minimumAttemptSpacing
      linarith
    rw [attemptTimes_recent, spacingAt, lt_getD_iff hnow, ← le_length_after_iff (recent_sorted _) one_pos,
      length_recent_after _ hlate, length_attempts_after, Nat.one_le_iff_ne_zero, ← Nat.pos_iff_ne_zero,
      List.length_pos_iff_exists_mem]
    constructor
    · rintro ⟨d, hd, hclose⟩
      exact ⟨d, List.mem_filter.2 ⟨List.mem_of_mem_filter hd, decide_eq_true (by linarith)⟩⟩
    · rintro ⟨d, hd⟩
      obtain ⟨hd, hclose⟩ := List.mem_filter.1 hd
      rw [decide_eq_true_eq] at hclose
      refine ⟨d, List.mem_filter.2 ⟨hd, ?_⟩, by linarith⟩
      rw [decide_eq_true_eq]
      unfold minimumAttemptSpacing at hclose
      linarith
  rw [Db.budgetHeld, nextAt, lt_max_iff, lt_max_iff]
  simp only [hbudget, hspacing, or_iff_right (not_lt.2 hnow)]

theorem nextAt_isLeast : IsLeast {t | now ≤ t ∧ ¬ db.budgetHeld t} (nextAt (recentAttempts (db.attemptTimes now) now) now) := by
  constructor
  · have hnow := le_max_left now (max (budgetAt (recentAttempts (db.attemptTimes now) now) now)
      (spacingAt (recentAttempts (db.attemptTimes now) now) now))
    refine ⟨hnow, fun hheld => ?_⟩
    exact lt_irrefl _ ((budgetHeld_iff hnow).1 hheld)
  · rintro t ⟨hnow, hfree⟩
    rw [budgetHeld_iff hnow, not_lt] at hfree
    exact hfree

/-- What a forecast says. -/
theorem opportunity_eq {times : List ℚ} {expires : Option ℚ} {pending : ℤ} {r : Opportunity}
    (h : opportunity times now expires pending = .ok r) :
    r.nextOpportunityAt = if (∃ e ∈ expires, now < e) ∧ pending ≠ 0 then
      some (iso (nextAt (recentAttempts times now) now)) else none := by
  simp only [opportunity, bind_ok, need_eq_ok, exists_unit, pure_ok, decide_eq_true_eq] at h
  obtain ⟨-, rfl⟩ := h
  rfl

/-- A forecast is made where no attempt is more than a second ahead. -/
theorem opportunity_ok {times : List ℚ} {expires : Option ℚ} {pending : ℤ} (htimes : ∀ t ∈ times, t ≤ now + 1)
    (hpending : 0 ≤ pending) : ∃ r, opportunity times now expires pending = .ok r := by
  simp only [opportunity, bind_ok, need_eq_ok, exists_unit, pure_ok]
  exact ⟨_, ⟨htimes, hpending⟩, rfl⟩

end

/-! ## Runs -/

section
variable [Texts] {principal : String} {s : State} {now : ℚ}

/-- `dispatch_one` finds the budget used up. -/
def State.refuses (principal : String) (s : State) (allowed : Option (List Topic)) (t : ℚ) : Prop :=
  ∃ s', s.intend principal t allowed = .ok (s', .budgetHeld)

theorem refuses_iff {allowed : Option (List Topic)} {t : ℚ} :
    s.refuses principal allowed t ↔ s.db.budgetHeld t := by
  obtain ⟨c, hc⟩ := Db.noteClock_eq s.db t
  have hsame : ({ s.db with clock := c } : Db).budgetHeld t ↔ s.db.budgetHeld t := Iff.rfl
  rw [State.refuses, ← hsame]
  simp only [State.intend, hc]
  constructor
  · rintro ⟨s', h⟩
    by_contra hfree
    rw [if_neg hfree] at h
    obtain ⟨plan, -, h⟩ := bind_ok.1 h
    cases plan with
    | none => cases pure_ok.1 h
    | some r =>
      obtain ⟨db, -, h⟩ := bind_ok.1 h
      cases pure_ok.1 h
  · intro hheld
    rw [if_pos hheld]
    exact ⟨_, rfl⟩

/-- The diagnostics give the forecast for the rows of the only live subscription. -/
theorem deliveryOpportunity_eq {r : Opportunity} (h : s.deliveryOpportunity principal now = .ok r) :
    ∃ sub rows, s.summaryPlan principal now = .ok (sub, rows) ∧
      opportunity (s.db.attemptTimes now) now (sub.map Subscription.expires) rows.length = .ok r := by
  simp only [State.deliveryOpportunity, bind_ok] at h
  obtain ⟨plan, hplan, -, -, h⟩ := h
  exact ⟨plan.1, plan.2, hplan, h⟩

variable {w : Desk State Reply Unit}

/-- **Attempts are limited, and the forecast agrees.**  Whatever the clock does, the attempts of a run
    are 600 seconds apart and at most 144 are in any 24 hours.  In every state that is reached the
    forecast is the least time from now on at which `dispatch_one` does not find the budget used up,
    in whole microseconds; it is made where the clock is behind no attempt by more than a second. -/
theorem attempts_limited (hw : (registryMachine principal anyClock).Reachable w) :
    (w.state.attempts.Pairwise fun a b => a + 600 ≤ b) ∧ (∀ d ∈ w.state.db.dispatch, d.time ∈ w.state.attempts) ∧
      (∀ t, (w.state.attempts.filter fun a => t < a ∧ a ≤ t + 86400).length ≤ 144 ∧
        (w.state.attempts.filter fun a => t ≤ a ∧ a < t + 86400).length ≤ 144) ∧
      ∀ now expires pending,
        (∀ r, opportunity (w.state.db.attemptTimes now) now expires pending = .ok r → ∃ next,
          (∀ allowed, IsLeast {t | now ≤ t ∧ ¬ w.state.refuses principal allowed t} next) ∧
            r.nextOpportunityAt = if (∃ e ∈ expires, now < e) ∧ pending ≠ 0 then some (iso next) else none) ∧
        ((∀ a ∈ w.state.attempts, a ≤ now + 1) → 0 ≤ pending →
          ∃ r, opportunity (w.state.db.attemptTimes now) now expires pending = .ok r) ∧
        ∀ r, w.state.deliveryOpportunity principal now = .ok r → ∃ sub rows,
          w.state.summaryPlan principal now = .ok (sub, rows) ∧
            opportunity (w.state.db.attemptTimes now) now (sub.map Subscription.expires) rows.length = .ok r := by
  have h := paced_reachable hw
  have hgap : (0 : ℚ) < minimumAttemptSpacing := by
    unfold minimumAttemptSpacing
    norm_num
  have hday : minimumAttemptSpacing * (144 : ℕ) = 86400 := by
    unfold minimumAttemptSpacing
    norm_num
  refine ⟨h.spaced, h.rows, fun t => ?_, fun now expires pending =>
    ⟨fun r hr => ?_, fun hslack hpending => ?_, fun r hr => deliveryOpportunity_eq hr⟩⟩
  · rw [← hday]
    exact ⟨h.spaced.window hgap t 144, h.spaced.window_from hgap t 144⟩
  · refine ⟨_, fun allowed => ?_, opportunity_eq hr⟩
    simp only [refuses_iff]
    exact nextAt_isLeast
  · refine opportunity_ok (fun t ht => ?_) hpending
    obtain ⟨d, hd, rfl⟩ := List.mem_map.1 (List.mem_of_mem_filter ht)
    exact hslack _ (h.rows d hd)

/-- Where the clock does not go back, no attempt is ahead of it. -/
theorem attempts_passed (hw : (registryMachine principal (· ≤ ·)).Reachable w) :
    ∀ a ∈ w.state.attempts, a ≤ w.state.time := by
  refine registry_invariant (P := fun s => ∀ a ∈ s.attempts, a ≤ s.time) ?_ ?_ ?_ hw
  · rintro s ⟨hdb, -⟩ a ha
    rw [State.attempts, hdb] at ha
    cases ha
  · intro s s' h hc
    cases hc with
    | retire t hdb => obtain ⟨-, -, rfl⟩ := Db.retire_eq hdb; exact h
    | migrate _ _ _ _ _ hdb => obtain ⟨-, -, -, rfl⟩ := Db.migrate_eq hdb; exact h
    | unsubscribe _ _ _ hdb => obtain ⟨_, rfl⟩ := Db.unsubscribe_eq hdb; exact h
    | intend hi =>
      obtain ⟨t, _, _, -, ht, -, hdb⟩ := hi
      obtain ⟨-, -, -, rfl⟩ := Db.intend_eq hdb
      intro a ha
      change a ∈ List.map Batch.time (_ ++ [_]) at ha
      rw [List.map_append, List.map_singleton, mem_concat] at ha
      rcases ha with ha | rfl
      · exact h a ha
      · exact ht
    | _ => exact h
  · intro s s' h hs
    cases hs with
    | clock ht => exact fun a ha => (h a ha).trans ht
    | restart => exact h
    | arm _ => exact h

/-- There, the forecast for the clock is always made. -/
theorem forecast_made (hw : (registryMachine principal (· ≤ ·)).Reachable w) (expires : Option ℚ) {pending : ℤ}
    (hpending : 0 ≤ pending) :
    ∃ r, opportunity (w.state.db.attemptTimes w.state.time) w.state.time expires pending = .ok r := by
  refine opportunity_ok (fun t ht => ?_) hpending
  obtain ⟨d, hd, rfl⟩ := List.mem_map.1 (List.mem_of_mem_filter ht)
  have hpassed := attempts_passed hw d.time ((paced_reachable hw).rows d hd)
  linarith

end

/-! ## A run -/

/-- A clock value between two microseconds. -/
def sampleTick : ℚ := 1001 + 1 / 4194304

/-- A subscription to both topics delivered an event at that time, and ended. -/
def samplePaced : Desk State Reply Unit :=
  sampleRun (.unsubscribe observationName project bothTopics "webhook" sampleUrl)
    (sampleRun (.dispatchOne true none) (sampleRun (.enqueue ⟨sampleData, 1002⟩)
      (sampleRun (.subscribe true (sampleParams bothTopics 86400000)) (sampleLater sampleTick sampleStart))))

/-- The event waits for a subscription to notifications. -/
def sampleWaiting : Desk State Reply Unit :=
  sampleRun (.subscribe true (sampleParams [.haNotification] 86400000)) (sampleLater 1002 samplePaced)

theorem sampleWaiting_run : samplePaced.state.time = sampleTick ∧ sampleWaiting.state.attempts = [sampleTick] ∧
    sampleWaiting.state.db.attemptTimes 1002 = [sampleTick] ∧ sampleWaiting.state.time = 1002 ∧
    sampleWaiting.state.db.budgetHeld 1601 ∧
    (@State.deliveryOpportunity sampleTexts samplePrincipal sampleWaiting.state 1002).toOption.map
      Opportunity.nextOpportunityAt = some (some 1601) := by
  decide +kernel

theorem sampleWaiting_reachable (clockOk : ℚ → ℚ → Prop) (hclock : ∀ a b, a ≤ b → clockOk a b) :
    (@registryMachine sampleTexts samplePrincipal clockOk).Reachable sampleWaiting := by
  have hpaced : samplePaced.state.time ≤ 1002 := by
    rw [sampleWaiting_run.1]
    decide +kernel
  have hstart : sampleStart.state.time ≤ sampleTick := by decide +kernel
  have hlater := sampleLater_reachable (hclock _ _ hstart) (sampleStart_reachable clockOk)
  have hsent := sampleRun_reachable (.dispatchOne true none) (sampleRun_reachable (.enqueue ⟨sampleData, 1002⟩)
    (sampleRun_reachable (.subscribe true (sampleParams bothTopics 86400000)) hlater))
  exact sampleRun_reachable _ (sampleLater_reachable (hclock _ _ hpaced) (sampleRun_reachable _ hsent))

theorem attempts_limited_sample : sampleWaiting.state.attempts = [sampleTick] ∧ ∃ next,
    IsLeast {t | 1002 ≤ t ∧ ¬ @State.refuses sampleTexts samplePrincipal sampleWaiting.state none t} next ∧
      some 1601 = some (iso next) := by
  obtain ⟨-, hattempts, htimes, -⟩ := sampleWaiting_run
  refine ⟨hattempts, ?_⟩
  have hlimited := (@attempts_limited sampleTexts _ _ (sampleWaiting_reachable anyClock fun _ _ _ => trivial)).2.2.2
  obtain ⟨r, hr⟩ := (hlimited 1002 (some 87402) 1).2.1 (by rw [hattempts]; decide +kernel) (by decide)
  obtain ⟨next, hleast, hnext⟩ := (hlimited 1002 (some 87402) 1).1 r hr
  refine ⟨next, hleast none, ?_⟩
  have hvalue : (opportunity [sampleTick] 1002 (some 87402) 1).toOption.map Opportunity.nextOpportunityAt =
      some (some 1601) := by decide +kernel
  rw [htimes] at hr
  rw [hr] at hvalue
  rw [← Option.some.inj hvalue, hnext, if_pos ⟨⟨87402, rfl, by norm_num⟩, one_ne_zero⟩]

/-- The forecast may name a time at which the budget is still used up, since it is in whole
    microseconds. -/
theorem forecast_early : ∃ w, (@registryMachine sampleTexts samplePrincipal (· ≤ ·)).Reachable w ∧
    ∃ r, @State.deliveryOpportunity sampleTexts samplePrincipal w.state w.state.time = .ok r ∧
      ∃ t ∈ r.nextOpportunityAt, @State.refuses sampleTexts samplePrincipal w.state none t := by
  refine ⟨sampleWaiting, sampleWaiting_reachable _ fun _ _ h => h, ?_⟩
  obtain ⟨-, -, -, htime, hheld, hforecast⟩ := sampleWaiting_run
  rw [htime]
  cases hr : @State.deliveryOpportunity sampleTexts samplePrincipal sampleWaiting.state 1002 with
  | error e =>
    rw [hr] at hforecast
    cases hforecast
  | ok r =>
    rw [hr] at hforecast
    refine ⟨r, rfl, 1601, Option.some.inj hforecast, ?_⟩
    rw [@refuses_iff sampleTexts]
    exact hheld

end SmartHome.NativeEvents
