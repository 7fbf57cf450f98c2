/-
  What holds of an incident after the last map was requested for it, and how the actions keep it.
-/
import Mathlib.Tactic.Linarith
import SmartHome.ZigbeeRoutes.Nodes

namespace SmartHome.ZigbeeRoutes

open Verif

/-- What an incident says of its last transaction, and of the times that it was touched at.  `seen`
    tells which ends of that transaction were received. -/
structure Incident.Sound (r : Incident) (last : Transaction) (time : ℚ) (seen : Stage → Status → Prop) :
    Prop where
  completion : r.nativeCompletionState ≠ none
  pending : ∀ t, r.pendingTransaction = some t → t = last
  terminal : r.nativeCompletionState = some .terminal →
    r.pendingTransaction = none ∧ r.lastTerminalTransaction = some last ∧
      ∃ stage status, r.lastTerminalStage = some stage ∧ r.lastTerminalStatus = some status ∧
        seen stage status
  deadline : ∀ d, r.nextRetryAt = some d → last.now < d
  failure : ∃ f, r.lastFailureAt = some f ∧ last.now ≤ f ∧ f ≤ time
  recovered : ∀ q, r.recoveredAt = some q → q ≤ time
  closed : r.incidentOpen = false → ∃ q, r.recoveredAt = some q ∧ last.now < q

/-- What a message knows of the incident that it read. -/
structure Copy.Dated (m : Copy) (time : ℚ) : Prop where
  now : m.now ≤ time
  failure : ∀ f, m.current.lastFailureAt = some f → f ≤ m.now
  recovered : ∀ q, m.current.recoveredAt = some q → q ≤ m.now

variable {p : Policy} {m : Copy} {r n : Incident} {last t : Transaction} {time time' : ℚ}
  {seen seen' : Stage → Status → Prop} {c : Context}

theorem Incident.Sound.mono (h : r.Sound last time seen) (htime : time ≤ time')
    (hseen : ∀ stage status, seen stage status → seen' stage status) : r.Sound last time' seen' where
  completion := h.completion
  pending := h.pending
  terminal hterminal := by
    obtain ⟨hpending, hlast, stage, status, hstage, hstatus, hend⟩ := h.terminal hterminal
    exact ⟨hpending, hlast, stage, status, hstage, hstatus, hseen _ _ hend⟩
  deadline := h.deadline
  failure := by
    obtain ⟨f, hf, hlast, hle⟩ := h.failure
    exact ⟨f, hf, hlast, hle.trans htime⟩
  recovered q hq := (h.recovered q hq).trans htime
  closed := h.closed

theorem Incident.Sound.revise (h : r.Sound last time seen) (v : ℕ) :
    ({ r with revision := v } : Incident).Sound last time seen :=
  ⟨h.completion, h.pending, h.terminal, h.deadline, h.failure, h.recovered, h.closed⟩

/-- The transaction of a response that the incident knows is its last one. -/
theorem Incident.Sound.eq_last (h : r.Sound last time seen) (hcorrelates : r.correlates t) : t = last := by
  rcases hcorrelates with hpending | ⟨⟨-, hterminal⟩, hlast⟩
  · exact h.pending t hpending
  · obtain ⟨-, hlast', -⟩ := h.terminal hterminal
    exact Option.some.inj (hlast.symm.trans hlast')

theorem Incident.Sound.last_le_now (h : m.current.Sound last time seen) (hdated : m.Dated time') :
    last.now ≤ m.now := by
  obtain ⟨f, hf, hle, -⟩ := h.failure
  exact hle.trans (hdated.failure f hf)

theorem lt_retryAt (now : ℚ) : now < retryAt p now := by
  have : (1 : ℚ) ≤ p.routeRecoveryCooldownMin := by exact_mod_cast p.cooldown.1
  unfold retryAt
  linarith

/-! ## Actions -/

section
variable (h : m.current.Sound last time seen) (hdated : m.Dated time)
include h hdated

/-- The end of the last transaction is recorded. -/
theorem sound_proven {resp : Response} (hresponse : m.response = some resp) (hmatching : m.matching)
    (hseen : seen resp.stage resp.status) : m.proven.Sound last time seen where
  completion := Option.some_ne_none _
  pending t ht := by cases ht
  terminal _ := by
    obtain ⟨resp', hresp', hcorrelates⟩ := hmatching
    obtain rfl := Option.some.inj (hresponse.symm.trans hresp')
    have hlast := h.eq_last hcorrelates
    refine ⟨rfl, ?_, resp.stage, resp.status, ?_, ?_, hseen⟩ <;>
      simp [Copy.proven, Copy.stage, hresponse, hlast]
  deadline := h.deadline
  failure := h.failure
  recovered := h.recovered
  closed := h.closed

omit hdated in
/-- The end of the last transaction is in doubt. -/
theorem sound_unsure : m.unsure.Sound last time seen where
  completion := Option.some_ne_none _
  pending := h.pending
  terminal hterminal := by cases hterminal
  deadline := h.deadline
  failure := h.failure
  recovered := h.recovered
  closed := h.closed

omit h hdated in
/-- A touch changes the incident or what is left of it when its end is in doubt: a tick leaves it as
    it is, a failure is recorded. -/
theorem touch_spec (htouch : m.touch = some n) : ∃ u phase, (u = m.unsure ∨ u = m.current) ∧
    (phase = .failed ∨ phase = m.current.phase) ∧
      (n = u ∨ n = { u with
        lastFailureAt := some m.now
        lastError := m.error <|> m.current.lastError
        verificationStartedAt := none
        incidentOpen := m.current.incidentOpen || m.native.unproven
        phase := phase }) := by
  obtain ⟨u, hu⟩ : ∃ u, u = if m.native.expired = true ∧ m.native.unproven = true then m.unsure
    else m.current := ⟨_, rfl⟩
  have hbase : u = m.unsure ∨ u = m.current := by
    rw [hu]
    split_ifs
    · exact Or.inl rfl
    · exact Or.inr rfl
  unfold Copy.touch at htouch
  simp only [← hu] at htouch
  by_cases hquiet : m.tick = true ∧ (m.native.expired ≠ true ∨ m.native.unproven ≠ true ∨
      m.current.nativeCompletionState = some .unknown)
  · rw [if_pos hquiet] at htouch
    cases htouch
  rw [if_neg hquiet] at htouch
  by_cases htick : m.tick = true
  · rw [if_pos htick] at htouch
    exact ⟨u, _, hbase, Or.inl rfl, Or.inl (Option.some.inj htouch).symm⟩
  · rw [if_neg htick] at htouch
    refine ⟨u, _, hbase, ?_, Or.inr (Option.some.inj htouch).symm⟩
    split_ifs
    · exact Or.inl rfl
    · exact Or.inr rfl

theorem sound_touch (htouch : m.touch = some n) : n.Sound last time seen := by
  obtain ⟨u, phase, hu, -, hn⟩ := touch_spec htouch
  have hsound : u.Sound last time seen := by
    rcases hu with rfl | rfl
    · exact sound_unsure h
    · exact h
  have hopen : u.incidentOpen = m.current.incidentOpen := by rcases hu with rfl | rfl <;> rfl
  rcases hn with rfl | rfl
  · exact hsound
  · refine ⟨hsound.completion, hsound.pending, hsound.terminal, hsound.deadline,
      ⟨m.now, rfl, h.last_le_now hdated, hdated.now⟩, hsound.recovered, fun hclosed => hsound.closed ?_⟩
    rw [hopen]
    exact (Bool.or_eq_false_iff.1 hclosed).1

theorem sound_verify {resp : Response} (hresponse : m.response = some resp)
    (hseen : seen resp.stage resp.status) (hverify : m.verify = some n) : n.Sound last time seen := by
  unfold Copy.verify at hverify
  split_ifs at hverify with hfails
  push Not at hfails
  obtain rfl := Option.some.inj hverify
  have hproven := sound_proven h hdated hresponse hfails.1 hseen
  exact ⟨hproven.completion, hproven.pending, hproven.terminal, hproven.deadline, hproven.failure,
    hproven.recovered, hproven.closed⟩

theorem sound_recoveryFailed (hseen : ∀ resp, m.response = some resp →
    m.current.correlates resp.transaction → seen resp.stage resp.status) :
    (m.recoveryFailed p).Sound last time seen := by
  unfold Copy.recoveryFailed
  by_cases hmatching : m.matching
  · obtain ⟨resp, hresponse, hcorrelates⟩ := id hmatching
    have hproven := sound_proven h hdated hresponse hmatching (hseen resp hresponse hcorrelates)
    simp only [if_pos hmatching]
    refine ⟨hproven.completion, hproven.pending, hproven.terminal, fun d hd => ?_, hproven.failure,
      hproven.recovered, hproven.closed⟩
    replace hd : (if m.current.incidentOpen = true then some (retryAt p m.now)
      else m.current.nextRetryAt) = some d := hd
    split_ifs at hd
    · obtain rfl := Option.some.inj hd
      exact (h.last_le_now hdated).trans_lt (lt_retryAt _)
    · exact h.deadline d hd
  · have hunsure := sound_unsure h
    simp only [if_neg hmatching]
    exact ⟨hunsure.completion, hunsure.pending, hunsure.terminal, hunsure.deadline, hunsure.failure,
      hunsure.recovered, hunsure.closed⟩

/-- A recovery is after the last failure. -/
theorem sound_recovered (hlate : ∀ f, m.current.lastFailureAt = some f → f < m.now) :
    m.recovered.Sound last time seen := by
  have hbase : (if m.current.pendingTransaction.isSome ∨ m.native.terminal ≠ true then m.unsure
      else m.current).Sound last time seen := by
    split_ifs
    · exact sound_unsure h
    · exact h
  obtain ⟨f, hf, hlast, -⟩ := h.failure
  refine ⟨hbase.completion, hbase.pending, hbase.terminal, fun d hd => ?_, hbase.failure, fun q hq => ?_,
    fun _ => ⟨m.now, rfl, hlast.trans_lt (hlate f hf)⟩⟩
  · cases hd
  · exact (Option.some.inj hq).symm.trans_le hdated.now

end

/-- What the actions `open` and `retry` check, and what the incident is then. -/
structure Copy.Scans (p : Policy) (m : Copy) (again : Bool) (n : Incident) : Prop where
  idle : m.current.pendingTransaction = none
  done : m.current.nativeCompletionState ≠ none → m.native.terminal = true
  retried : again = true → m.native.terminal = true
  attempts : n.attempts = if again then m.current.attempts + 1 else 1
  bounded : n.attempts ≤ p.routeRecoveryMaxAttempts
  incidentOpen : n.incidentOpen = true
  phase : n.phase = .scanning
  pending : n.pendingTransaction = some ⟨m.route, m.now⟩
  completion : n.nativeCompletionState = some .pending
  deadline : n.nextRetryAt = some (retryAt p m.now)
  failure : n.lastFailureAt = some m.now
  recovered : n.recoveredAt = m.current.recoveredAt

theorem scan_spec {again : Bool} {t : Option Transaction} (hscan : m.scan p again = some (n, t)) :
    t = some ⟨m.route, m.now⟩ ∧ m.Scans p again n := by
  unfold Copy.scan at hscan
  simp only at hscan
  by_cases hbusy : m.current.pendingTransaction.isSome = true ∨
      (m.current.nativeCompletionState.isSome = true ∧ m.native.terminal ≠ true) ∨
        (again = true ∧ m.native.terminal ≠ true)
  · rw [if_pos hbusy] at hscan
    cases hscan
  rw [if_neg hbusy] at hscan
  push Not at hbusy
  obtain ⟨hpending, hdone, hagain⟩ := hbusy
  by_cases hcount : p.routeRecoveryMaxAttempts < if again = true then m.current.attempts + 1 else 1
  · rw [if_pos hcount] at hscan
    cases hscan
  rw [if_neg hcount] at hscan
  obtain ⟨hn, ht⟩ := Prod.mk.inj (Option.some.inj hscan)
  subst hn
  exact ⟨ht.symm, Option.not_isSome_iff_eq_none.1 hpending,
    fun h => hdone (Option.isSome_iff_ne_none.2 h), hagain, rfl, not_lt.1 hcount, rfl, rfl, rfl, rfl, rfl,
    rfl, rfl⟩

/-- What an incident is right after a map was requested. -/
theorem sound_scan {again : Bool} (hdated : m.Dated time) (hscans : m.Scans p again n) :
    n.Sound ⟨m.route, m.now⟩ time seen where
  completion := by rw [hscans.completion]; exact Option.some_ne_none _
  pending t ht := Option.some.inj (ht.symm.trans hscans.pending)
  terminal hterminal := by rw [hscans.completion] at hterminal; cases hterminal
  deadline d hd := by
    obtain rfl := Option.some.inj (hd.symm.trans hscans.deadline)
    exact lt_retryAt _
  failure := ⟨m.now, hscans.failure, le_rfl, hdated.now⟩
  recovered q hq := (hdated.recovered q (hscans.recovered ▸ hq)).trans hdated.now
  closed hclosed := by rw [hscans.incidentOpen] at hclosed; cases hclosed

end SmartHome.ZigbeeRoutes
