/-
  The recovery of routes along its runs.
-/
import SmartHome.ZigbeeRoutes.Recovery

namespace SmartHome.ZigbeeRoutes

open Verif

variable {p : Policy} {c c' : Context} {k : Route} {r n : Incident} {m : Copy} {a : Action}
  {t last : Transaction} {time now : ℚ} {history : List (Handled Context Message)}

/-! ## Reading -/

theorem ne_idle_of_correlates (h : r.correlates t) : r ≠ .idle := by
  rintro rfl
  rcases h with hpending | ⟨⟨-, hterminal⟩, -⟩
  · cases hpending
  · cases hterminal

/-- A stored incident dates from before now. -/
theorem Follows.dated (h : Follows p c time history) (k : Route) :
    (∀ f, (c.current k).lastFailureAt = some f → f ≤ time) ∧
      ∀ q, (c.current k).recoveredAt = some q → q ≤ time := by
  cases hr : c.incident k with
  | none =>
    have hidle : c.current k = .idle := by
      unfold Context.current
      rw [hr]
      rfl
    rw [hidle]
    exact ⟨fun f hf => (Option.some_ne_none f hf.symm).elim, fun q hq => (Option.some_ne_none q hq.symm).elim⟩
  | some r =>
    rw [current_of_incident hr]
    obtain ⟨last, htracked⟩ := h.tracked k r hr
    refine ⟨fun f hf => ?_, htracked.sound.recovered⟩
    obtain ⟨f', hf', -, hle⟩ := htracked.sound.failure
    obtain rfl := Option.some.inj (hf.symm.trans hf')
    exact hle

/-- A copy that is made now. -/
theorem Follows.kept (h : Follows p c time history) (hnow : m.now = time)
    (hcurrent : m.current = c.current m.route) (hrevision : m.revision = m.current.revision) :
    m.Kept c time := by
  obtain ⟨hfailure, hrecovered⟩ := h.dated m.route
  rw [← hcurrent] at hfailure hrecovered
  exact ⟨⟨hnow.le, fun f hf => hnow ▸ hfailure f hf, fun q hq => hnow ▸ hrecovered q hq⟩, hrevision,
    (hrevision.trans (congrArg Incident.revision hcurrent)).le, fun _ => hcurrent⟩

/-- What a valid response says. -/
theorem normalize_spec {reply : Reply} (h : Follows p c now history)
    (hnormalize : normalize now reply c = some m) : m.Kept c now ∧ ∃ resp, m.response = some resp ∧
      m.current.correlates resp.transaction ∧ reply.retain ≠ true ∧
        reply.transaction = some resp.transaction ∧ reply.topic = some resp.stage ∧
          reply.status = some resp.status := by
  unfold normalize at hnormalize
  simp only [Option.bind_eq_bind, Option.bind_eq_some_iff] at hnormalize
  obtain ⟨t, ht, ⟨key, v⟩, hfind, topic, htopic, status, hstatus, hvalid⟩ := hnormalize
  simp only at hvalid
  split_ifs at hvalid with hcheck
  obtain rfl := Option.some.inj hvalid
  have hmem := List.mem_of_find?_eq_some hfind
  have hcorrelates : v.correlates t := by simpa using List.find?_some hfind
  have hincident : c.current ⟨t.route.test, key⟩ = v := current_of_incident (incident_of_mem h.keys hmem)
  exact ⟨h.kept rfl hincident.symm rfl, _, rfl, hcorrelates, hcheck.1, ht, htopic, hstatus⟩

theorem decided_of_decision (hreported : m.Reported) (hno : ¬ m.verified p c) :
    (m.decision p).Decided p m history := by
  have hidle : m.current.unresolved → m.current ≠ .idle := by
    intro hunresolved hidle
    rw [hidle] at hunresolved
    rcases hunresolved with h | h | h <;> cases h
  have hopen : m.current.incidentOpen = true → m.current ≠ .idle := by
    intro hopen hidle
    rw [hidle] at hopen
    cases hopen
  unfold Copy.decision
  simp only
  split_ifs with hunresolved hclosed hdue hcount hterminal hexhausted
  · exact hidle hunresolved
  · exact ⟨hreported, by simpa using hclosed⟩
  · obtain ⟨d, hd, hle⟩ := hdue
    refine ⟨hreported, d, ?_, hle⟩
    rw [hreported.deadline] at hd
    exact (Option.filter_eq_some_iff.1 hd).1
  all_goals have hcurrent := hopen (not_not.1 hclosed)
  · exact hcurrent
  · refine ⟨hcurrent, fun resp hresp => ?_⟩
    rw [hreported.response] at hresp
    cases hresp
  · exact hcurrent
  · exact hcurrent

/-- A recovery that was verified is after the last failure. -/
theorem lt_now_of_verified (hverified : m.verified p c) :
    m.current ≠ .idle ∧ ∀ f, m.current.lastFailureAt = some f → f < m.now := by
  obtain ⟨-, hopen, started, -, hstable, -⟩ := hverified
  refine ⟨fun hidle => ?_, fun f hf => ?_⟩
  · rw [hidle] at hopen
    cases hopen
  have hstability : (60 : ℚ) ≤ p.routeStabilityS := by exact_mod_cast p.stability.1
  have hwindow : f ≤ m.windowStart c started := by
    unfold Copy.windowStart
    rw [hf]
    exact (le_max_right _ _).trans (le_max_left _ _)
  linarith

/-! ## Writing -/

theorem stateMutate_spec (p : Policy) (a : Action) (m : Copy) (c : Context) :
    stateMutate p a m c = (c, []) ∨ ∃ n t, m.revision = (c.current m.route).revision ∧
      m.mutate p a = some (n, t) ∧
        stateMutate p a m c = (c.put m.route { n with revision := m.current.revision + 1 },
          (t.map Message.networkmap).toList) := by
  unfold stateMutate
  by_cases hrevision : ((c.incident m.route).getD .idle).revision ≠ m.revision
  · rw [if_pos hrevision]
    exact Or.inl rfl
  rw [if_neg hrevision]
  cases hmutate : m.mutate p a with
  | none => exact Or.inl rfl
  | some out =>
    obtain ⟨n, t⟩ := out
    exact Or.inr ⟨n, t, (not_not.1 hrevision).symm, rfl, rfl⟩

/-- The actions other than `open` and `retry`. -/
theorem mutate_spec {t : Option Transaction} (hmutate : m.mutate p a = some (n, t)) :
    (∃ again, m.scan p again = some (n, t) ∧ a = if again then .retry else .opening) ∨
      t = none ∧ ((a = .touch ∧ m.touch = some n) ∨ (a = .verify ∧ m.verify = some n) ∨
        (a = .recoveryFailed ∧ n = m.recoveryFailed p) ∨ (a = .recovered ∧ n = m.recovered)) := by
  cases a with
  | opening => exact Or.inl ⟨false, hmutate, rfl⟩
  | retry => exact Or.inl ⟨true, hmutate, rfl⟩
  | touch =>
    obtain ⟨n', hn', heq⟩ := Option.map_eq_some_iff.1 hmutate
    obtain ⟨rfl, rfl⟩ := Prod.mk.inj heq
    exact Or.inr ⟨rfl, Or.inl ⟨rfl, hn'⟩⟩
  | verify =>
    obtain ⟨n', hn', heq⟩ := Option.map_eq_some_iff.1 hmutate
    obtain ⟨rfl, rfl⟩ := Prod.mk.inj heq
    exact Or.inr ⟨rfl, Or.inr (Or.inl ⟨rfl, hn'⟩)⟩
  | recoveryFailed =>
    obtain ⟨rfl, rfl⟩ := Prod.mk.inj (Option.some.inj hmutate)
    exact Or.inr ⟨rfl, Or.inr (Or.inr (Or.inl ⟨rfl, rfl⟩))⟩
  | recovered =>
    obtain ⟨rfl, rfl⟩ := Prod.mk.inj (Option.some.inj hmutate)
    exact Or.inr ⟨rfl, Or.inr (Or.inr (Or.inr ⟨rfl, rfl⟩))⟩

/-- The other actions leave the number of attempts alone, and do not start a scan. -/
theorem attempts_kept (h : (a = .touch ∧ m.touch = some n) ∨ (a = .verify ∧ m.verify = some n) ∨
    (a = .recoveryFailed ∧ n = m.recoveryFailed p) ∨ (a = .recovered ∧ n = m.recovered)) :
    n.attempts = m.current.attempts ∧ (n.phase = .scanning → m.current.phase = .scanning) := by
  rcases h with ⟨-, htouch⟩ | ⟨-, hverify⟩ | ⟨-, rfl⟩ | ⟨-, rfl⟩
  · obtain ⟨u, phase, hu, hphase, hn⟩ := touch_spec htouch
    have hbase : u.attempts = m.current.attempts ∧ u.phase = m.current.phase := by
      rcases hu with rfl | rfl <;> exact ⟨rfl, rfl⟩
    rcases hn with rfl | rfl
    · exact ⟨hbase.1, fun h => hbase.2 ▸ h⟩
    · refine ⟨hbase.1, fun h => ?_⟩
      rcases hphase with rfl | rfl
      · cases h
      · exact h
  · unfold Copy.verify at hverify
    split_ifs at hverify
    obtain rfl := Option.some.inj hverify
    exact ⟨rfl, fun h => by cases h⟩
  · unfold Copy.recoveryFailed
    by_cases hmatching : m.matching
    · simp only [if_pos hmatching]
      refine ⟨rfl, fun h => ?_⟩
      split_ifs at h
      exact h
    · simp only [if_neg hmatching]
      exact ⟨rfl, id⟩
  · refine ⟨?_, fun h => by cases h⟩
    unfold Copy.recovered
    simp only
    split_ifs <;> rfl

/-- The incident after another action. -/
theorem sound_of_mutate (hsound : m.current.Sound last time (Seen p last history)) (hdated : m.Dated time)
    (hdecided : a.Decided p m history)
    (h : (a = .touch ∧ m.touch = some n) ∨ (a = .verify ∧ m.verify = some n) ∨
      (a = .recoveryFailed ∧ n = m.recoveryFailed p) ∨ (a = .recovered ∧ n = m.recovered)) :
    n.Sound last time (Seen p last history) := by
  rcases h with ⟨rfl, htouch⟩ | ⟨rfl, hverify⟩ | ⟨rfl, rfl⟩ | ⟨rfl, rfl⟩
  · exact sound_touch hsound hdated htouch
  · obtain ⟨resp, hresponse, hcorrelates, hseen⟩ := hdecided
    rw [hsound.eq_last hcorrelates] at hseen
    exact sound_verify hsound hdated hresponse hseen hverify
  · refine sound_recoveryFailed hsound hdated fun resp hresponse hcorrelates => ?_
    have hseen := hdecided.2 resp hresponse
    rw [hsound.eq_last hcorrelates] at hseen
    exact hseen
  · exact sound_recovered hsound hdated hdecided.2.2

/-! ## Steps -/

/-- Nothing is requested, and nothing is opened. -/
def Silent (p : Policy) (k : Route) (x : Handled Context Message) : Prop :=
  (x.sent (nodes p)).filterMap (Message.requestOf k) = [] ∧
    (x.sent (nodes p)).filterMap (Message.configureOf k) = [] ∧ ¬ Opens p k x

variable {x : Handled Context Message}

theorem silent_of_sent_nil (h : x.sent (nodes p) = []) : Silent p k x := by
  refine ⟨by rw [h]; rfl, by rw [h]; rfl, fun hopens => ?_⟩
  obtain ⟨m, -, -, hsent⟩ := hopens
  exact hsent h

theorem careful_of_silent (h : ∀ k, Silent p k x) : Careful p history x := by
  have hrequest : ∀ t, .networkmap t ∉ x.sent (nodes p) := by
    intro t ht
    have hmem : t ∈ (x.sent (nodes p)).filterMap (Message.requestOf t.route) :=
      List.mem_filterMap.2 ⟨_, ht, if_pos rfl⟩
    rw [(h t.route).1] at hmem
    cases hmem
  refine ⟨fun t ht => absurd ht (hrequest t), fun t ht => absurd ht (hrequest t), fun d t ht => ?_⟩
  have hmem : t ∈ (x.sent (nodes p)).filterMap (Message.configureOf t.route) :=
    List.mem_filterMap.2 ⟨_, ht, if_pos rfl⟩
  rw [(h t.route).2.1] at hmem
  cases hmem

theorem no_opens_of_untouched (h : requests p k history = []) : ∀ y ∈ history, ¬ Opens p k y := by
  intro y hy hopens
  obtain ⟨m, hm, hroute, hsent⟩ := hopens
  obtain ⟨message, now, c⟩ := y
  obtain rfl : message = .stateMutate .opening m := hm
  rcases stateMutate_spec p .opening m c with hnone | ⟨n, t, -, hmutate, hout⟩
  · exact hsent (congrArg Prod.snd hnone)
  · have hscan : m.scan p false = some (n, t) := hmutate
    obtain ⟨rfl, -⟩ := scan_spec hscan
    have hmem : Message.networkmap ⟨m.route, m.now⟩ ∈ history.flatMap (Handled.sent (nodes p)) := by
      refine List.mem_flatMap.2 ⟨_, hy, ?_⟩
      show _ ∈ (stateMutate p .opening m c).2
      rw [hout]
      exact List.mem_singleton_self _
    have hrequest : (⟨m.route, m.now⟩ : Transaction) ∈ requests p k history :=
      List.mem_filterMap.2 ⟨_, hmem, if_pos hroute⟩
    rw [h] at hrequest
    cases hrequest

theorem Follows.counted (h : Follows p c time history) : Counted p c history := by
  intro k before x after hsplit hopens hlast
  cases hincident : c.incident k with
  | none =>
    refine absurd hopens (no_opens_of_untouched (h.untouched k hincident).1 x ?_)
    rw [hsplit]
    exact List.mem_append_right _ List.mem_cons_self
  | some r =>
    obtain ⟨last, htracked⟩ := h.tracked k r hincident
    exact ⟨r, rfl, htracked.attempts before x after hsplit hopens hlast, htracked.bounded⟩

/-- Nothing changes. -/
theorem Follows.silent (h : Follows p c time history) (hcontext : x.context = c) (hsilent : ∀ k, Silent p k x) :
    Follows p c time (history ++ [x]) where
  keys := h.keys
  untouched k hk := by
    obtain ⟨hrequests, hconfigures⟩ := h.untouched k hk
    rw [requests_concat, configures_concat, (hsilent k).1, (hsilent k).2.1, hrequests, hconfigures]
    exact ⟨rfl, rfl⟩
  tracked k r hr := by
    obtain ⟨last, htracked⟩ := h.tracked k r hr
    exact ⟨last, htracked.concat (hsilent k).1 (hsilent k).2.1 (hsilent k).2.2⟩
  careful := h.careful.concat ⟨careful_of_silent hsilent, hcontext ▸ h.counted⟩

/-- The incident of one route changes. -/
theorem Follows.put (h : Follows p c time history) (hcontext : x.context = c)
    (hcareful : Careful p history x) (hsilent : ∀ k', k' ≠ k → Silent p k' x) (htracked : Tracked p k n time (history ++ [x]) last) :
    Follows p (c.put k n) time (history ++ [x]) where
  keys := nodup_put h.keys
  untouched k' hk' := by
    rw [incident_put] at hk'
    split_ifs at hk' with heq
    obtain ⟨hrequests, hconfigures⟩ := h.untouched k' hk'
    obtain ⟨hno, hno', -⟩ := hsilent k' heq
    rw [requests_concat, configures_concat, hno, hno', hrequests, hconfigures]
    exact ⟨rfl, rfl⟩
  tracked k' r hr := by
    rw [incident_put] at hr
    split_ifs at hr with heq
    · obtain rfl := Option.some.inj hr
      exact ⟨last, heq ▸ htracked⟩
    · obtain ⟨last', htracked'⟩ := h.tracked k' r hr
      obtain ⟨hno, hno', hopens⟩ := hsilent k' heq
      exact ⟨last', htracked'.concat hno hno' hopens⟩
  careful := h.careful.concat ⟨hcareful, hcontext ▸ h.counted⟩

/-- Only a missing incident is opened. -/
theorem ne_idle_of_decided (hdecided : a.Decided p m history) (ha : a ≠ .opening) : m.current ≠ .idle := by
  cases a with
  | opening => exact absurd rfl ha
  | retry =>
    obtain ⟨-, d, hd, -⟩ := hdecided
    intro hidle
    rw [hidle] at hd
    cases hd
  | touch => exact hdecided
  | verify =>
    obtain ⟨r, hanswered⟩ := hdecided
    exact ne_idle_of_correlates hanswered.correlates
  | recoveryFailed => exact hdecided.1
  | recovered => exact hdecided.1

/-- A new transaction is later than the last one. -/
theorem lt_now_of_decided {again : Bool} (hsound : m.current.Sound last time (Seen p last history))
    (hdated : m.Dated time) (ha : a = if again then .retry else .opening) (hdecided : a.Decided p m history) :
    last.now < m.now := by
  cases again with
  | false =>
    obtain rfl : a = .opening := ha
    obtain ⟨q, hq, hlt⟩ := hsound.closed hdecided.2
    exact hlt.trans_le (hdated.recovered q hq)
  | true =>
    obtain rfl : a = .retry := ha
    obtain ⟨-, d, hd, hle⟩ := hdecided
    exact (hsound.deadline d hd).trans_le hle

theorem reported_of_scan {again : Bool} (ha : a = if again then .retry else .opening)
    (hdecided : a.Decided p m history) : m.Reported := by
  cases again with
  | false =>
    obtain rfl : a = .opening := ha
    exact hdecided.1
  | true =>
    obtain rfl : a = .retry := ha
    exact hdecided.1

/-- A map is requested with care. -/
theorem careful_of_scans {again : Bool} (h : Follows p c time history) (hcurrent : m.current = c.current m.route)
    (hreported : m.Reported) (hscans : m.Scans p again n) (hcontext : x.context = c)
    (hsent : x.sent (nodes p) = [.networkmap ⟨m.route, m.now⟩]) : Careful p history x := by
  have heq : ∀ t, .networkmap t ∈ x.sent (nodes p) → t = ⟨m.route, m.now⟩ := by
    intro t ht
    rw [hsent] at ht
    exact Message.networkmap.inj (List.mem_singleton.1 ht)
  have hr : ∀ r, c.incident m.route = some r → m.current = r := fun r hr =>
    hcurrent.trans (current_of_incident hr)
  refine ⟨fun t ht r hincident => ?_, fun t ht last hlast => ?_, fun d t ht => ?_⟩
  · obtain rfl := heq t ht
    rw [hcontext] at hincident
    rw [← hr r hincident]
    exact hscans.idle
  · obtain rfl := heq t ht
    rw [hcontext]
    cases hincident : c.incident m.route with
    | none =>
      rw [(h.untouched _ hincident).1] at hlast
      cases hlast
    | some r =>
      obtain ⟨last', htracked⟩ := h.tracked _ _ hincident
      obtain rfl := Option.some.inj (hlast.symm.trans htracked.newest)
      -- the copy has seen the end of the last transaction
      have hdone := hscans.done (by rw [hr r hincident]; exact htracked.sound.completion)
      rw [hreported.native] at hdone
      have hterminal : m.current.terminal := of_decide_eq_true hdone
      rw [hr r hincident] at hterminal
      obtain ⟨-, hlast', stage, status, hstage, hstatus, hseen⟩ := htracked.sound.terminal hterminal.1
      exact ⟨r, stage, status, rfl, hterminal.1, hlast', hstage, hstatus, hseen⟩
  · rw [hsent] at ht
    cases List.mem_singleton.1 ht

/-- The map of a route is requested. -/
theorem follows_scan {again : Bool} (h : Follows p c time history) (hkept : m.Kept c time)
    (hcurrent : m.current = c.current m.route) (ha : a = if again then .retry else .opening)
    (hdecided : a.Decided p m history) (hscans : m.Scans p again n)
    (hsent : Handled.sent (nodes p) ⟨.stateMutate a m, time, c⟩ = [.networkmap ⟨m.route, m.now⟩]) :
    Follows p (c.put m.route { n with revision := m.current.revision + 1 }) time
      (history ++ [⟨.stateMutate a m, time, c⟩]) := by
  have hcareful : Careful p history ⟨.stateMutate a m, time, c⟩ :=
    careful_of_scans h hcurrent (reported_of_scan ha hdecided) hscans rfl hsent
  have hopens : Opens p m.route ⟨.stateMutate a m, time, c⟩ ↔ again = false := by
    constructor
    · intro hopens
      obtain ⟨m', hm', -⟩ := hopens
      obtain ⟨rfl, -⟩ := Message.stateMutate.inj hm'
      cases again with
      | false => rfl
      | true => cases ha
    · rintro rfl
      obtain rfl : a = .opening := ha
      exact ⟨m, rfl, rfl, by rw [hsent]; exact List.cons_ne_nil _ _⟩
  have hrevision : m.current.revision + 1 ≠ 0 := Nat.succ_ne_zero _
  have htracked : Tracked p m.route { n with revision := m.current.revision + 1 } time
      (history ++ [⟨.stateMutate a m, time, c⟩]) ⟨m.route, m.now⟩ := by
    have hsound : ({ n with revision := m.current.revision + 1 } : Incident).Sound ⟨m.route, m.now⟩ time
        (Seen p ⟨m.route, m.now⟩ (history ++ [⟨.stateMutate a m, time, c⟩])) :=
      (sound_scan hkept.toDated hscans).revise _
    cases hincident : c.incident m.route with
    | none =>
      have hidle : m.current = .idle := by
        rw [hcurrent, Context.current, hincident]
        rfl
      have hfirst : again = false := by
        by_contra hagain
        rw [Bool.not_eq_false] at hagain
        subst hagain
        obtain rfl : a = .retry := ha
        exact ne_idle_of_decided hdecided (fun h => by cases h) hidle
      have hattempts : n.attempts = 1 := by rw [hscans.attempts, hfirst]; rfl
      exact tracked_first (h.untouched _ hincident) hsound hsent rfl hattempts hscans.bounded
        (no_opens_of_untouched (h.untouched _ hincident).1) hrevision
    | some r =>
      obtain ⟨last, htracked⟩ := h.tracked _ _ hincident
      obtain rfl : m.current = r := hcurrent.trans (current_of_incident hincident)
      have hlater := lt_now_of_decided htracked.sound hkept.toDated ha hdecided
      refine htracked.request hsound hsent rfl hlater hscans.bounded (fun hyes => ?_) (fun hno => ?_) hrevision
      · exact hscans.attempts.trans (by rw [hopens.1 hyes]; rfl)
      · have hagain : again = true := Bool.of_not_eq_false fun hfirst => hno (hopens.2 hfirst)
        exact hscans.attempts.trans (by rw [hagain]; rfl)
  refine h.put rfl hcareful (fun k' hk' => ?_) htracked
  refine ⟨?_, by rw [hsent]; rfl, fun hno => ?_⟩
  · rw [hsent, requestOf_networkmap]
    exact if_neg fun heq => hk' heq.symm
  · obtain ⟨m', hm', hroute, -⟩ := hno
    obtain ⟨-, rfl⟩ := Message.stateMutate.inj hm'
    exact hk' hroute.symm

/-- **An action keeps what holds of the incidents.** -/
theorem follows_stateMutate (h : Follows p c time history) (hkept : m.Kept c time)
    (hdecided : a.Decided p m history) :
    Follows p (stateMutate p a m c).1 time (history ++ [⟨.stateMutate a m, time, c⟩]) := by
  rcases stateMutate_spec p a m c with hnone | ⟨n, t, hrevision, hmutate, hout⟩
  · rw [hnone]
    exact h.silent rfl fun k => silent_of_sent_nil (congrArg Prod.snd hnone)
  have hcurrent := hkept.same hrevision
  have hsent : Handled.sent (nodes p) ⟨.stateMutate a m, time, c⟩ = (t.map Message.networkmap).toList :=
    congrArg Prod.snd hout
  rw [hout]
  rcases mutate_spec hmutate with ⟨again, hscan, ha⟩ | ⟨rfl, hother⟩
  · obtain ⟨rfl, hscans⟩ := scan_spec hscan
    exact follows_scan h hkept hcurrent ha hdecided hscans hsent
  · have hsilent : ∀ k, Silent p k ⟨.stateMutate a m, time, c⟩ := fun k => silent_of_sent_nil hsent
    have ha : a ≠ .opening := by
      rintro rfl
      rcases hother with ⟨h, -⟩ | ⟨h, -⟩ | ⟨h, -⟩ | ⟨h, -⟩ <;> cases h
    cases hincident : c.incident m.route with
    | none =>
      refine absurd ?_ (ne_idle_of_decided hdecided ha)
      rw [hcurrent, Context.current, hincident]
      rfl
    | some r =>
      obtain ⟨last, htracked⟩ := h.tracked _ _ hincident
      obtain rfl : m.current = r := hcurrent.trans (current_of_incident hincident)
      obtain ⟨hattempts, hphase⟩ := attempts_kept hother
      have hsound := (sound_of_mutate htracked.sound hkept.toDated hdecided hother).revise
        (m.current.revision + 1)
      obtain ⟨hno, hno', hopens⟩ := hsilent m.route
      exact h.put rfl (careful_of_silent hsilent) (fun k' _ => hsilent k')
        ((htracked.replace hsound hattempts hphase (Nat.succ_ne_zero _)).concat hno hno' hopens)

/-! ## The device is configured -/

theorem configureRequestBuild_spec (m : Copy) (c : Context) : configureRequestBuild m c = (c, []) ∨
    ∃ r resp n, c.incident m.route = some r ∧ m.response = some resp ∧ r.phase = .scanning ∧
      r.pendingTransaction = some resp.transaction ∧ resp.stage = .networkmap ∧ resp.status = .ok ∧
        configureRequestBuild m c = (c.put m.route n, [.configure m.device resp.transaction]) ∧
          n.phase ≠ .scanning ∧ n.attempts = r.attempts ∧ n.revision = r.revision + 1 ∧
            ∀ last time seen, r.Sound last time seen → n.Sound last time seen := by
  unfold configureRequestBuild
  split
  · rename_i r resp hr hresp
    split_ifs with hcheck
    · obtain ⟨hphase, hpending, -, hstatus, hstage, -⟩ := hcheck
      refine Or.inr ⟨r, resp, _, hr, hresp, hphase, hpending, hstage, hstatus, rfl, Phase.noConfusion, rfl,
        rfl, fun last time seen h => ?_⟩
      refine ⟨Option.some_ne_none _, h.pending, fun hterminal => ?_, h.deadline, h.failure, h.recovered,
        h.closed⟩
      cases hterminal
    · exact Or.inl rfl
  · exact Or.inl rfl

/-- **Configuring the device keeps what holds of the incidents.** -/
theorem follows_configureRequestBuild {resp : Response} (h : Follows p c time history)
    (hanswered : m.Answered p history resp) : Follows p (configureRequestBuild m c).1 time
      (history ++ [⟨.configureRequestBuild m, time, c⟩]) := by
  rcases configureRequestBuild_spec m c with hnone | ⟨r, resp', n, hr, hresponse, hphase, hpending, hstage,
    hstatus, hout, hn, hattempts, hrevision, hsound⟩
  · rw [hnone]
    exact h.silent rfl fun k => silent_of_sent_nil (congrArg Prod.snd hnone)
  obtain rfl := Option.some.inj (hanswered.response.symm.trans hresponse)
  obtain ⟨last, htracked⟩ := h.tracked _ _ hr
  have hlast : resp.transaction = last := htracked.sound.pending _ hpending
  have hroute : last.route = m.route := route_of_mem_requests (List.mem_of_getLast? htracked.newest)
  have hsent : Handled.sent (nodes p) ⟨.configureRequestBuild m, time, c⟩ = [.configure m.device last] :=
    (congrArg Prod.snd hout).trans (by rw [hlast])
  have hseen := hanswered.seen
  rw [hlast, hstage, hstatus] at hseen
  have hopens : ∀ k, ¬ Opens p k ⟨.configureRequestBuild m, time, c⟩ := by
    intro k hopens
    obtain ⟨m', hm', -⟩ := hopens
    cases hm'
  rw [hout]
  refine h.put rfl ⟨fun t ht => ?_, fun t ht => ?_, fun d t ht => ?_⟩ (fun k' hk' => ⟨by rw [hsent]; rfl, ?_, hopens k'⟩)
    (htracked.configure (hsound _ _ _ htracked.sound) hsent (hopens _) hphase hn hattempts
      (hrevision ▸ Nat.succ_ne_zero _))
  · rw [hsent] at ht
    cases List.mem_singleton.1 ht
  · rw [hsent] at ht
    cases List.mem_singleton.1 ht
  · rw [hsent] at ht
    obtain ⟨-, rfl⟩ := Message.configure.inj (List.mem_singleton.1 ht)
    rw [hroute]
    exact ⟨htracked.scanning hphase, htracked.newest, hseen⟩
  · rw [hsent, configureOf_configure]
    exact if_neg fun heq => hk' (heq.symm.trans hroute)

/-! ## Messages that wait -/

/-- The incidents only get newer. -/
def Newer (c c' : Context) : Prop :=
  ∀ k, (c.current k).revision ≤ (c'.current k).revision ∧
    ((c.current k).revision = (c'.current k).revision → c'.current k = c.current k)

theorem newer_refl : Newer c c := fun _ => ⟨le_rfl, fun _ => rfl⟩

theorem newer_put (hrevision : n.revision = (c.current k).revision + 1) : Newer c (c.put k n) := by
  intro k'
  unfold Context.current at hrevision ⊢
  rw [incident_put]
  split_ifs with heq
  · subst heq
    rw [Option.getD_some]
    exact ⟨by omega, fun h => by omega⟩
  · exact ⟨le_rfl, fun _ => rfl⟩

theorem Copy.Kept.newer (h : m.Kept c time) (hnewer : Newer c c') : m.Kept c' time := by
  obtain ⟨hle, heq⟩ := hnewer m.route
  refine ⟨h.toDated, h.revision, h.older.trans hle, fun hsame => ?_⟩
  have holder := h.older
  have hmiddle : m.revision = (c.current m.route).revision := by omega
  rw [heq (hmiddle.symm.trans hsame)]
  exact h.same hmiddle

theorem Action.Decided.concat (h : a.Decided p m history) : a.Decided p m (history ++ [x]) := by
  cases a with
  | verify =>
    obtain ⟨r, hresponse, hcorrelates, hseen⟩ := h
    exact ⟨r, hresponse, hcorrelates, hseen.concat⟩
  | recoveryFailed => exact ⟨h.1, fun r hr => (h.2 r hr).concat⟩
  | _ => exact h

theorem newer_of_fits {message : Message} (hfits : Fits p message c time history) :
    Newer c (nodes p time message c).1 := by
  cases message with
  | stateMutate a m =>
    show Newer c (stateMutate p a m c).1
    rcases stateMutate_spec p a m c with hnone | ⟨n, t, hrevision, -, hout⟩
    · rw [hnone]
      exact newer_refl
    · rw [hout]
      exact newer_put (by rw [← hrevision, hfits.1.revision])
  | configureRequestBuild m =>
    show Newer c (configureRequestBuild m c).1
    rcases configureRequestBuild_spec m c with hnone | ⟨r, resp, n, hr, -, -, -, -, -, hout, -, -, hrevision, -⟩
    · rw [hnone]
      exact newer_refl
    · rw [hout]
      exact newer_put (by rw [hrevision, current_of_incident hr])
  | report r => exact newer_refl
  | verification m => exact newer_refl
  | response source r => exact newer_refl
  | networkmap t => exact newer_refl
  | configure d t => exact newer_refl

theorem Fits.later {message : Message} {time' : ℚ} (hfits : Fits p message c time history)
    (hnewer : Newer c c') (htime : time ≤ time') : Fits p message c' time' history := by
  have hkept : ∀ m : Copy, m.Kept c time → m.Kept c' time' := by
    intro m h
    obtain ⟨⟨hnow, hfailure, hrecovered⟩, hrevision, holder, hsame⟩ := h.newer hnewer
    exact ⟨⟨hnow.trans htime, hfailure, hrecovered⟩, hrevision, holder, hsame⟩
  cases message with
  | verification m => exact ⟨hkept m hfits.1, hfits.2⟩
  | stateMutate a m => exact ⟨hkept m hfits.1, hfits.2⟩
  | configureRequestBuild m => exact ⟨hkept m hfits.1, hfits.2⟩
  | _ => trivial

theorem Fits.concat {message : Message} (hfits : Fits p message c time history) :
    Fits p message c time (history ++ [x]) := by
  cases message with
  | verification m => exact hfits
  | stateMutate a m => exact ⟨hfits.1, hfits.2.concat⟩
  | configureRequestBuild m =>
    obtain ⟨hkept, r, hresponse, hcorrelates, hseen⟩ := hfits
    exact ⟨hkept, r, hresponse, hcorrelates, hseen.concat⟩
  | _ => trivial

/-! ## The flow -/

/-- What is read sends no request. -/
theorem silent_of_read {message : Message} (hm : ∀ m, message ≠ .stateMutate .opening m)
    (hsent : ∀ o ∈ Handled.sent (nodes p) ⟨message, time, c⟩, (∃ m, o = .verification m) ∨
      (∃ a m, o = .stateMutate a m) ∨ ∃ m, o = .configureRequestBuild m) :
    Silent p k ⟨message, time, c⟩ := by
  refine ⟨List.filterMap_eq_nil_iff.2 fun o ho => ?_, List.filterMap_eq_nil_iff.2 fun o ho => ?_, fun hopens => ?_⟩
  · rcases hsent o ho with ⟨m, rfl⟩ | ⟨a, m, rfl⟩ | ⟨m, rfl⟩ <;> rfl
  · rcases hsent o ho with ⟨m, rfl⟩ | ⟨a, m, rfl⟩ | ⟨m, rfl⟩ <;> rfl
  · obtain ⟨m, h, -⟩ := hopens
    exact hm m h

theorem responseSwitch_cases (source : Stage) (m : Copy) : (responseSwitch source m = .configureRequestBuild m) ∨
    responseSwitch source m = .stateMutate .verify m ∨
      responseSwitch source m = .stateMutate .recoveryFailed m := by
  unfold responseSwitch
  split_ifs
  · cases source
    · exact Or.inl rfl
    · exact Or.inr (Or.inl rfl)
  · exact Or.inr (Or.inr rfl)

theorem follows_handle {message : Message} (h : Follows p c time history)
    (hfits : Fits p message c time history) :
    Follows p (nodes p time message c).1 time (history ++ [⟨message, time, c⟩]) := by
  cases message with
  | stateMutate a m => exact follows_stateMutate h hfits.1 hfits.2
  | configureRequestBuild m =>
    obtain ⟨-, r, hanswered⟩ := hfits
    exact follows_configureRequestBuild h hanswered
  | report r =>
    refine h.silent rfl fun k => silent_of_read (fun m h => by cases h) fun o ho => ?_
    exact Or.inl ⟨_, List.mem_singleton.1 ho⟩
  | verification m =>
    refine h.silent rfl fun k => silent_of_read (fun m h => by cases h) fun o ho => ?_
    exact Or.inr (Or.inl ⟨_, _, List.mem_singleton.1 ho⟩)
  | response source r =>
    refine h.silent rfl fun k => silent_of_read (fun m h => by cases h) fun o ho => ?_
    obtain ⟨m, -, rfl⟩ := Option.map_eq_some_iff.1 (Option.mem_toList.1 ho)
    rcases responseSwitch_cases source m with heq | heq | heq <;> rw [heq]
    · exact Or.inr (Or.inr ⟨_, rfl⟩)
    · exact Or.inr (Or.inl ⟨_, _, rfl⟩)
    · exact Or.inr (Or.inl ⟨_, _, rfl⟩)
  | networkmap t => exact h.silent rfl fun k => silent_of_sent_nil rfl
  | configure d t => exact h.silent rfl fun k => silent_of_sent_nil rfl

theorem fits_sent {message : Message} (h : Follows p c time history) (hfits : Fits p message c time history) :
    ∀ o ∈ (nodes p time message c).2,
      Fits p o (nodes p time message c).1 time (history ++ [⟨message, time, c⟩]) := by
  intro o ho
  cases message with
  | report r =>
    obtain rfl := List.mem_singleton.1 ho
    exact ⟨h.kept rfl rfl rfl, rfl, rfl, rfl⟩
  | verification m =>
    obtain rfl := List.mem_singleton.1 ho
    refine ⟨hfits.1, ?_⟩
    split_ifs with hverified
    · obtain ⟨hidle, hlate⟩ := lt_now_of_verified hverified
      exact ⟨hidle, hfits.2, hlate⟩
    · exact decided_of_decision hfits.2 hverified
  | response source r =>
    obtain ⟨m, hm, rfl⟩ := Option.map_eq_some_iff.1 (Option.mem_toList.1 ho)
    obtain ⟨hkept, resp, hresponse, hcorrelates, hretain, htransaction, htopic, hstatus⟩ := normalize_spec h hm
    have hends : Ends p resp.transaction resp.stage resp.status ⟨.response source r, time, c⟩ :=
      ⟨source, r, rfl, hretain, htransaction, htopic, hstatus, List.ne_nil_of_mem ho⟩
    have hanswered : m.Answered p (history ++ [⟨.response source r, time, c⟩]) resp :=
      ⟨hresponse, hcorrelates, _, List.mem_append_right _ (List.mem_singleton_self _), hends⟩
    rcases responseSwitch_cases source m with heq | heq | heq <;> rw [heq]
    · exact ⟨hkept, resp, hanswered⟩
    · exact ⟨hkept, resp, hanswered⟩
    · refine ⟨hkept, ne_idle_of_correlates hcorrelates, fun resp' hresp' => ?_⟩
      obtain rfl := Option.some.inj (hresponse.symm.trans hresp')
      exact hanswered.seen
  | stateMutate a m =>
    replace ho : o ∈ (stateMutate p a m c).2 := ho
    rcases stateMutate_spec p a m c with hnone | ⟨n, t, -, -, hout⟩
    · rw [hnone] at ho
      cases ho
    · rw [hout] at ho
      obtain ⟨t', -, rfl⟩ := Option.map_eq_some_iff.1 (Option.mem_toList.1 ho)
      trivial
  | configureRequestBuild m =>
    replace ho : o ∈ (configureRequestBuild m c).2 := ho
    rcases configureRequestBuild_spec m c with hnone | ⟨r, resp, n, -, -, -, -, -, -, hout, -⟩
    · rw [hnone] at ho
      cases ho
    · rw [hout] at ho
      obtain rfl := List.mem_singleton.1 ho
      trivial
  | networkmap t => cases ho
  | configure d t => cases ho

/-- What holds along every run. -/
theorem follows_flow (p : Policy) : HistoryInvariant (nodes p) outside (Follows p) (Fits p) where
  start c t hstart := by
    have hnone : ∀ k, c.incident k = none := by
      intro k
      rw [Context.incident, show c.incidents = _ from hstart]
      rfl
    refine ⟨fun test => ?_, fun k _ => ⟨rfl, rfl⟩, fun k r hr => ?_, atEach_nil⟩
    · rw [show c.incidents = _ from hstart]
      exact List.nodup_nil
    · rw [hnone] at hr
      cases hr
  enter b m _ henters := by
    cases m with
    | report r => trivial
    | response source r => trivial
    | _ => exact henters.elim
  handle _ _ _ _ h hfits := follows_handle h hfits
  sent _ _ _ _ h hfits := fits_sent h hfits
  kept _ _ _ _ _ _ hfits hfits' := (hfits'.later (newer_of_fits hfits) le_rfl).concat
  later c t t' history h ht := by
    refine ⟨⟨h.keys, h.untouched, fun k r hr => ?_, h.careful⟩, fun m hm => hm.later newer_refl ht⟩
    obtain ⟨last, htracked⟩ := h.tracked k r hr
    exact ⟨last, htracked.later ht⟩
  others c c' t history h hothers := by
    replace hothers : c'.incidents = c.incidents := hothers
    have hincident : c'.incident = c.incident := by
      funext k
      rw [Context.incident, Context.incident, hothers]
    have hnewer : Newer c c' := by
      intro k
      rw [Context.current, Context.current, hincident]
      exact ⟨le_rfl, fun _ => rfl⟩
    refine ⟨⟨?_, ?_, ?_, h.careful⟩, fun m hm => hm.later hnewer le_rfl⟩
    · rw [hothers]
      exact h.keys
    · rw [hincident]
      exact h.untouched
    · rw [hincident]
      exact h.tracked

/-- **Recovery of routes is bounded.**  A map is requested only when no transaction is pending, and
    the end of the last one was received; between two openings of an incident as many maps are
    requested as it counts attempts, and at most as many as allowed; and in each transaction the device
    is configured at most once, after its map was received. -/
theorem recovery_bounded {b : Board Context Message} (hb : (routeMachine p).Reachable b) :
    AtEach (fun before h => Careful p before h ∧ Counted p h.context before) b.history ∧
      Counted p b.context b.history ∧
        ∀ k, (requests p k b.history).Nodup ∧ (configures p k b.history).Nodup := by
  obtain ⟨h, -⟩ := (follows_flow p).reachable hb
  refine ⟨h.careful, h.counted, fun k => ?_⟩
  cases hincident : b.context.incident k with
  | none =>
    obtain ⟨hrequests, hconfigures⟩ := h.untouched k hincident
    rw [hrequests, hconfigures]
    exact ⟨List.nodup_nil, List.nodup_nil⟩
  | some r =>
    obtain ⟨last, htracked⟩ := h.tracked k r hincident
    refine ⟨htracked.sorted.imp fun hlt heq => ?_, htracked.once.1⟩
    exact absurd (heq ▸ hlt) (lt_irrefl _)

/-! ## A route that is configured -/

def samplePolicy : Policy := ⟨3, 15, 300, by decide, by decide, by decide⟩

def sampleRoute : Route := ⟨false, "teste_rota_59894ed5"⟩

/-- A failure, and the map that comes for it. -/
def sampleActs : List (Act Message) :=
  [.enter (.report ⟨sampleRoute, some "teste_rota", none, some "NWK_NO_ROUTE", false⟩), .handle 0, .handle 0,
    .handle 0,
    .enter (.response .networkmap ⟨some .networkmap, false, some ⟨sampleRoute, 100⟩, true, some .ok, ""⟩),
    .handle 1, .handle 1]

def sampleStart : Board Context Message :=
  ⟨⟨fun _ => [], fun _ _ => none, fun _ => none, fun _ => none⟩, 100, [], [], []⟩

def sampleRun : Board Context Message := sampleActs.foldl (Board.act (nodes samplePolicy)) sampleStart

theorem sampleRun_reachable : (routeMachine samplePolicy).Reachable sampleRun := by
  have hstart : (routeMachine samplePolicy).Reachable sampleStart := .start ⟨rfl, rfl, rfl, rfl⟩
  refine reachable_acts hstart fun b m hm => ?_
  simp only [sampleActs, List.mem_cons, Act.enter.injEq, reduceCtorEq, List.not_mem_nil, or_false,
    false_or] at hm
  rcases hm with rfl | rfl <;> trivial

/-- One map was requested, and the device configured once. -/
theorem recovery_bounded_sample : requests samplePolicy sampleRoute sampleRun.history = [⟨sampleRoute, 100⟩] ∧
    configures samplePolicy sampleRoute sampleRun.history = [⟨sampleRoute, 100⟩] ∧
      Counted samplePolicy sampleRun.context sampleRun.history :=
  ⟨by decide +kernel, by decide +kernel, (recovery_bounded sampleRun_reachable).2.1⟩

end SmartHome.ZigbeeRoutes
