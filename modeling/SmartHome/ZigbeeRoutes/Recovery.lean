/-
  One native procedure at a time, and a bounded number of them for an incident.
-/
import SmartHome.ZigbeeRoutes.Incidents

namespace SmartHome.ZigbeeRoutes

open Verif

/-! ## Requests -/

/-- The transaction of a request of a map for the route. -/
def Message.requestOf (k : Route) : Message → Option Transaction
  | .networkmap t => if t.route = k then some t else none
  | _ => none

/-- The transaction of a request to configure the device of the route. -/
def Message.configureOf (k : Route) : Message → Option Transaction
  | .configure _ t => if t.route = k then some t else none
  | _ => none

section
variable (p : Policy)

/-- The requests of maps for a route, in order. -/
def requests (k : Route) (history : List (Handled Context Message)) : List Transaction :=
  (history.flatMap (Handled.sent (nodes p))).filterMap (Message.requestOf k)

/-- The requests to configure the device of a route, in order. -/
def configures (k : Route) (history : List (Handled Context Message)) : List Transaction :=
  (history.flatMap (Handled.sent (nodes p))).filterMap (Message.configureOf k)

/-- An incident of the route is opened. -/
def Opens (k : Route) (h : Handled Context Message) : Prop :=
  ∃ m, h.message = .stateMutate .opening m ∧ m.route = k ∧ h.sent (nodes p) ≠ []

/-- A response of the bridge, not retained and valid when it comes, ends a stage of a transaction. -/
def Ends (t : Transaction) (stage : Stage) (status : Status) (h : Handled Context Message) : Prop :=
  ∃ source r, h.message = .response source r ∧ r.retain ≠ true ∧ r.transaction = some t ∧
    r.topic = some stage ∧ r.status = some status ∧ h.sent (nodes p) ≠ []

/-- The end of a stage of a transaction was received. -/
def Seen (t : Transaction) (history : List (Handled Context Message)) (stage : Stage) (status : Status) :
    Prop :=
  ∃ h ∈ history, Ends p t stage status h

/-- What holds when a request is sent, after what came before. -/
structure Careful (before : List (Handled Context Message)) (h : Handled Context Message) : Prop where
  /-- Nothing is pending when a map is requested. -/
  idle : ∀ t, .networkmap t ∈ h.sent (nodes p) →
    ∀ r, h.context.incident t.route = some r → r.pendingTransaction = none
  /-- The end of the last transaction is on record, and was received. -/
  ended : ∀ t, .networkmap t ∈ h.sent (nodes p) →
    ∀ last, (requests p t.route before).getLast? = some last → ∃ r stage status,
      h.context.incident t.route = some r ∧ r.nativeCompletionState = some .terminal ∧
        r.lastTerminalTransaction = some last ∧ r.lastTerminalStage = some stage ∧
          r.lastTerminalStatus = some status ∧ Seen p last before stage status
  /-- A device is configured once in a transaction, the last one, after its map was received. -/
  configured : ∀ d t, .configure d t ∈ h.sent (nodes p) → t ∉ configures p t.route before ∧
    (requests p t.route before).getLast? = some t ∧ Seen p t before .networkmap .ok

/-- Since an incident was opened, as many maps were requested as it counts attempts, and at most as many
    as allowed. -/
def Counted (c : Context) (history : List (Handled Context Message)) : Prop :=
  ∀ k before x after, history = before ++ x :: after → Opens p k x → (∀ y ∈ after, ¬ Opens p k y) →
    ∃ r, c.incident k = some r ∧ (requests p k (x :: after)).length = r.attempts ∧
      r.attempts ≤ p.routeRecoveryMaxAttempts

/-! ## What is kept -/

/-- What holds of an incident after a history. -/
structure Tracked (k : Route) (r : Incident) (time : ℚ) (history : List (Handled Context Message))
    (last : Transaction) : Prop where
  sound : r.Sound last time (Seen p last history)
  newest : (requests p k history).getLast? = some last
  sorted : (requests p k history).Pairwise fun t t' => t.now < t'.now
  bounded : r.attempts ≤ p.routeRecoveryMaxAttempts
  attempts : ∀ before x after, history = before ++ x :: after → Opens p k x →
    (∀ y ∈ after, ¬ Opens p k y) → (requests p k (x :: after)).length = r.attempts
  once : (configures p k history).Nodup ∧ ∀ t ∈ configures p k history, t ∈ requests p k history
  scanning : r.phase = .scanning → last ∉ configures p k history
  revision : r.revision ≠ 0

/-- What holds of the incidents after a history. -/
structure Follows (c : Context) (time : ℚ) (history : List (Handled Context Message)) : Prop where
  keys : ∀ test, ((c.incidents test).map Prod.fst).Nodup
  untouched : ∀ k, c.incident k = none → requests p k history = [] ∧ configures p k history = []
  tracked : ∀ k r, c.incident k = some r → ∃ last, Tracked p k r time history last
  careful : AtEach (fun before h => Careful p before h ∧ Counted p h.context before) history

end

/-- The copy of a message that reads the route now. -/
def Context.current (c : Context) (k : Route) : Incident := (c.incident k).getD .idle

/-- The copy is of the stored incident, or of an older one. -/
structure Copy.Kept (m : Copy) (c : Context) (time : ℚ) : Prop extends m.Dated time where
  revision : m.revision = m.current.revision
  older : m.revision ≤ (c.current m.route).revision
  same : m.revision = (c.current m.route).revision → m.current = c.current m.route

/-- The message was a report. -/
structure Copy.Reported (m : Copy) : Prop where
  deadline : m.deadline = m.current.deadline
  native : m.native = m.current.native m.now
  response : m.response = none

/-- The message was a response. -/
structure Copy.Answered (p : Policy) (m : Copy) (history : List (Handled Context Message)) (r : Response) :
    Prop where
  response : m.response = some r
  correlates : m.current.correlates r.transaction
  seen : Seen p r.transaction history r.stage r.status

/-- What was decided before an action. -/
def Action.Decided (p : Policy) (m : Copy) (history : List (Handled Context Message)) : Action → Prop
  | .opening => m.Reported ∧ m.current.incidentOpen = false
  | .retry => m.Reported ∧ ∃ d, m.current.nextRetryAt = some d ∧ d ≤ m.now
  | .touch => m.current ≠ .idle
  | .verify => ∃ r, m.Answered p history r
  | .recoveryFailed => m.current ≠ .idle ∧ ∀ r, m.response = some r → Seen p r.transaction history r.stage r.status
  | .recovered => m.current ≠ .idle ∧ m.Reported ∧ ∀ f, m.current.lastFailureAt = some f → f < m.now

/-- What holds of a message that waits. -/
def Fits (p : Policy) : Message → Context → ℚ → List (Handled Context Message) → Prop
  | .report _, _, _, _ => True
  | .verification m, c, time, _ => m.Kept c time ∧ m.Reported
  | .response _ _, _, _, _ => True
  | .stateMutate a m, c, time, history => m.Kept c time ∧ a.Decided p m history
  | .configureRequestBuild m, c, time, history => m.Kept c time ∧ ∃ r, m.Answered p history r
  | .networkmap _, _, _, _ => True
  | .configure _ _, _, _, _ => True

variable {p : Policy} {c c' : Context} {k k' : Route} {r r' n : Incident} {m : Copy} {t last : Transaction}
  {time now : ℚ} {history : List (Handled Context Message)} {x : Handled Context Message}

/-! ## Lists of requests -/

@[simp] theorem requests_concat :
    requests p k (history ++ [x]) = requests p k history ++ (x.sent (nodes p)).filterMap (Message.requestOf k) := by
  simp [requests]

@[simp] theorem configures_concat : configures p k (history ++ [x]) =
    configures p k history ++ (x.sent (nodes p)).filterMap (Message.configureOf k) := by
  simp [configures]

theorem route_of_mem_requests (h : t ∈ requests p k history) : t.route = k := by
  obtain ⟨o, -, ho⟩ := List.mem_filterMap.1 h
  cases o with
  | networkmap t' =>
    simp only [Message.requestOf] at ho
    split_ifs at ho with hroute
    obtain rfl := Option.some.inj ho
    exact hroute
  | _ => cases ho

theorem requestOf_networkmap : [Message.networkmap t].filterMap (Message.requestOf k) =
    if t.route = k then [t] else [] := by
  simp only [List.filterMap_cons, List.filterMap_nil, Message.requestOf]
  split_ifs <;> rfl

theorem configureOf_configure (d : Option String) : [Message.configure d t].filterMap (Message.configureOf k) =
    if t.route = k then [t] else [] := by
  simp only [List.filterMap_cons, List.filterMap_nil, Message.configureOf]
  split_ifs <;> rfl

theorem Seen.concat {stage : Stage} {status : Status} (h : Seen p t history stage status) :
    Seen p t (history ++ [x]) stage status := by
  obtain ⟨y, hy, hends⟩ := h
  exact ⟨y, List.mem_append_left _ hy, hends⟩

/-! ## The incidents -/

theorem incident_put : (c.put k n).incident k' = if k' = k then some n else c.incident k' := by
  obtain ⟨test, key⟩ := k
  obtain ⟨test', key'⟩ := k'
  unfold Context.incident Context.put
  simp only [Route.mk.injEq]
  by_cases htest : test' = test
  · subst htest
    simp only [true_and, if_true]
    split_ifs with hkey
    · subst hkey
      rw [show key' = Prod.fst (key', n) from rfl, lookup_upsert_self]
      rfl
    · rw [lookup_upsert_ne hkey]
  · simp [htest]

theorem nodup_put (h : ∀ test, ((c.incidents test).map Prod.fst).Nodup) (test : Bool) :
    (((c.put k n).incidents test).map Prod.fst).Nodup := by
  unfold Context.put
  simp only
  split_ifs
  · exact nodup_keys_upsert (h test)
  · exact h test

/-- A row of the incidents is that of its route. -/
theorem incident_of_mem (h : ∀ test, ((c.incidents test).map Prod.fst).Nodup) {test : Bool} {key : String}
    (hmem : (key, r) ∈ c.incidents test) : c.incident ⟨test, key⟩ = some r := by
  unfold Context.incident
  rw [(lookup_eq_some_iff (h test)).2 ⟨hmem, rfl⟩]
  rfl

theorem current_of_incident (h : c.incident k = some r) : c.current k = r := by
  unfold Context.current
  rw [h]
  rfl

/-! ## Incidents that are kept -/

/-- The incident is not of the message. -/
theorem Tracked.concat (h : Tracked p k r time history last)
    (hrequests : (x.sent (nodes p)).filterMap (Message.requestOf k) = [])
    (hconfigures : (x.sent (nodes p)).filterMap (Message.configureOf k) = []) (hopens : ¬ Opens p k x) :
    Tracked p k r time (history ++ [x]) last where
  sound := h.sound.mono le_rfl fun _ _ => Seen.concat
  newest := by rw [requests_concat, hrequests, List.append_nil]; exact h.newest
  sorted := by rw [requests_concat, hrequests, List.append_nil]; exact h.sorted
  bounded := h.bounded
  attempts before y after hsplit hy hafter := by
    rcases split_concat hsplit with ⟨-, -, rfl⟩ | ⟨rest, rfl, hearlier⟩
    · exact absurd hy hopens
    · rw [← h.attempts before y rest hearlier hy fun z hz => hafter z (List.mem_append_left _ hz),
        ← List.cons_append, requests_concat, hrequests, List.append_nil]
  once := by
    rw [configures_concat, hconfigures, requests_concat, hrequests, List.append_nil, List.append_nil]
    exact h.once
  scanning hscanning := by
    rw [configures_concat, hconfigures, List.append_nil]
    exact h.scanning hscanning
  revision := h.revision

/-- Another incident in the place of the one before, after the same requests. -/
theorem Tracked.replace (h : Tracked p k r time history last)
    (hsound : n.Sound last time (Seen p last history)) (hattempts : n.attempts = r.attempts)
    (hphase : n.phase = .scanning → r.phase = .scanning) (hrevision : n.revision ≠ 0) :
    Tracked p k n time history last where
  sound := hsound
  newest := h.newest
  sorted := h.sorted
  bounded := hattempts ▸ h.bounded
  attempts := by rw [hattempts]; exact h.attempts
  once := h.once
  scanning hscanning := h.scanning (hphase hscanning)
  revision := hrevision

theorem Tracked.later {time' : ℚ} (h : Tracked p k r time history last) (htime : time ≤ time') :
    Tracked p k r time' history last :=
  ⟨h.sound.mono htime fun _ _ => id, h.newest, h.sorted, h.bounded, h.attempts, h.once, h.scanning,
    h.revision⟩

/-- The incident after the map was requested again. -/
theorem Tracked.request (h : Tracked p k r time history last)
    (hsound : n.Sound t time (Seen p t (history ++ [x]))) (hsent : x.sent (nodes p) = [.networkmap t])
    (hroute : t.route = k) (hlater : last.now < t.now) (hbounded : n.attempts ≤ p.routeRecoveryMaxAttempts)
    (hopens : Opens p k x → n.attempts = 1) (hretries : ¬ Opens p k x → n.attempts = r.attempts + 1)
    (hrevision : n.revision ≠ 0) : Tracked p k n time (history ++ [x]) t := by
  have hrequests : (x.sent (nodes p)).filterMap (Message.requestOf k) = [t] := by
    rw [hsent, requestOf_networkmap, if_pos hroute]
  have hconfigures : (x.sent (nodes p)).filterMap (Message.configureOf k) = [] := by
    rw [hsent]
    rfl
  -- the new transaction is later than all earlier ones
  have hall : ∀ t' ∈ requests p k history, t'.now < t.now := by
    intro t' ht'
    obtain ⟨earlier, hearlier⟩ := List.getLast?_eq_some_iff.1 h.newest
    have hsorted := h.sorted
    rw [hearlier] at ht' hsorted
    rcases List.mem_append.1 ht' with ht' | ht'
    · exact ((List.pairwise_append.1 hsorted).2.2 t' ht' last (List.mem_singleton_self _)).trans hlater
    · rw [List.mem_singleton.1 ht']
      exact hlater
  refine ⟨hsound, ?_, ?_, hbounded, fun before y after hsplit hy hafter => ?_, ?_, fun _ => ?_, hrevision⟩
  · rw [requests_concat, hrequests, List.getLast?_concat]
  · rw [requests_concat, hrequests, List.pairwise_append]
    refine ⟨h.sorted, List.pairwise_singleton _ _, fun t' ht' t'' ht'' => ?_⟩
    rw [List.mem_singleton.1 ht'']
    exact hall t' ht'
  · rcases split_concat hsplit with ⟨rfl, -, rfl⟩ | ⟨rest, rfl, hearlier⟩
    · rw [hopens hy, ← List.nil_append [y], requests_concat, hrequests]
      rfl
    · rw [hretries (hafter x (List.mem_append_right _ (List.mem_singleton_self _))),
        ← h.attempts before y rest hearlier hy fun z hz => hafter z (List.mem_append_left _ hz),
        ← List.cons_append, requests_concat, hrequests, List.length_append]
      rfl
  · rw [configures_concat, hconfigures, requests_concat, List.append_nil]
    exact ⟨h.once.1, fun t' ht' => List.mem_append_left _ (h.once.2 t' ht')⟩
  · rw [configures_concat, hconfigures, List.append_nil]
    intro hmem
    exact lt_irrefl _ (hall t (h.once.2 t hmem))

/-- The incident after the device was configured. -/
theorem Tracked.configure (h : Tracked p k r time history last) {d : Option String}
    (hsound : n.Sound last time (Seen p last history)) (hsent : x.sent (nodes p) = [.configure d last])
    (hopens : ¬ Opens p k x) (hscanning : r.phase = .scanning) (hphase : n.phase ≠ .scanning)
    (hattempts : n.attempts = r.attempts) (hrevision : n.revision ≠ 0) :
    Tracked p k n time (history ++ [x]) last := by
  have hmem : last ∈ requests p k history := List.mem_of_getLast? h.newest
  have hrequests : (x.sent (nodes p)).filterMap (Message.requestOf k) = [] := by
    rw [hsent]
    rfl
  have hconfigures : (x.sent (nodes p)).filterMap (Message.configureOf k) = [last] := by
    rw [hsent, configureOf_configure, if_pos (route_of_mem_requests hmem)]
  refine ⟨hsound.mono le_rfl fun _ _ => Seen.concat, ?_, ?_, hattempts ▸ h.bounded,
    fun before y after hsplit hy hafter => ?_, ?_, fun hn => absurd hn hphase, hrevision⟩
  · rw [requests_concat, hrequests, List.append_nil]
    exact h.newest
  · rw [requests_concat, hrequests, List.append_nil]
    exact h.sorted
  · rcases split_concat hsplit with ⟨-, -, rfl⟩ | ⟨rest, rfl, hearlier⟩
    · exact absurd hy hopens
    · rw [hattempts, ← h.attempts before y rest hearlier hy fun z hz => hafter z (List.mem_append_left _ hz),
        ← List.cons_append, requests_concat, hrequests, List.append_nil]
  · rw [configures_concat, hconfigures, requests_concat, hrequests, List.append_nil]
    refine ⟨?_, fun t' ht' => ?_⟩
    · exact List.nodup_append.2 ⟨h.once.1, List.nodup_singleton _, fun a ha b hb hab =>
        h.scanning hscanning ((hab.trans (List.mem_singleton.1 hb)) ▸ ha)⟩
    · rcases List.mem_append.1 ht' with ht' | ht'
      · exact h.once.2 t' ht'
      · rw [List.mem_singleton.1 ht']
        exact hmem

/-- The first incident of a route. -/
theorem tracked_first (hnone : requests p k history = [] ∧ configures p k history = [])
    (hsound : n.Sound t time (Seen p t (history ++ [x]))) (hsent : x.sent (nodes p) = [.networkmap t])
    (hroute : t.route = k) (hattempts : n.attempts = 1) (hbounded : n.attempts ≤ p.routeRecoveryMaxAttempts)
    (hno : ∀ y ∈ history, ¬ Opens p k y) (hrevision : n.revision ≠ 0) :
    Tracked p k n time (history ++ [x]) t := by
  have hrequests : (x.sent (nodes p)).filterMap (Message.requestOf k) = [t] := by
    rw [hsent, requestOf_networkmap, if_pos hroute]
  have hconfigures : (x.sent (nodes p)).filterMap (Message.configureOf k) = [] := by
    rw [hsent]
    rfl
  refine ⟨hsound, ?_, ?_, hbounded, fun before y after hsplit hy hafter => ?_, ?_, fun _ => ?_, hrevision⟩
  · rw [requests_concat, hrequests, List.getLast?_concat]
  · rw [requests_concat, hrequests, hnone.1]
    exact List.pairwise_singleton _ _
  · rcases split_concat hsplit with ⟨rfl, -, rfl⟩ | ⟨rest, rfl, hearlier⟩
    · rw [hattempts, ← List.nil_append [y], requests_concat, hrequests]
      rfl
    · exact absurd hy (hno y (hearlier ▸ List.mem_append_right _ List.mem_cons_self))
  · rw [configures_concat, hconfigures, hnone.2]
    exact ⟨List.nodup_nil, fun t' ht' => (List.not_mem_nil ht').elim⟩
  · rw [configures_concat, hconfigures, hnone.2]
    exact List.not_mem_nil

end SmartHome.ZigbeeRoutes
