/-
  The recovery of Zigbee routes (`zigbee-route-*.js`, and the switches between them in
  `install-zigbee-monitor-flow.mjs`), as nodes over the incidents of the routes.

  Times are in milliseconds, and kept as numbers where the code keeps their texts.  A report is
  stamped as it is read.
-/
import SmartHome.Lib.Flow
import SmartHome.Lib.Table

namespace SmartHome.ZigbeeRoutes

open Verif

/-! ## State -/

/-- `policy`, as far as it is read here, with the bounds of `zigbee-policy-validate.js`. -/
structure Policy where
  routeRecoveryMaxAttempts : ℕ
  routeRecoveryCooldownMin : ℕ
  routeStabilityS : ℕ
  attempts : 1 ≤ routeRecoveryMaxAttempts ∧ routeRecoveryMaxAttempts ≤ 5
  cooldown : 1 ≤ routeRecoveryCooldownMin ∧ routeRecoveryCooldownMin ≤ 1440
  stability : 60 ≤ routeStabilityS ∧ routeStabilityS ≤ 3600

inductive Phase where
  | idle | scanning | configuring | verifying | failed | recovered
  deriving DecidableEq, Repr

/-- `native_stage` -/
inductive Stage where
  | networkmap | configure
  deriving DecidableEq, Repr

/-- `native_completion_state` -/
inductive Completion where
  | pending | terminal | unknown
  deriving DecidableEq, Repr

inductive Status where
  | ok | error
  deriving DecidableEq, Repr

/-- A route, in production or in a test. -/
structure Route where
  test : Bool
  key : String
  deriving DecidableEq, Repr

/-- The transaction `nodered-zigbee-route-[test-]key-now`.  A key has no hyphen, so that the text
    says what it is made of. -/
structure Transaction where
  route : Route
  now : ℚ
  deriving DecidableEq, Repr

/-- `zigbee_route_incidents_v1[key]` -/
structure Incident where
  incidentOpen : Bool
  phase : Phase
  attempts : ℕ
  device : Option String
  ieee : Option String
  firstFailureAt : Option ℚ
  lastFailureAt : Option ℚ
  lastError : Option String
  pendingTransaction : Option Transaction
  nativeStage : Option Stage
  nativeCompletionState : Option Completion
  nextRetryAt : Option ℚ
  verificationStartedAt : Option ℚ
  exhaustionNotified : Bool
  lastTerminalTransaction : Option Transaction
  lastTerminalStage : Option Stage
  lastTerminalStatus : Option Status
  lastTerminalObservedAt : Option ℚ
  recoveryError : Option String
  recoveredAt : Option ℚ
  revision : ℕ
  deriving DecidableEq, Repr

/-- `{ incident_open: false, phase: "idle", attempts: 0, next_retry_at: null }` -/
def Incident.idle : Incident where
  incidentOpen := false
  phase := .idle
  attempts := 0
  device := none
  ieee := none
  firstFailureAt := none
  lastFailureAt := none
  lastError := none
  pendingTransaction := none
  nativeStage := none
  nativeCompletionState := none
  nextRetryAt := none
  verificationStartedAt := none
  exhaustionNotified := false
  lastTerminalTransaction := none
  lastTerminalStage := none
  lastTerminalStatus := none
  lastTerminalObservedAt := none
  recoveryError := none
  recoveredAt := none
  revision := 0

/-- `zigbee_route_live[device]` -/
structure Evidence where
  lastSeen : ℚ
  failureAt : Option ℚ
  firstSeen : ℚ
  deriving DecidableEq, Repr

/-- What the nodes read; production and test have data of their own. -/
structure Context where
  incidents : Bool → List (String × Incident)
  live : Bool → String → Option Evidence
  bootAt : Bool → Option ℚ
  bridgeChangedAt : Bool → Option ℚ

/-- The incident of a route, if there is one. -/
def Context.incident (c : Context) (k : Route) : Option Incident :=
  (lookup Prod.fst k.key (c.incidents k.test)).map Prod.snd

/-- `rows[key] = n` -/
def Context.put (c : Context) (k : Route) (n : Incident) : Context :=
  { c with incidents := fun test =>
      if test = k.test then upsert Prod.fst (k.key, n) (c.incidents test) else c.incidents test }

/-! ## Messages -/

/-- A failure of a route, or a tick of the cycle for it. -/
structure Report where
  route : Route
  device : Option String
  ieee : Option String
  error : Option String
  tick : Bool
  deriving DecidableEq, Repr

/-- A response of the bridge. -/
structure Reply where
  topic : Option Stage
  retain : Bool
  /-- `String(p?.transaction || "")`, if it is one of a route. -/
  transaction : Option Transaction
  /-- The transaction is a text, and does not only turn into one. -/
  text : Bool
  status : Option Status
  error : String
  deriving DecidableEq, Repr

/-- `zigbee_route_native`; all false where it is missing. -/
structure Native where
  stage : Option Stage
  terminal : Bool
  unresolved : Bool
  expired : Bool
  unproven : Bool
  deriving DecidableEq, Repr

/-- `{}` -/
def Native.missing : Native := ⟨none, false, false, false, false⟩

/-- A valid response. -/
structure Response where
  transaction : Transaction
  text : Bool
  stage : Stage
  status : Status
  error : String
  reconcileOnly : Bool
  deriving DecidableEq, Repr

/-- A message with its copy of the incident. -/
structure Copy where
  route : Route
  device : Option String
  ieee : Option String
  error : Option String
  tick : Bool
  now : ℚ
  current : Incident
  revision : ℕ
  deadline : Option ℚ
  native : Native
  response : Option Response
  deriving DecidableEq, Repr

/-- `zigbee_route_action` -/
inductive Action where
  | opening | retry | touch | verify | recoveryFailed | recovered
  deriving DecidableEq, Repr

/-- A message at a node, or an effect. -/
inductive Message where
  | report (r : Report)
  | verification (m : Copy)
  /-- A response, by the source it came from. -/
  | response (source : Stage) (r : Reply)
  | stateMutate (a : Action) (m : Copy)
  | configureRequestBuild (m : Copy)
  /-- The request of a map, `zigbee2mqtt/bridge/request/networkmap`. -/
  | networkmap (t : Transaction)
  /-- `zigbee2mqtt/bridge/request/device/configure` -/
  | configure (device : Option String) (t : Transaction)
  deriving DecidableEq, Repr

/-! ## Reports -/

/-- The stage of a phase. -/
def Phase.stage : Phase → Option Stage
  | scanning => some .networkmap
  | configuring => some .configure
  | verifying => some .configure
  | _ => none

/-- `terminal` in `state-read` -/
def Incident.terminal (r : Incident) : Prop :=
  r.nativeCompletionState = some .terminal ∧ r.lastTerminalTransaction.isSome ∧
    r.lastTerminalStage.isSome ∧ r.lastTerminalStatus.isSome

instance (r : Incident) : Decidable r.terminal := by unfold Incident.terminal; infer_instance

/-- `unresolved` in `state-read` -/
def Incident.unresolved (r : Incident) : Prop :=
  r.pendingTransaction.isSome ∨ r.nativeCompletionState = some .pending ∨
    r.nativeCompletionState = some .unknown

instance (r : Incident) : Decidable r.unresolved := by unfold Incident.unresolved; infer_instance

/-- `zigbee_route_deadline` -/
def Incident.deadline (r : Incident) : Option ℚ := r.nextRetryAt.filter (· ≠ 0)

/-- The deadline is over. -/
def due (deadline : Option ℚ) (now : ℚ) : Prop := ∃ d ∈ deadline, d ≤ now

instance (deadline : Option ℚ) (now : ℚ) : Decidable (due deadline now) := by unfold due; infer_instance

/-- `zigbee_route_native` -/
def Incident.native (r : Incident) (now : ℚ) : Native where
  stage := r.nativeStage <|> r.phase.stage
  terminal := r.terminal
  unresolved := r.unresolved
  expired := due r.deadline now
  unproven := r.unresolved ∨ (r.incidentOpen = true ∧ 0 < r.attempts ∧ ¬ r.terminal)

/-- `zigbee-route-state-read.js` -/
def stateRead (now : ℚ) (r : Report) (c : Context) : Context × List Message :=
  let current := (c.incident r.route).getD .idle
  (c, [.verification
    { route := r.route
      device := r.device
      ieee := r.ieee
      error := r.error
      tick := r.tick
      now := now
      current := current
      revision := current.revision
      deadline := current.deadline
      native := current.native now
      response := none }])

/-- Where the window of stable communication starts. -/
def Copy.windowStart (m : Copy) (c : Context) (started : ℚ) : ℚ :=
  max (max started (m.current.lastFailureAt.getD 0))
    (max ((c.bootAt m.route.test).getD 0) ((c.bridgeChangedAt m.route.test).getD 0))

/-- `zigbee-route-verification-facts.js`, and the switch `zigbee_route_verified`. -/
def Copy.verified (p : Policy) (m : Copy) (c : Context) : Prop :=
  let evidence := m.current.device.bind (c.live m.route.test)
  m.tick = true ∧ m.current.incidentOpen = true ∧
    ∃ started ∈ m.current.verificationStartedAt <|> evidence.map Evidence.firstSeen,
      (p.routeStabilityS : ℚ) * 1000 ≤ m.now - m.windowStart c started ∧
        ∃ e ∈ evidence, e.failureAt = m.current.lastFailureAt ∧
          m.windowStart c started + (p.routeStabilityS : ℚ) * 1000 ≤ e.lastSeen

instance (p : Policy) (m : Copy) (c : Context) : Decidable (m.verified p c) := by
  unfold Copy.verified; infer_instance

/-- The switch `zigbee_route_decision`: open, retry, exhausted or duplicate. -/
def Copy.decision (p : Policy) (m : Copy) : Action :=
  let r := m.current
  if r.unresolved then .touch
  else if r.incidentOpen ≠ true then .opening
  else if due m.deadline m.now then
    if r.attempts < p.routeRecoveryMaxAttempts then if r.terminal then .retry else .touch
    else if r.exhaustionNotified ≠ true then .recoveryFailed else .touch
  else .touch

/-- The facts of the verification, and the decision. -/
def verification (p : Policy) (m : Copy) (c : Context) : Context × List Message :=
  (c, [.stateMutate (if m.verified p c then .recovered else m.decision p) m])

/-! ## Responses -/

/-- The incident has seen the end of its transaction. -/
def Incident.old (r : Incident) : Prop :=
  r.pendingTransaction = none ∧ r.nativeCompletionState = some .terminal

instance (r : Incident) : Decidable r.old := by unfold Incident.old; infer_instance

/-- The incident is that of the transaction. -/
def Incident.correlates (t : Transaction) (r : Incident) : Prop :=
  r.pendingTransaction = some t ∨ (r.old ∧ r.lastTerminalTransaction = some t)

instance (t : Transaction) (r : Incident) : Decidable (r.correlates t) := by
  unfold Incident.correlates; infer_instance

/-- `zigbee-route-response-normalize.js`: the copy of a valid response. -/
def normalize (now : ℚ) (r : Reply) (c : Context) : Option Copy := do
  let t ← r.transaction
  let (key, v) ← (c.incidents t.route.test).find? fun row => row.2.correlates t
  let topic ← r.topic
  let status ← r.status
  if r.retain ≠ true ∧ v.nativeStage.or v.phase.stage = some topic ∧
      ¬ (v.old ∧ v.lastTerminalStatus = some status) then
    some
      { route := ⟨t.route.test, key⟩
        device := v.device
        ieee := v.ieee
        error := none
        tick := false
        now := now
        current := v
        revision := v.revision
        deadline := none
        native := .missing
        response := some
          { transaction := t
            text := r.text
            stage := topic
            status := status
            error := r.error
            reconcileOnly := v.old ∨ v.incidentOpen ≠ true ∨ v.nativeCompletionState = some .unknown ∨
              due v.nextRetryAt now } }
  else none

/-- The switches behind `zigbee-route-response-normalize.js`. -/
def responseSwitch (source : Stage) (m : Copy) : Message :=
  if ∃ r ∈ m.response, r.status = .ok ∧ r.reconcileOnly ≠ true then
    match source with
    | .networkmap => .configureRequestBuild m
    | .configure => .stateMutate .verify m
  else .stateMutate .recoveryFailed m

/-- A response. -/
def response (now : ℚ) (source : Stage) (r : Reply) (c : Context) : Context × List Message :=
  (c, ((normalize now r c).map (responseSwitch source)).toList)

/-- `zigbee-route-configure-request-build.js` -/
def configureRequestBuild (m : Copy) (c : Context) : Context × List Message :=
  match c.incident m.route, m.response with
  | some r, some p =>
    if r.phase = .scanning ∧ r.pendingTransaction = some p.transaction ∧ p.text = true ∧
        p.status = .ok ∧ p.stage = .networkmap ∧ p.reconcileOnly ≠ true ∧
          r.nativeCompletionState ≠ some .unknown then
      (c.put m.route
        { r with
          phase := .configuring
          nativeStage := some .configure
          nativeCompletionState := some .pending
          lastTerminalTransaction := r.pendingTransaction
          lastTerminalStage := some .networkmap
          lastTerminalStatus := some .ok
          lastTerminalObservedAt := some m.now
          revision := r.revision + 1 }, [.configure m.device p.transaction])
    else (c, [])
  | _, _ => (c, [])

/-! ## The incident -/

/-- `retry` in `state-mutate` -/
def retryAt (p : Policy) (now : ℚ) : ℚ := now + (p.routeRecoveryCooldownMin : ℚ) * 60000

/-- `match` in `state-mutate` -/
def Copy.matching (m : Copy) : Prop := ∃ r ∈ m.response, m.current.correlates r.transaction

instance (m : Copy) : Decidable m.matching := by unfold Copy.matching; infer_instance

/-- `stage` in `state-mutate` -/
def Copy.stage (m : Copy) : Option Stage := m.response.map Response.stage <|> m.native.stage

/-- `{ ...c, ...unsure }` -/
def Copy.unsure (m : Copy) : Incident :=
  { m.current with nativeStage := m.stage, nativeCompletionState := some .unknown }

/-- `{ ...c, ...proof }` -/
def Copy.proven (m : Copy) : Incident :=
  { m.current with
    nativeCompletionState := some .terminal
    pendingTransaction := none
    lastTerminalTransaction := m.response.map Response.transaction
    lastTerminalStage := m.stage
    lastTerminalStatus := m.response.map Response.status
    lastTerminalObservedAt := some m.now }

/-- The actions `open` and `retry`. -/
def Copy.scan (p : Policy) (m : Copy) (again : Bool) : Option (Incident × Option Transaction) :=
  let c := m.current
  let count := if again then c.attempts + 1 else 1
  let id : Transaction := ⟨m.route, m.now⟩
  if c.pendingTransaction.isSome ∨ (c.nativeCompletionState.isSome ∧ m.native.terminal ≠ true) ∨
      (again ∧ m.native.terminal ≠ true) then none
  else if p.routeRecoveryMaxAttempts < count then none
  else some ({ c with
    incidentOpen := true
    phase := .scanning
    attempts := count
    device := m.device
    ieee := m.ieee <|> c.ieee
    firstFailureAt := if again then c.firstFailureAt else some m.now
    lastFailureAt := some m.now
    lastError := m.error <|> c.lastError <|> some "NWK_NO_ROUTE"
    pendingTransaction := some id
    nativeStage := some .networkmap
    nativeCompletionState := some .pending
    nextRetryAt := some (retryAt p m.now)
    verificationStartedAt := none
    exhaustionNotified := false }, some id)

/-- The action `touch`. -/
def Copy.touch (m : Copy) : Option Incident :=
  let c := m.current
  let f := m.native
  if m.tick = true ∧ (f.expired ≠ true ∨ f.unproven ≠ true ∨ c.nativeCompletionState = some .unknown) then none
  else
    let n := if f.expired = true ∧ f.unproven = true then m.unsure else c
    some (if m.tick = true then n
      else
        { n with
          lastFailureAt := some m.now
          lastError := m.error <|> c.lastError
          verificationStartedAt := none
          incidentOpen := c.incidentOpen || f.unproven
          phase := if c.phase = .verifying ∨ (c.phase = .recovered ∧ f.unproven = true) then .failed
            else c.phase })

/-- The action `verify`. -/
def Copy.verify (m : Copy) : Option Incident :=
  if ¬ m.matching ∨ m.stage ≠ some .configure ∨ m.response.map Response.status ≠ some .ok then none
  else some { m.proven with phase := .verifying, verificationStartedAt := some m.now }

/-- The action `recovery_failed`. -/
def Copy.recoveryFailed (p : Policy) (m : Copy) : Incident :=
  let c := m.current
  let n := if m.matching then
      { m.proven with
        phase := if c.incidentOpen = true then .failed else c.phase
        recoveryError := match m.response with
          | some r => if r.status = .error then some (if r.error = "" then "unknown" else r.error)
            else c.recoveryError
          | none => c.recoveryError
        nextRetryAt := if c.incidentOpen = true then some (retryAt p m.now) else c.nextRetryAt }
    else m.unsure
  { n with exhaustionNotified := c.exhaustionNotified || decide (p.routeRecoveryMaxAttempts ≤ c.attempts) }

/-- The action `recovered`. -/
def Copy.recovered (m : Copy) : Incident :=
  let c := m.current
  let unresolved := c.pendingTransaction.isSome ∨ m.native.terminal ≠ true
  { (if unresolved then m.unsure else c) with
    incidentOpen := false
    phase := .recovered
    recoveredAt := some m.now
    nextRetryAt := none
    recoveryError := if unresolved then c.recoveryError else none }

/-- The new incident, and the transaction that it asks a map for. -/
def Copy.mutate (p : Policy) (m : Copy) : Action → Option (Incident × Option Transaction)
  | .opening => m.scan p false
  | .retry => m.scan p true
  | .touch => m.touch.map fun n => (n, none)
  | .verify => m.verify.map fun n => (n, none)
  | .recoveryFailed => some (m.recoveryFailed p, none)
  | .recovered => some (m.recovered, none)

/-- `zigbee-route-state-mutate.js`, the switch behind it, and
    `zigbee-route-recovery-request-build.js`. -/
def stateMutate (p : Policy) (a : Action) (m : Copy) (c : Context) : Context × List Message :=
  if ((c.incident m.route).getD .idle).revision ≠ m.revision then (c, [])
  else match m.mutate p a with
    | none => (c, [])
    | some (n, t) => (c.put m.route { n with revision := m.current.revision + 1 },
        (t.map Message.networkmap).toList)

/-! ## The flow -/

/-- What the nodes do. -/
def nodes (p : Policy) : Nodes Context Message := fun now m c =>
  match m with
  | .report r => stateRead now r c
  | .verification m => verification p m c
  | .response source r => response now source r c
  | .stateMutate a m => stateMutate p a m c
  | .configureRequestBuild m => configureRequestBuild m c
  | .networkmap _ => (c, [])
  | .configure _ _ => (c, [])

/-- Reports and responses come at any time, whatever they say; the other data change as they may. -/
def outside : Outside Context Message where
  start c := c.incidents = fun _ => []
  enters _ m := match m with
    | .report _ => True
    | .response _ _ => True
    | _ => False
  others c c' := c'.incidents = c.incidents

/-- The runs of the flow. -/
def routeMachine (p : Policy) : Machine (Board Context Message) := flowMachine (nodes p) outside

end SmartHome.ZigbeeRoutes
