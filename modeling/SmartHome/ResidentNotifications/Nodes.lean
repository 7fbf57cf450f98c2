/-
  The delivery of arrival notices (`resident-notifications-*.js`): reservation, dispatch, acceptance,
  failure and retry, as nodes over the delivery state.

  A reservation token is kept as the time and the number that its text is made of, a notification
  key as what its text is made of.
-/
import SmartHome.Lib.Flow

namespace SmartHome.ResidentNotifications

open Verif

/-! ## State -/

/-- Production and test have states of their own. -/
inductive Mode where
  | production | test
  deriving DecidableEq, Repr

inductive Resident where
  | primary | secondary
  deriving DecidableEq, Repr

/-- Who is told that a resident arrives. -/
def Resident.recipient : Resident → Resident
  | primary => secondary
  | secondary => primary

inductive Stage where
  | approach | localReturn | home
  deriving DecidableEq, Repr

/-- `notification_key` -/
inductive Key where
  /-- `"cycle:" + notification_cycle_id` -/
  | cycle (id : String)
  /-- The source, the stage and the time of an event without a cycle. -/
  | event (source : Resident) (stage : Stage) (at' : ℚ)
  /-- A key that an earlier version stored. -/
  | legacy (text : String)
  deriving DecidableEq, Repr

/-- `startsWith("cycle:")` -/
def Key.isCycle : Key → Bool
  | cycle _ => true
  | _ => false

/-- A reservation: `now + ":" + state.sequence` -/
structure Token where
  time : ℚ
  sequence : ℕ
  deriving DecidableEq, Repr

/-- What the state keeps for one source and recipient. -/
structure Recipient where
  acceptedKey : Option Key
  acceptedAt : Option ℚ
  acceptedEventAt : Option ℚ
  acceptedStage : Option Stage
  pendingKey : Option Key
  pendingAt : Option ℚ
  pendingToken : Option Token
  pendingEventAt : Option ℚ
  pendingDispatched : Bool
  deriving DecidableEq, Repr

/-- `{}` -/
def Recipient.empty : Recipient := ⟨none, none, none, none, none, none, none, none, false⟩

/-- `resident_notification_delivery_v4` -/
structure Delivery where
  sequence : ℕ
  /-- By source; the recipient is the other resident. -/
  deliveries : Resident → Option Recipient

/-- `{ version: 4, deliveries: {} }` -/
def Delivery.empty : Delivery := ⟨0, fun _ => none⟩

/-- An item of the states before version 4. -/
structure LegacyItem where
  acceptedKey : Option Key
  deliveredKey : Option Key
  acceptedAt : Option ℚ
  deliveredAt : Option ℚ
  pendingKey : Option Key
  pendingAt : Option ℚ
  deriving DecidableEq, Repr

structure Context where
  delivery : Mode → Option Delivery
  /-- The residents of version 3, or else of version 2. -/
  legacy : Resident → Option LegacyItem

namespace Context

/-- The recipient of a source, if the state has one. -/
def recipient (c : Context) (mode : Mode) (source : Resident) : Option Recipient :=
  (c.delivery mode).bind fun d => d.deliveries source

/-- `flow.set(key, state, store)` -/
def set (c : Context) (mode : Mode) (d : Delivery) : Context :=
  { c with delivery := fun m => if m = mode then some d else c.delivery m }

end Context

/-- The recipient of a source is replaced. -/
def Delivery.put (d : Delivery) (source : Resident) (r : Recipient) : Delivery :=
  { d with deliveries := fun s => if s = source then some r else d.deliveries s }

/-! ## Messages -/

/-- `policy`, as far as it is read here. -/
structure Policy where
  dedupeTtlMs : ℚ
  serviceRetrySeconds : ℚ
  deriving DecidableEq, Repr

/-- A validated arrival. -/
structure Arrival where
  /-- `_msgid` -/
  id : ℕ
  mode : Mode
  source : Resident
  stage : Stage
  eventAt : ℚ
  /-- `notification_cycle_id`, if it is a text that starts with the source. -/
  cycle : Option String
  policy : Policy
  deriving DecidableEq, Repr

/-- `notification_key` in `event-normalize` -/
def Arrival.key (a : Arrival) : Key :=
  match a.cycle with
  | some id => .cycle id
  | none => .event a.source a.stage a.eventAt

/-- An arrival on its way, with what the nodes added. -/
structure Notice where
  arrival : Arrival
  retryCount : ℕ
  reservation : Option Token
  /-- `notification_recipient_state` -/
  recipient : Option Recipient
  deriving DecidableEq, Repr

/-- A message at a node, or an effect. -/
inductive Message where
  | stateMigrate (n : Notice)
  | stateRead (n : Notice)
  | stateWrite (n : Notice)
  | deliveryAck (n : Notice)
  | dryRun (n : Notice)
  | deliveryFailure (n : Notice)
  /-- The call of the service, or in a test its record. -/
  | dispatch (n : Notice)
  deriving DecidableEq, Repr

/-! ## Reservation -/

/-- The recipient of an item of an earlier version. -/
def LegacyItem.recipient (i : LegacyItem) : Recipient :=
  { Recipient.empty with
    acceptedKey := i.acceptedKey <|> i.deliveredKey
    acceptedAt := some ((i.acceptedAt <|> i.deliveredAt).getD 0)
    pendingKey := i.pendingKey
    pendingAt := some (i.pendingAt.getD 0) }

/-- `resident-notifications-state-migrate.js` -/
def stateMigrate (n : Notice) (c : Context) : Context × List Message :=
  match c.delivery n.arrival.mode with
  | some _ => (c, [.stateRead n])
  | none => (c.set n.arrival.mode ⟨0, fun s =>
      if n.arrival.mode = .test then none else (c.legacy s).map LegacyItem.recipient⟩, [.stateRead n])

/-- The last acceptance is recent. -/
def Recipient.recent (r : Recipient) (p : Policy) (now : ℚ) : Prop :=
  ∃ t ∈ r.acceptedAt, now - t < p.dedupeTtlMs

instance (r : Recipient) (p : Policy) (now : ℚ) : Decidable (r.recent p now) := by
  unfold Recipient.recent; infer_instance

/-- The pending reservation is recent. -/
def Recipient.pendingRecent (r : Recipient) (p : Policy) (now : ℚ) : Prop :=
  ∃ t ∈ r.pendingAt, now - t < p.serviceRetrySeconds * 1000

instance (r : Recipient) (p : Policy) (now : ℚ) : Decidable (r.pendingRecent p now) := by
  unfold Recipient.pendingRecent; infer_instance

/-- `differentCycle` -/
def Recipient.differentCycle (r : Recipient) (a : Arrival) : Prop :=
  a.cycle.isSome ∧ (∃ k ∈ r.acceptedKey, k.isCycle = true) ∧ r.acceptedKey ≠ some a.key

instance (r : Recipient) (a : Arrival) : Decidable (r.differentCycle a) := by
  unfold Recipient.differentCycle; infer_instance

/-- `homeFollowup` -/
def Recipient.homeFollowup (r : Recipient) (a : Arrival) (now : ℚ) : Prop :=
  a.stage = .home ∧ r.recent a.policy now ∧ ¬ r.differentCycle a ∧ r.acceptedStage.isSome

instance (r : Recipient) (a : Arrival) (now : ℚ) : Decidable (r.homeFollowup a now) := by
  unfold Recipient.homeFollowup; infer_instance

/-- `duplicate` -/
def Recipient.duplicate (r : Recipient) (a : Arrival) (now : ℚ) : Prop :=
  (∃ t ∈ r.acceptedEventAt, a.eventAt < t) ∨
    (r.pendingRecent a.policy now ∧ ∃ t ∈ r.pendingEventAt, a.eventAt < t) ∨
    (r.acceptedKey = some a.key ∧ (r.recent a.policy now ∨ a.cycle.isSome)) ∨
    r.homeFollowup a now ∨ (r.pendingKey = some a.key ∧ r.pendingRecent a.policy now)

instance (r : Recipient) (a : Arrival) (now : ℚ) : Decidable (r.duplicate a now) := by
  unfold Recipient.duplicate; infer_instance

/-- The recipient with a new reservation. -/
def Recipient.reserve (r : Recipient) (a : Arrival) (token : Token) (now : ℚ) : Recipient :=
  { r with
    pendingKey := some a.key
    pendingAt := some now
    pendingToken := some token
    pendingEventAt := some a.eventAt
    pendingDispatched := false }

/-- `resident-notifications-state-read.js`, and the switch behind it. -/
def stateRead (now : ℚ) (n : Notice) (c : Context) : Context × List Message :=
  let a := n.arrival
  let d := (c.delivery a.mode).getD .empty
  let r := (d.deliveries a.source).getD .empty
  if r.duplicate a now then (c, [])
  else
    -- Reading and reserving is one step.
    let token : Token := ⟨now, d.sequence + 1⟩
    let reserved := r.reserve a token now
    (c.set a.mode ({ d with sequence := d.sequence + 1 }.put a.source reserved),
      [.stateWrite { n with reservation := some token, recipient := some reserved }])

/-! ## Dispatch, acceptance and failure -/

/-- `resident-notifications-state-write.js` -/
def stateWrite (n : Notice) (c : Context) : Context × List Message :=
  let a := n.arrival
  match c.delivery a.mode, c.recipient a.mode a.source with
  | some d, some r =>
    if r.pendingToken = n.reservation ∧ r.pendingKey = some a.key ∧ r.pendingDispatched ≠ true then
      let dispatched := { r with pendingDispatched := true }
      (c.set a.mode (d.put a.source dispatched), [.dispatch { n with recipient := some dispatched }])
    else (c, [])
  | _, _ => (c, [])

/-- The recipient of a callback: the stored one, or the one that the message carries. -/
def Notice.called (n : Notice) (c : Context) : Option Recipient :=
  c.recipient n.arrival.mode n.arrival.source <|> n.recipient

/-- The recipient after an acceptance. -/
def Recipient.accept (r : Recipient) (a : Arrival) (now : ℚ) : Recipient :=
  { r with
    acceptedKey := some a.key
    acceptedAt := some now
    acceptedEventAt := some a.eventAt
    acceptedStage := some a.stage
    pendingKey := none
    pendingAt := some 0 }

/-- `resident-notifications-delivery-ack.js`; in a test, `resident-notifications-dry-run.js`. -/
def accept (now : ℚ) (n : Notice) (c : Context) : Context × List Message :=
  let a := n.arrival
  let r := n.called c
  -- A callback of an older reservation is ignored.
  if r.bind Recipient.pendingToken = n.reservation then
    (c.set a.mode (((c.delivery a.mode).getD .empty).put a.source ((r.getD .empty).accept a now)), [])
  else (c, [])

/-- `ownsReservation` -/
def Notice.owns (n : Notice) (c : Context) : Prop :=
  ∃ r ∈ n.called c, r.pendingKey = some n.arrival.key ∧ r.pendingToken = n.reservation

instance (n : Notice) (c : Context) : Decidable (n.owns c) := by unfold Notice.owns; infer_instance

/-- The recipient after a failure. -/
def Recipient.release (r : Recipient) : Recipient := { r with pendingKey := none, pendingAt := some 0 }

/-- `resident-notifications-delivery-failure.js`, and the switch behind it. -/
def deliveryFailure (n : Notice) (c : Context) : Context × List Message :=
  let a := n.arrival
  if n.owns c then
    let d := (c.delivery a.mode).getD .empty
    let retry := { n with retryCount := n.retryCount + 1 }
    (c.set a.mode (d.put a.source ((n.called c).getD .empty).release),
      if retry.retryCount ≤ 2 then [.stateRead retry] else [])
  else (c, [])

/-! ## The flow -/

/-- What the nodes do. -/
def nodes : Nodes Context Message := fun now m c =>
  match m with
  | .stateMigrate n => stateMigrate n c
  | .stateRead n => stateRead now n c
  | .stateWrite n => stateWrite n c
  | .deliveryAck n => accept now n c
  | .dryRun n => accept now n c
  | .deliveryFailure n => deliveryFailure n c
  | .dispatch _ => (c, [])

/-- The notice was dispatched. -/
def Dispatched (b : Board Context Message) (n : Notice) : Prop :=
  ∃ h ∈ b.history, .dispatch n ∈ h.sent nodes

/-- Arrivals come with ids of their own, and callbacks of notices that were dispatched, any number
    of them and at any time. -/
def outside (arrives : Arrival → Prop) : Outside Context Message where
  start c := c.delivery = fun _ => none
  enters b m := match m with
    | .stateMigrate n => arrives n.arrival ∧ n.retryCount = 0 ∧ n.reservation = none ∧
        ∀ n', .stateMigrate n' ∈ b.entered → n'.arrival.id ≠ n.arrival.id
    | .deliveryAck n => n.arrival.mode = .production ∧ Dispatched b n
    | .dryRun n => n.arrival.mode = .test ∧ Dispatched b n
    | .deliveryFailure n => Dispatched b n
    | _ => False
  others c c' := c' = c

/-- The runs of the flow. -/
def noticeMachine (arrives : Arrival → Prop) : Machine (Board Context Message) :=
  flowMachine nodes (outside arrives)

end SmartHome.ResidentNotifications
