/-
  The incidents of the host observer (`host-observer-lifecycle.js`): a failure is confirmed and
  notified once, and what was notified is dismissed when the observation is healthy again.

  Times are in milliseconds.  A date that is out of range throws where its text is made, which is
  after the state was stored.
-/
import Mathlib.Algebra.Order.Ring.Rat
import SmartHome.Lib.Table

namespace SmartHome.HostObserver

open Verif

/-! ## Facts -/

/-- A field that is a text, `null` or missing. -/
inductive Field where
  | missing | null
  | text (s : String)
  deriving DecidableEq, Repr

/-- `x ?? null` -/
def Field.value : Field → Option String
  | text s => some s
  | _ => none

/-- `Date.parse`; the empty text is no date. -/
def Field.parse (dateParse : String → Option ℚ) (f : Field) : Option ℚ :=
  f.value.bind fun s => if s = "" then none else dateParse s

/-- A text that is not empty. -/
def Field.truthy (f : Field) : Bool := f.value.any (· ≠ "")

/-- `_host_fact` -/
structure Fact where
  kind : String
  source : Option String
  name : String
  occurredAt : Field
  observedAt : Field
  deriving DecidableEq

inductive Signal where
  | failed | healthy | unknown
  deriving DecidableEq, Repr

/-- `_host_policy`; a bound that is not a finite number is missing. -/
structure Policy where
  resourceConfirmMs : Option ℚ
  observationConfirmMs : Option ℚ
  eventConfirmMs : Option ℚ
  deriving DecidableEq

/-- A message.  A signal of another text is missing. -/
structure Message where
  test : Bool
  runId : Option String
  now : ℚ
  policy : Policy
  fact : Fact
  signal : Option Signal
  deriving DecidableEq

/-- The name of the incident. -/
def Fact.incident (f : Fact) : String := f.kind ++ "_" ++ f.source.getD "host" ++ "_" ++ f.name

/-- `/^[a-z0-9_-]{1,90}$/`.  The kinds are native, resource and observation, so no name is `__proto__`. -/
def isIncidentName (s : String) : Bool :=
  decide (1 ≤ s.toList.length ∧ s.toList.length ≤ 90) &&
    s.toList.all fun c => c.isLower || c.isDigit || c = '_' || c = '-'

/-- The signal of a message that is not ignored. -/
def Message.accepted (m : Message) : Option Signal := if isIncidentName m.fact.incident then m.signal else none

/-- `confirmation` -/
def Message.confirmation (m : Message) : Option ℚ :=
  if m.fact.kind = "resource" then m.policy.resourceConfirmMs
  else if m.fact.kind = "observation" then m.policy.observationConfirmMs
  else m.policy.eventConfirmMs

/-! ## Incidents -/

/-- `source_time_kind` -/
inductive TimeKind where
  | producerOccurrence | producerObservation | unknown
  deriving DecidableEq, Repr

def Fact.timeKind (f : Fact) : TimeKind :=
  if f.occurredAt.truthy then .producerOccurrence
  else if f.observedAt.truthy then .producerObservation
  else .unknown

/-- `occurred_at ?? observed_at ?? null` -/
def Fact.sourceAt (f : Fact) : Option String := f.occurredAt.value.or f.observedAt.value

/-- `current_evidence` -/
inductive Evidence where
  | missing | failed | unknown
  deriving DecidableEq, Repr

structure Row where
  firstSeenAt : ℚ
  lastSeenAt : ℚ
  notifiedAt : Option ℚ
  kind : String
  sourceFirstObservedAt : Option String
  sourceTimeKind : TimeKind
  currentEvidence : Evidence
  /-- Zero where it is missing. -/
  sampleCount : ℕ
  lastSampleAt : Field
  clockConflict : Bool
  deriving DecidableEq

/-- A row that a former version left behind. -/
structure Record where
  role : String
  quarantinedAt : ℚ
  original : Row
  deriving DecidableEq

structure State where
  incidents : List (String × Row)
  legacyHistory : List Record
  deriving DecidableEq

def State.empty : State := ⟨[], []⟩

/-- The incident of a name. -/
def State.row (s : State) (name : String) : Option Row := (lookup Prod.fst name s.incidents).map Prod.snd

/-! ## The migration -/

def knownNative : List String :=
  ["homeassistant", "nodered", "mosquitto", "portainer", "appdaemon", "matter_server", "zigbee2mqtt",
    "ai-bridge", "docs-review-scheduler", "kia-uvo-codex-merge"].map ("native_docker_" ++ ·) ++
  ["docker", "procmon", "mcp_collection", "external_heartbeat", "events", "ha_notices",
    "host_observation"].map ("native_systemd_" ++ ·)

section
variable (dateParse : String → Option ℚ)

/-- `legacyRow` -/
def Row.Legacy (r : Row) : Prop :=
  r.kind = "native" ∧ 0 ≤ r.firstSeenAt ∧ 0 ≤ r.lastSeenAt ∧
    (∃ n ∈ r.notifiedAt, 0 ≤ n ∧ n < r.firstSeenAt) ∧ r.firstSeenAt ≤ r.lastSeenAt ∧
    r.currentEvidence ≠ .missing ∧ (∀ s ∈ r.sourceFirstObservedAt, (dateParse s).isSome) ∧
    ∀ s ∈ r.lastSampleAt.value, (dateParse s).isSome

instance (r : Row) : Decidable (r.Legacy dateParse) := by unfold Row.Legacy; infer_instance

/-- `historyValid` -/
def HistoryValid (records : List Record) : Prop :=
  records.length ≤ 64 ∧
    (∀ x ∈ records, x.role ∈ knownNative ∧ 0 ≤ x.quarantinedAt ∧ x.original.Legacy dateParse ∧
      x.original.lastSeenAt ≤ x.quarantinedAt) ∧ (records.map Record.role).Nodup

instance (records : List Record) : Decidable (HistoryValid dateParse records) := by
  unfold HistoryValid; infer_instance

/-- The migration of one row. -/
def migrateRow (now : ℚ) (s : State) (entry : String × Row) : State :=
  if ¬(entry.1 ∈ knownNative ∧ entry.2.Legacy dateParse ∧ entry.2.lastSeenAt ≤ now) then s
  else
    match s.legacyHistory.find? fun x => x.role = entry.1 with
    | some existing =>
      -- the same row again is removed, another one stays unresolved
      if existing.original ≠ entry.2 then s else { s with incidents := remove Prod.fst entry.1 s.incidents }
    | none =>
      if 64 ≤ s.legacyHistory.length then s
      else ⟨remove Prod.fst entry.1 s.incidents, s.legacyHistory ++ [⟨entry.1, now, entry.2⟩]⟩

/-- The migration of the rows that a former version left inconsistent. -/
def State.migrate (now : ℚ) (s : State) : State :=
  if HistoryValid dateParse s.legacyHistory then s.incidents.foldl (migrateRow dateParse now) s else s

/-- The fact repeats an event that was migrated. -/
def State.Repeated (s : State) (m : Message) : Prop :=
  HistoryValid dateParse s.legacyHistory ∧
    ∃ record ∈ s.legacyHistory.find? fun x => x.role = m.fact.incident, s.row m.fact.incident = none ∧
      ∀ at' ∈ m.fact.occurredAt.parse dateParse, at' ≤ record.original.lastSeenAt

instance (s : State) (m : Message) : Decidable (s.Repeated dateParse m) := by
  unfold State.Repeated; infer_instance

/-! ## Alerts -/

/-- What is sent to the observer. -/
structure Alert where
  test : Bool
  runId : Option String
  recovery : Bool
  incidentKey : String
  hostSource : String
  hostRole : String
  sourceObservedAt : Option String
  sourceTimeKind : TimeKind
  firstDetectedAt : ℚ
  policyDecidedAt : ℚ
  title : String
  message : String
  deriving DecidableEq

/-- A date with a text. -/
def Representable (t : ℚ) : Prop := -8640000000000000 ≤ t ∧ t ≤ 8640000000000000

instance (t : ℚ) : Decidable (Representable t) := by unfold Representable; infer_instance

/-- `label` -/
def Fact.label (f : Fact) : String :=
  if f.kind = "resource" then "recurso " ++ f.name
  else if f.kind = "observation" then "observação " ++ f.name
  else "serviço " ++ f.name

def alertTitle (test recovery : Bool) : String :=
  (if test then "TESTE — " else "") ++ if recovery then "Observação recuperada" else "Servidor exige atenção"

/-- `alert(true)`; nothing where it throws. -/
def Message.recoveryAlert (m : Message) : Option Alert :=
  if Representable m.now then some {
    test := m.test, runId := if m.test then m.runId else none, recovery := true
    incidentKey := m.fact.incident, hostSource := m.fact.source.getD "host", hostRole := m.fact.name
    sourceObservedAt := m.fact.sourceAt, sourceTimeKind := m.fact.timeKind
    firstDetectedAt := m.now, policyDecidedAt := m.now, title := alertTitle m.test true
    message := "A observação de " ++ m.fact.label ++
      " voltou ao estado esperado. O incidente anterior foi encerrado." }
  else none

/-- `alert(false)`; nothing where it throws. -/
def Message.failureAlert (m : Message) (r : Row) : Option Alert :=
  if Representable m.now ∧ Representable r.firstSeenAt then some {
    test := m.test, runId := if m.test then m.runId else none, recovery := false
    incidentKey := m.fact.incident, hostSource := m.fact.source.getD "host", hostRole := m.fact.name
    sourceObservedAt := r.sourceFirstObservedAt, sourceTimeKind := r.sourceTimeKind
    firstDetectedAt := r.firstSeenAt, policyDecidedAt := m.now, title := alertTitle m.test false
    message := "Foi confirmada uma condição de atenção em " ++ m.fact.label ++
      ". A Eva pode consultar o MCP para verificar a causa e os próximos passos. " ++
      "Este aviso não comprova uma ação do assistente ou a saúde de todos os serviços." }
  else none

/-! ## The lifecycle -/

/-- The incident before this failure. -/
def Message.incidentOf (m : Message) : Option Row → Row
  | none => ⟨m.now, m.now, none, m.fact.kind, m.fact.sourceAt, m.fact.timeKind, .missing, 0, .missing, false⟩
  | some r =>
    -- unknown evidence restarts a failure that was not confirmed
    if r.currentEvidence = .unknown ∧ r.notifiedAt = none then
      { r with
        firstSeenAt := m.now, sampleCount := 0, lastSampleAt := .null
        sourceFirstObservedAt := m.fact.sourceAt, sourceTimeKind := m.fact.timeKind }
    else r

/-- The sample of a resource. -/
def Message.sampled (m : Message) (r : Row) : Row :=
  if m.fact.kind = "resource" ∧ m.fact.observedAt ≠ r.lastSampleAt then
    match m.fact.observedAt.parse dateParse with
    | none => { r with clockConflict := true }
    | some observed =>
      -- a text that is not a date is not before anything
      if r.lastSampleAt.truthy = true ∧ (∃ last ∈ r.lastSampleAt.parse dateParse, observed < last) then
        { r with clockConflict := true }
      else { r with sampleCount := r.sampleCount + 1, lastSampleAt := m.fact.observedAt }
  else r

/-- The incident with this failure. -/
def Message.failedRow (m : Message) (old : Option Row) : Row :=
  m.sampled dateParse { m.incidentOf old with lastSeenAt := m.now, currentEvidence := .failed }

/-- The failure is confirmed and not notified. -/
def Message.Due (m : Message) (r : Row) : Prop :=
  (∃ confirmation ∈ m.confirmation, 1000 ≤ confirmation ∧ confirmation ≤ m.now - r.firstSeenAt) ∧
    r.clockConflict = false ∧ (m.fact.kind = "resource" → 2 ≤ r.sampleCount) ∧ r.notifiedAt = none

instance (m : Message) (r : Row) : Decidable (m.Due r) := by unfold Message.Due; infer_instance

/-- The state with the row of an incident. -/
def State.set (s : State) (name : String) (r : Row) : State :=
  { s with incidents := upsert Prod.fst (name, r) s.incidents }

/-- A signal for an incident, after the migration. -/
def State.signal (s : State) (m : Message) (x : Signal) : State × Option Alert :=
  let name := m.fact.incident
  let old := s.row name
  if ∃ r ∈ old, m.now < r.lastSeenAt then
    (old.elim s fun r => s.set name { r with clockConflict := true }, none)
  else
    match x with
    | .unknown => (old.elim s fun r => s.set name { r with currentEvidence := .unknown, lastSeenAt := m.now }, none)
    | .healthy =>
      ({ s with incidents := remove Prod.fst name s.incidents },
        -- a time of zero is taken for none
        if ∃ r ∈ old, ∃ at' ∈ r.notifiedAt, at' ≠ 0 then m.recoveryAlert else none)
    | .failed =>
      let r := m.failedRow dateParse old
      if m.Due r then (s.set name { r with notifiedAt := some m.now }, m.failureAlert r)
      else (s.set name r, none)

/-- `host-observer-lifecycle` -/
def lifecycle (m : Message) (s : State) : State × Option Alert :=
  match m.accepted with
  | none => (s, none)
  | some x =>
    let s := s.migrate dateParse m.now
    if s.Repeated dateParse m then (s, none) else s.signal dateParse m x

end
end SmartHome.HostObserver
