/-
  The incremental index of a Codex session file (`updateCodexUsageFile`).

  The objects that the code changes in place (the state, its token totals, the map of days, the
  list of rate events) are cells of a heap, so that what a copy shares with its original can be
  seen.  Objects that are only ever replaced are values.
-/
import SmartHome.Lib.Js
import SmartHome.Lib.Utf8

namespace SmartHome.CodexUsage

open Verif

/-! ## Values -/

/-- JSON values, numbers and dates, as far as the code touches them. -/
structure Runtime where
  Value : Type
  Num : Type
  Date : Type
  Error : Type
  /-- `JSON.parse`, if it does not throw -/
  parse : List Char → Option Value
  /-- A property of a value that is not `null`. -/
  prop : Value → String → Option Value
  isNull : Value → Bool
  truthy : Value → Bool
  /-- `typeof value === 'string'`, and the text -/
  text : Value → Option (List Char)
  /-- A property of `null` is read. -/
  typeError : Error
  /-- `new Date(value)`, unless it is not a valid date -/
  date : Option Value → Except Error (Option Date)
  /-- `timestamp.toISOString().slice(0, 10)` -/
  day : Date → String
  /-- `>` of dates -/
  later : Date → Date → Bool
  ofNum : Num → Value
  /-- `Math.max(0, Number(value) || 0)` -/
  count : Option Value → Except Error Num
  zero : Num
  /-- `>=` -/
  ge : Num → Num → Bool
  sub : Num → Num → Num
  add : Num → Num → Num
  /-- `Number.isFinite(value) && value > 0` -/
  positive : Num → Bool

variable {R : Runtime}

/-- The keys of `emptyTokens()`. -/
inductive TokenKey where
  | input | cachedInput | output | reasoningOutput | total
  deriving DecidableEq, Repr

def TokenKey.name : TokenKey → String
  | input => "input_tokens"
  | cachedInput => "cached_input_tokens"
  | output => "output_tokens"
  | reasoningOutput => "reasoning_output_tokens"
  | total => "total_tokens"

abbrev Tokens (R : Runtime) := TokenKey → R.Num

def emptyTokens : Tokens R := fun _ => R.zero

/-- `addTokens` -/
def addTokens (target usage : Tokens R) : Tokens R := fun key =>
  if R.positive (usage key) then R.add (target key) (usage key) else target key

/-- A value for each key, computed in their order. -/
def forKeys (f : TokenKey → Except R.Error R.Num) : Except R.Error (Tokens R) := do
  let input ← f .input
  let cachedInput ← f .cachedInput
  let output ← f .output
  let reasoningOutput ← f .reasoningOutput
  let total ← f .total
  return fun
    | .input => input
    | .cachedInput => cachedInput
    | .output => output
    | .reasoningOutput => reasoningOutput
    | .total => total

/-- `value?.key` -/
def optProp (value : Option R.Value) (key : String) : Option R.Value :=
  value.bind fun v => if R.isNull v then none else R.prop v key

/-- `value === text` -/
def isText (value : Option R.Value) (text : String) : Bool := value.any fun v => R.text v = some text.toList

def isTruthy (value : Option R.Value) : Bool := value.any R.truthy

/-- `planType(rateLimits)` as a condition -/
def planType (rateLimits : Option R.Value) : Bool :=
  (optProp rateLimits "plan_type").any fun v => (R.text v).any fun t => !isBlank t

structure Candidate (R : Runtime) where
  timestamp : R.Date
  rateLimits : Option R.Value

/-- A token event of a line. -/
structure Event (R : Runtime) where
  candidate : Candidate R
  /-- `event.payload.info?.total_token_usage || {}` -/
  current : Option R.Value

/-- The token event that a line holds, if any; reading a property of a line `null` throws. -/
def tokenEvent (line : List Char) : Except R.Error (Option (Event R)) :=
  if isBlank line then .ok none
  else match R.parse line with
    | none => .ok none
    | some event =>
      if R.isNull event then .error R.typeError
      else
        let payload := R.prop event "payload"
        if !isText (R.prop event "type") "event_msg" || !isText (optProp payload "type") "token_count" then
          .ok none
        else do
          match ← R.date (R.prop event "timestamp") with
          | none => return none
          | some timestamp =>
            let usage := optProp (optProp payload "info") "total_token_usage"
            return some ⟨⟨timestamp, optProp payload "rate_limits"⟩, if isTruthy usage then usage else none⟩

/-- The tokens since the last event: all of them if its total went down. -/
def tokenDelta (previousTotal : TokenKey → R.Value) (current : Option R.Value) : Except R.Error (Tokens R) :=
  forKeys fun key => do
    let currentValue ← R.count (optProp current key.name)
    let previousValue ← R.count (some (previousTotal key))
    return if R.ge currentValue previousValue then R.sub currentValue previousValue else currentValue

/-- `{ ...previousTotal, ...current }` -/
def spread (previousTotal : TokenKey → R.Value) (current : Option R.Value) : TokenKey → R.Value :=
  fun key => (optProp current key.name).getD (previousTotal key)

/-- The candidate, if it is later than the latest one. -/
def latest (old : Option (Candidate R)) (candidate : Candidate R) : Option (Candidate R) :=
  match old with
  | none => some candidate
  | some o => if R.later candidate.timestamp o.timestamp then some candidate else some o

/-- `map.set(key, value)` -/
def setEntry {α : Type} (map : List (String × α)) (key : String) (value : α) : List (String × α) :=
  if map.any (·.1 = key) then map.map fun e => if e.1 = key then (key, value) else e
  else map ++ [(key, value)]

/-- `map.get(key)` -/
def getEntry {α : Type} (map : List (String × α)) (key : String) : Option α :=
  (map.find? (·.1 = key)).map Prod.snd

/-! ## The heap -/

/-- A state; `totals`, `daily` and `rateEvents` refer to cells. -/
structure StateObject (R : Runtime) where
  totals : ℕ
  daily : ℕ
  previousTotal : TokenKey → R.Value
  latestEvent : Option (Candidate R)
  latestRateEvent : Option (Candidate R)
  latestPlanEvent : Option (Candidate R)
  latestCreditEvent : Option (Candidate R)
  eventCount : ℕ
  rateEvents : ℕ

/-- The cells of each kind; a day's tokens are a cell of `tokens`. -/
structure Heap (R : Runtime) where
  states : List (StateObject R)
  tokens : List (Tokens R)
  dailies : List (List (String × ℕ))
  events : List (List (Candidate R))

def Heap.empty : Heap R := ⟨[], [], [], []⟩

/-- `emptyCodexUsageState()` -/
def emptyState (h : Heap R) : Heap R × ℕ :=
  ({ states := h.states ++ [⟨h.tokens.length, h.dailies.length, fun _ => R.ofNum R.zero, none, none, none, none,
      0, h.events.length⟩]
     tokens := h.tokens ++ [emptyTokens]
     dailies := h.dailies ++ [[]]
     events := h.events ++ [[]] }, h.states.length)

/-- `copyCodexUsageState(state)` -/
def copyState (h : Heap R) (s : ℕ) : Heap R × ℕ :=
  match h.states[s]? with
  | none => (h, s)
  | some o =>
    ({ states := h.states ++ [{ o with
        totals := h.tokens.length, daily := h.dailies.length, rateEvents := h.events.length }]
       tokens := h.tokens ++ [(h.tokens[o.totals]?).getD emptyTokens]
       dailies := h.dailies ++ [(h.dailies[o.daily]?).getD []]
       events := h.events ++ [(h.events[o.rateEvents]?).getD []] }, h.states.length)

/-- A token event counts in the cells of its state, from `addTokens(state.totals, delta)` on. -/
def countEvent (h : Heap R) (s : ℕ) (o : StateObject R) (ev : Event R) (delta : Tokens R) : Heap R :=
  let day := R.day ev.candidate.timestamp
  let tokens := h.tokens.set o.totals (addTokens ((h.tokens[o.totals]?).getD emptyTokens) delta)
  let daily := (h.dailies[o.daily]?).getD []
  let old := ((getEntry daily day).bind fun r => tokens[r]?).getD emptyTokens
  let limits := ev.candidate.rateLimits
  let primary := isTruthy (optProp limits "primary")
  { states := h.states.set s { o with
      eventCount := o.eventCount + 1
      previousTotal := spread o.previousTotal ev.current
      latestEvent := latest o.latestEvent ev.candidate
      latestRateEvent := if primary then latest o.latestRateEvent ev.candidate else o.latestRateEvent
      latestPlanEvent := if planType limits then latest o.latestPlanEvent ev.candidate else o.latestPlanEvent
      latestCreditEvent := if isTruthy (optProp limits "credits") then latest o.latestCreditEvent ev.candidate
        else o.latestCreditEvent }
    tokens := tokens ++ [addTokens old delta]
    dailies := h.dailies.set o.daily (setEntry daily day tokens.length)
    events := if primary then
        h.events.set o.rateEvents ((h.events[o.rateEvents]?).getD [] ++ [ev.candidate])
      else h.events }

/-- `consumeCodexUsageLine(state, line)`; the event is counted before its tokens are read. -/
def consumeLine (h : Heap R) (s : ℕ) (line : List Char) : Heap R × Except R.Error Unit :=
  match tokenEvent line with
  | .error e => (h, .error e)
  | .ok none => (h, .ok ())
  | .ok (some ev) => match h.states[s]? with
    | none => (h, .ok ())
    | some o => match tokenDelta o.previousTotal ev.current with
      | .error e => ({ h with states := h.states.set s { o with eventCount := o.eventCount + 1 } }, .error e)
      | .ok delta => (countEvent h s o ev delta, .ok ())

/-- What `codexUsageSummary` returns; it shares its cells with a state. -/
structure Summary (R : Runtime) where
  totals : ℕ
  daily : ℕ
  latestEvent : Option (Candidate R)
  latestRateEvent : Option (Candidate R)
  latestPlanEvent : Option (Candidate R)
  latestCreditEvent : Option (Candidate R)
  eventCount : ℕ
  rateEvents : ℕ
  sessionCount : ℕ

/-- `{ ...summary, sessionCount }` without `previousTotal` -/
def StateObject.summary (o : StateObject R) : Summary R :=
  ⟨o.totals, o.daily, o.latestEvent, o.latestRateEvent, o.latestPlanEvent, o.latestCreditEvent, o.eventCount,
    o.rateEvents, if o.eventCount ≠ 0 then 1 else 0⟩

/-- `codexUsageSummary(state, pending)`: an unended line counts on a copy of the state. -/
def codexUsageSummary (h : Heap R) (s : ℕ) (pending : List UInt8) :
    Heap R × Except R.Error (Option (Summary R)) :=
  if pending = [] then (h, .ok (h.states[s]?.map StateObject.summary))
  else
    let (h, view) := copyState h s
    match consumeLine h view (decodeUtf8 pending) with
    | (h, .error e) => (h, .error e)
    | (h, .ok ()) => (h, .ok (h.states[view]?.map StateObject.summary))

/-! ## Reading the file -/

def sessionChunkBytes : ℕ := 64 * 1024

def sessionAnchorBytes : ℕ := 512

structure Stat where
  isFile : Bool
  dev : ℕ
  ino : ℕ
  size : ℕ
  mtimeMs : ℕ
  ctimeMs : ℕ
  deriving DecidableEq, Repr

/-- What one attempt finds: the file's stat when it is opened (`none` if there is no file), its
    bytes while it is read, and its stat afterwards by descriptor and by name. -/
structure Attempt where
  before : Option Stat
  bytes : List UInt8
  after : Stat
  named : Option Stat

inductive Failure (R : Runtime) where
  | sessionChanged
  | noEntry
  | thrown (e : R.Error)

/-- `readSessionBytes` -/
def readSessionBytes (a : Attempt) (offset length : ℕ) : Except (Failure R) (List UInt8) :=
  if offset + length ≤ a.bytes.length then .ok ((a.bytes.drop offset).take length) else .error .sessionChanged

structure Anchors where
  pre : ℕ
  suf : ℕ
  deriving DecidableEq, Repr

/-- `sessionAnchors`; `hash` is `createHash('sha256')`. -/
def sessionAnchors (hash : List UInt8 → ℕ) (a : Attempt) (size : ℕ) : Except (Failure R) Anchors := do
  let length := min size sessionAnchorBytes
  let pre ← readSessionBytes a 0 length
  let suf ← readSessionBytes a (size - length) length
  return ⟨hash pre, hash suf⟩

/-- `Buffer.concat(parts, total)` -/
def concatParts (parts : List (List UInt8)) (total : ℕ) : List UInt8 :=
  (parts.flatten ++ List.replicate total 0).take total

/-- The lines that end in a chunk; what is left of it waits in `parts`. -/
def scanChunk (h : Heap R) (s : ℕ) (parts : List (List UInt8)) (pendingBytes : ℕ) (chunk : List UInt8) :
    Heap R × Except (Failure R) (List (List UInt8) × ℕ) :=
  match _hend : chunk.findIdx? (· = 10) with
  | some i =>
    let part := chunk.take i
    match consumeLine h s (decodeUtf8 (concatParts (parts ++ [part]) (pendingBytes + part.length))) with
    | (h, .error e) => (h, .error (.thrown e))
    | (h, .ok ()) => scanChunk h s [] 0 (chunk.drop (i + 1))
  | none =>
    if chunk = [] then (h, .ok (parts, pendingBytes))
    else (h, .ok (parts ++ [chunk], pendingBytes + chunk.length))
termination_by chunk.length
decreasing_by
  have := (List.findIdx?_eq_some_iff_findIdx_eq.1 _hend).1
  simp only [List.length_drop]
  omega

/-- The chunks from an offset up to `size`. -/
def scanChunks (a : Attempt) (size : ℕ) (h : Heap R) (s : ℕ) (parts : List (List UInt8)) (pendingBytes offset : ℕ) :
    Heap R × Except (Failure R) (List (List UInt8) × ℕ) :=
  if _hlt : offset < size then
    match readSessionBytes a offset (min sessionChunkBytes (size - offset)) with
    | .error e => (h, .error e)
    | .ok chunk => match scanChunk h s parts pendingBytes chunk with
      | (h, .error e) => (h, .error e)
      | (h, .ok (parts, pendingBytes)) =>
        scanChunks a size h s parts pendingBytes (offset + min sessionChunkBytes (size - offset))
  else (h, .ok (parts, pendingBytes))
termination_by size - offset
decreasing_by
  simp only [sessionChunkBytes]
  omega

/-- What the reader keeps of a file. -/
structure Indexed (R : Runtime) where
  fingerprint : Stat
  dev : ℕ
  ino : ℕ
  size : ℕ
  anchors : Anchors
  state : ℕ
  pending : List UInt8
  summary : Option (Summary R)

/-- The previous index is extended: the file is the same and has grown, and so are its edges. -/
def reuses (hash : List UInt8 → ℕ) (a : Attempt) (before : Stat) (previous : Option (Indexed R))
    (appendOnly : Bool) : Except (Failure R) (Option (Indexed R)) :=
  match previous with
  | none => .ok none
  | some p =>
    if appendOnly && p.dev = before.dev && p.ino = before.ino && p.size < before.size then do
      let anchors ← sessionAnchors hash a p.size
      return if p.anchors = anchors then some p else none
    else .ok none

/-- The file was changed while it was read. -/
def unstable (before after named : Stat) (anchors again : Anchors) : Bool :=
  after.size < before.size || named.dev ≠ before.dev || named.ino ≠ before.ino ||
    (after.size = before.size && (after.mtimeMs ≠ before.mtimeMs || after.ctimeMs ≠ before.ctimeMs)) ||
    anchors ≠ again

/-- The bytes from an offset on are scanned, the file is checked again, and the index is made. -/
def indexFrom (hash : List UInt8 → ℕ) (a : Attempt) (before : Stat) (anchors : Anchors) (h : Heap R) (s : ℕ)
    (parts : List (List UInt8)) (pendingBytes offset : ℕ) :
    Heap R × Except (Failure R) (Option (Indexed R)) :=
  match scanChunks a before.size h s parts pendingBytes offset with
  | (h, .error e) => (h, .error e)
  | (h, .ok (parts, pendingBytes)) => match a.named with
    | none => (h, .error .noEntry)
    | some named => match sessionAnchors hash a before.size with
      | .error e => (h, .error e)
      | .ok again =>
        if unstable before a.after named anchors again then (h, .error .sessionChanged)
        else
          let pending := concatParts parts pendingBytes
          match codexUsageSummary h s pending with
          | (h, .error e) => (h, .error (.thrown e))
          | (h, .ok summary) =>
            (h, .ok (some ⟨before, before.dev, before.ino, before.size, anchors, s, pending, summary⟩))

/-- One attempt of `updateCodexUsageFile`. -/
def attemptUpdate (hash : List UInt8 → ℕ) (h : Heap R) (a : Attempt) (previous : Option (Indexed R))
    (appendOnly : Bool) : Heap R × Except (Failure R) (Option (Indexed R)) :=
  match a.before with
  | none => (h, .error .noEntry)
  | some before =>
    if !before.isFile then (h, .ok none)
    else match sessionAnchors hash a before.size with
      | .error e => (h, .error e)
      | .ok anchors => match reuses hash a before previous appendOnly with
        | .error e => (h, .error e)
        | .ok (some p) =>
          let (h, s) := copyState h p.state
          indexFrom hash a before anchors h s (if p.pending = [] then [] else [p.pending]) p.pending.length p.size
        | .ok none =>
          let (h, s) := emptyState h
          indexFrom hash a before anchors h s [] 0 0

/-- `updateCodexUsageFile(filePath, previous, appendOnly)`; a changed file is read once more, without
    the previous index. -/
def updateCodexUsageFile (hash : List UInt8 → ℕ) (h : Heap R) (first second : Attempt)
    (previous : Option (Indexed R)) (appendOnly : Bool) : Heap R × Except (Failure R) (Option (Indexed R)) :=
  match attemptUpdate hash h first previous appendOnly with
  | (h, .error .sessionChanged) => match attemptUpdate hash h second none appendOnly with
    | (h, .error .noEntry) => (h, .ok none)
    | r => r
  | (h, .error .noEntry) => (h, .ok none)
  | r => r

/-! ## Runs -/

/-- A call of `updateCodexUsageFile`: what its attempts find. -/
structure Call where
  first : Attempt
  second : Attempt
  appendOnly : Bool

/-- What `refreshSessionIndex` holds for the file. -/
structure Reader (R : Runtime) where
  heap : Heap R
  previous : Option (Indexed R)

/-- A call with the previous index; a call that throws leaves it. -/
def Reader.call (hash : List UInt8 → ℕ) (r : Reader R) (c : Call) :
    Reader R × Except (Failure R) (Option (Indexed R)) :=
  let (h, o) := updateCodexUsageFile hash r.heap c.first c.second r.previous c.appendOnly
  (⟨h, match o with
    | .ok i => i
    | .error _ => r.previous⟩, o)

def runCalls (hash : List UInt8 → ℕ) (calls : List Call) : Reader R :=
  calls.foldl (fun r c => (r.call hash c).1) ⟨Heap.empty, none⟩

/-- `updateCodexUsageFile(filePath)` -/
def rescan (hash : List UInt8 → ℕ) (c : Call) : Heap R × Except (Failure R) (Option (Indexed R)) :=
  updateCodexUsageFile hash Heap.empty c.first c.second none false

end SmartHome.CodexUsage
