/-
  The native sender: a broker plugin that counts the callbacks of seven event classes and
  sends the counts as datagrams (`native_sender_authorized.c`).

  A callback that finds the lock taken only counts itself as pending.  The holder of the lock
  drains what is pending, puts its own row into the ring and tries to send a frame.  An `add`
  that would overflow disables the plugin for good.  Functions that may disable the plugin and
  return early have results in `Except Plugin Plugin`: an error is the disabled plugin.
-/
import SmartHome.Mqtt.Accept

namespace SmartHome.Mqtt.Native

open Verif

/-- `UINT64_MAX` -/
def uint64Max : ℕ := 2 ^ 64 - 1

/-- `CAPACITY` -/
def capacity : ℕ := 256

/-- `FRAME_LIMIT` -/
def frameLimit : ℕ := 32768

/-- `SEND_INTERVAL_NS` -/
def sendIntervalNs : ℕ := 250000000

/-! ## The environment of a call -/

/-- What `clock_gettime` answers. -/
structure Timespec where
  ok : Bool
  sec : ℤ
  nsec : ℤ

/-- `clock_ns`, `none` where it returns false. -/
def clockNs (t : Timespec) : Option ℕ :=
  if t.ok = false ∨ t.sec < 0 ∨ t.nsec < 0 ∨ 1000000000 ≤ t.nsec then none
  else if (uint64Max - t.nsec.toNat) / 1000000000 < t.sec.toNat then none
  else some (t.sec.toNat * 1000000000 + t.nsec.toNat)

theorem clockNs_le {t : Timespec} {n : ℕ} (h : clockNs t = some n) : n ≤ uint64Max := by
  unfold clockNs at h
  split_ifs at h with h1 h2
  simp only [Option.some.injEq] at h
  have hns : t.nsec.toNat < 1000000000 := by omega
  have hsec := (Nat.le_div_iff_mul_le (by norm_num)).1 (not_lt.1 h2)
  unfold uint64Max at *
  omega

/-- The events that the broker reports: one of the seven classes, a tick, or anything else. -/
inductive Event where
  | observed (k : Kind)
  | tick
  | other
  deriving DecidableEq

/-- One entry into `metadata_callback`.  `allowed` says whether a tick finds the plugin
    authorized and not revoked. -/
structure Call where
  event : Event
  allowed : Bool
  clock : Timespec

/-- What `sendto` does with the whole frame. -/
inductive Outcome where
  | sent | failed | short
  deriving DecidableEq

/-- What one run of `emit_frame` meets: the clock, the authorization, the callbacks that find
    the lock taken before and after it drains the pending counts, the count of callbacks in
    progress, and the answer of `sendto`. -/
structure Attempt where
  clock : Timespec
  allowed : Bool
  early : List Call
  late : List Call
  callbacks : ℕ
  outcome : Outcome

/-! ## The plugin -/

/-- The static state of the plugin.  A time that is not known is `none`, and `used` is the
    length of `pending`. -/
structure Plugin where
  disabled : Bool
  active : Bool
  pendingDrop : Kind → ℕ
  pendingFaults : ℕ
  final : Bool
  closeBefore : Option ℕ
  socketOpen : Bool
  source : Hex 32
  started : Option ℕ
  eventSeq : ℕ
  frameSeq : ℕ
  total : Kind → ℕ
  dropped : Kind → ℕ
  clockFaults : ℕ
  sendFailures : ℕ
  lastAttempt : ℕ
  pending : List EventRow

/-- A datagram that the kernel took, with the state it was written from. -/
structure Sent where
  plugin : Plugin
  coveredBeforeNs : Option ℕ
  raw : Bytes

namespace Plugin
variable (p : Plugin)

/-- `disable` -/
def disable : Plugin := { p with disabled := true }

/-- `add`: go on with the new value of a counter, or disable the plugin. -/
def add (value amount : ℕ) (store : ℕ → Plugin) : Except Plugin Plugin :=
  if uint64Max - value < amount then .error p.disable else .ok (store (value + amount))

def addEventSeq (n : ℕ) : Except Plugin Plugin :=
  p.add p.eventSeq n fun v => { p with eventSeq := v }

def addTotal (k : Kind) (n : ℕ) : Except Plugin Plugin :=
  p.add (p.total k) n fun v => { p with total := Function.update p.total k v }

def addDropped (k : Kind) (n : ℕ) : Except Plugin Plugin :=
  p.add (p.dropped k) n fun v => { p with dropped := Function.update p.dropped k v }

def addClockFaults (n : ℕ) : Except Plugin Plugin :=
  p.add p.clockFaults n fun v => { p with clockFaults := v }

def addSendFailures (n : ℕ) : Except Plugin Plugin :=
  p.add p.sendFailures n fun v => { p with sendFailures := v }

/-- One turn of the loop of `drain_drops`. -/
def drainDrop (k : Kind) : Except Plugin Plugin := do
  let n := p.pendingDrop k
  let p := { p with pendingDrop := Function.update p.pendingDrop k 0 }
  let p ← p.addEventSeq n
  let p ← p.addTotal k n
  p.addDropped k n

/-- What `drain_drops` does with the `n` pending events of a class that it has taken. -/
def takeDrops (k : Kind) (n : ℕ) : Except Plugin Plugin := do
  let p ← p.addEventSeq n
  let p ← p.addTotal k n
  p.addDropped k n

/-- One turn of the loop of `drain_drops` is an exchange and the additions. -/
theorem drainDrop_eq (k : Kind) : p.drainDrop k =
    ({ p with pendingDrop := Function.update p.pendingDrop k 0 } : Plugin).takeDrops k
      (p.pendingDrop k) := rfl

/-- `drain_drops` -/
def drainDrops : Except Plugin Plugin := do
  let p ← kinds.foldlM drainDrop p
  ({ p with pendingFaults := 0 } : Plugin).addClockFaults p.pendingFaults

end Plugin

/-- The plugin after a step that may have disabled it. -/
def settle : Except Plugin Plugin → Plugin
  | .ok p => p
  | .error p => p

/-! ## Frames -/

/-- `append`: fails at the end of the buffer. -/
def append (buffer chunk : List Char) : Option (List Char) :=
  if frameLimit - buffer.length ≤ chunk.length then none else some (buffer ++ chunk)

/-- A counter in quotes. -/
def digits (n : ℕ) : List Char := '"' :: (Json.decimal n ++ ['"'])

/-- `stamp` -/
def stamp : Option ℕ → List Char
  | some n => digits n
  | none => "null".toList

/-- `counters` -/
def counters (values : Kind → ℕ) : List (List Char) :=
  "\x7b".toList :: kinds.map (fun k =>
    (if k = .publishIn then [] else [',']) ++ ("\"" ++ k.name ++ "\":").toList ++ digits (values k)) ++
    ["\x7d".toList]

/-- The texts that `emit_frame` appends for a row of the ring. -/
def rowChunks (first : Bool) (r : EventRow) : List (List Char) :=
  [(if first then [] else [',']) ++ "\x7b\"seq\":".toList ++ digits r.seq ++
    (",\"kind\":\"" ++ r.kind.name ++ "\",\"at_ns\":").toList, stamp r.atNs, "\x7d".toList]

/-- The texts for the ring. -/
def ringChunks : List EventRow → List (List Char)
  | [] => []
  | r :: rs => rowChunks true r ++ rs.flatMap (rowChunks false)

namespace Plugin
variable (p : Plugin)

/-- The texts that `emit_frame` appends, in order. -/
def chunks (covered : Option ℕ) (now : ℕ) : List (List Char) :=
  [("\x7b\"v\":3,\"final\":" ++ (if p.final then "true" else "false") ++
      ",\"covered_before_ns\":").toList,
    stamp covered, (",\"instance\":\"" ++ p.source.1 ++ "\",\"started_ns\":").toList,
    stamp p.started,
    ",\"frame_seq\":".toList ++ digits (p.frameSeq + 1) ++ ",\"event_seq\":".toList ++
      digits p.eventSeq ++ ",\"totals\":".toList] ++
    counters p.total ++ [",\"source_dropped\":".toList] ++ counters p.dropped ++
    [",\"clock_faults\":".toList ++ digits p.clockFaults ++ ",\"send_failures\":".toList ++
      digits p.sendFailures ++ ",\"emitted_ns\":".toList ++ digits now ++ ",\"events\":[".toList] ++
    ringChunks p.pending ++ ["]\x7d".toList]

/-- The frame in the buffer. -/
def text (covered : Option ℕ) (now : ℕ) : Option (List Char) :=
  (p.chunks covered now).foldlM append []

/-! ## Callbacks -/

/-- The gate of `metadata_callback`: go on with the event class, or leave. -/
def gate (c : Call) : Except Plugin (Option Kind) :=
  if p.disabled = true ∨ p.active = false then .error p
  else match c.event with
    | .other => .error p
    | .tick => if c.allowed then .ok none else .error p.disable
    | .observed k => .ok (some k)

/-- `atomic_increment` of a drop counter. -/
def incrementDrop (k : Kind) : Plugin :=
  { p with
    disabled := p.disabled || p.pendingDrop k = uint64Max
    pendingDrop := Function.update p.pendingDrop k ((p.pendingDrop k + 1) % 2 ^ 64) }

/-- `atomic_increment` of the fault counter. -/
def incrementFaults : Plugin :=
  { p with
    disabled := p.disabled || p.pendingFaults = uint64Max
    pendingFaults := (p.pendingFaults + 1) % 2 ^ 64 }

/-- `metadata_callback` where the lock is taken. -/
def contended (c : Call) : Plugin :=
  match p.gate c with
  | .error p => p
  | .ok kind =>
    let p := kind.elim p p.incrementDrop
    if (clockNs c.clock).isNone then p.incrementFaults else p

/-- The coverage stamp of `emit_frame`: a pending count or another callback in progress leaves
    it out, and the final frame covers what happened before the close. -/
def covered (callbacks callerCallbacks now : ℕ) : Option ℕ :=
  if callbacks = callerCallbacks ∧ (∀ k, p.pendingDrop k = 0) ∧ p.pendingFaults = 0 then
    if p.final then p.closeBefore.filter (· ≤ now) else some now
  else none

/-- The end of `emit_frame`, from the new `last_attempt` on.  A frame that the kernel takes is
    returned as well. -/
def transmit (covered : Option ℕ) (now : ℕ) (outcome : Outcome) : Plugin × Option Sent :=
  let p := { p with lastAttempt := now }
  if p.frameSeq = uint64Max then (p.disable, none)
  else match p.text covered now with
    | none => (p.disable, none)
    | some buffer =>
      if p.disabled then (p, none)
      else match outcome with
        | .sent =>
          ({ p with frameSeq := p.frameSeq + 1, pending := [] }, some ⟨p, covered, ascii buffer⟩)
        | .failed => (settle (p.addSendFailures 1), none)
        | .short => (p.disable, none)

/-- `emit_frame` -/
def emitFrame (force : Bool) (callerCallbacks : ℕ) (a : Attempt) : Plugin × Option Sent :=
  if p.disabled = true ∨ p.socketOpen = false then (p, none)
  else match clockNs a.clock with
    | none => (settle (p.addClockFaults 1), none)
    | some now =>
      if force = false ∧ p.lastAttempt ≠ 0 ∧ p.lastAttempt ≤ now ∧
          now - p.lastAttempt < sendIntervalNs then (p, none)
      else if now < p.lastAttempt then (p.disable, none)
      else if a.allowed = false then (p.disable, none)
      else match (a.early.foldl contended p).drainDrops with
        | .error p => (p, none)
        | .ok p =>
          let p := a.late.foldl contended p
          p.transmit (p.covered a.callbacks callerCallbacks now) now a.outcome

/-- Count a reading of the clock that failed. -/
def countFault (occurred : Option ℕ) : Except Plugin Plugin :=
  if occurred.isNone then p.addClockFaults 1 else .ok p

/-- The holder of the lock takes its own event into account. -/
def collect (kind : Option Kind) (occurred : Option ℕ) : Except Plugin Plugin := do
  let p ← p.drainDrops
  let p ← p.countFault occurred
  match kind with
  | none => .ok p
  | some k =>
    let p ← p.addEventSeq 1
    let p ← p.addTotal k 1
    if p.pending.length < capacity then
      .ok { p with pending := p.pending ++ [⟨p.eventSeq, k, occurred⟩] }
    else p.addDropped k 1

/-- What `metadata_callback` does between the drain and `emit_frame`. -/
def countEvent (kind : Option Kind) (occurred : Option ℕ) : Except Plugin Plugin := do
  let p ← p.countFault occurred
  match kind with
  | none => .ok p
  | some k =>
    let p ← p.addEventSeq 1
    let p ← p.addTotal k 1
    if p.pending.length < capacity then
      .ok { p with pending := p.pending ++ [⟨p.eventSeq, k, occurred⟩] }
    else p.addDropped k 1

/-- What the holder of the lock counts is what it drains and its own event. -/
theorem collect_eq (kind : Option Kind) (occurred : Option ℕ) :
    p.collect kind occurred = p.drainDrops >>= fun p => p.countEvent kind occurred := rfl

/-- `metadata_callback` where the lock is free. -/
def callback (c : Call) (a : Attempt) : Plugin × Option Sent :=
  match p.gate c with
  | .error p => (p, none)
  | .ok kind =>
    match p.collect kind (clockNs c.clock) with
    | .error p => (p, none)
    | .ok p => p.emitFrame false 1 a

end Plugin

/-! ## Start and end -/

/-- What `mosquitto_plugin_init` meets. -/
structure Startup where
  identifier : Bool
  count : ℤ
  allowed : Bool
  lockFree : Bool
  random : Option (Fin 16 → UInt8)
  socket : Bool
  registered : Bool
  clock : Timespec
  locked : Bool
  attempt : Attempt

/-- Two hexadecimal digits of a byte. -/
def hexByte (b : UInt8) : List Char := [Json.hexDigit (b.toNat / 16), Json.hexDigit (b.toNat % 16)]

theorem isHex_hexByte (random : Fin 16 → UInt8) :
    isHex 32 (String.ofList ((List.ofFn random).flatMap hexByte)) = true := by
  have hdigit : ∀ d < 16, ((Json.hexDigit d).isDigit ||
      ('a' ≤ Json.hexDigit d && Json.hexDigit d ≤ 'f')) = true := by decide
  have hlen : ∀ bs : List UInt8, (bs.flatMap hexByte).length = 2 * bs.length := by
    intro bs
    induction bs with
    | nil => rfl
    | cons b bs ih => rw [List.flatMap_cons, List.length_append, ih]; simp [hexByte]; omega
  simp only [isHex, String.toList_ofList, hlen, List.length_ofFn, Bool.and_eq_true,
    decide_eq_true_eq, List.all_eq_true, List.mem_flatMap]
  refine ⟨trivial, ?_⟩
  rintro c ⟨b, -, hc⟩
  have hb := b.toNat_lt
  simp only [hexByte, List.mem_cons, List.not_mem_nil, or_false] at hc
  rcases hc with rfl | rfl
  · exact hdigit _ (by omega)
  · exact hdigit _ (by omega)

/-- The text of `instance`. -/
def hexText (random : Fin 16 → UInt8) : Hex 32 :=
  ⟨String.ofList ((List.ofFn random).flatMap hexByte), isHex_hexByte random⟩

/-- The cleared state with a source instance. -/
def Plugin.blank (source : Hex 32) : Plugin where
  disabled := false
  active := false
  pendingDrop _ := 0
  pendingFaults := 0
  final := false
  closeBefore := none
  socketOpen := false
  source := source
  started := none
  eventSeq := 0
  frameSeq := 0
  total _ := 0
  dropped _ := 0
  clockFaults := 0
  sendFailures := 0
  lastAttempt := 0
  pending := []

/-- The state with a socket, the callbacks registered and the time of the start. -/
def Plugin.launch (source : Hex 32) (started : Option ℕ) : Plugin :=
  { Plugin.blank source with
    socketOpen := true
    started := started
    clockFaults := if started.isNone then 1 else 0
    active := true }

/-- `mosquitto_plugin_init` on the static state before any start. -/
def init (i : Startup) : Plugin × Option Sent :=
  match i.random with
  | none => ((Plugin.blank (hexText fun _ => 0)).disable, none)
  | some random =>
    if i.identifier = false ∨ i.count ≠ 0 ∨ i.allowed = false ∨ i.lockFree = false ∨
        i.socket = false ∨ i.registered = false then
      ((Plugin.blank (hexText random)).disable, none)
    else
      let p := Plugin.launch (hexText random) (clockNs i.clock)
      if i.locked then (p, none)
      else (settle p.drainDrops).emitFrame true 0 i.attempt

/-- What `mosquitto_plugin_cleanup` meets.  `quiet` says that every callback is unregistered
    and none is in progress. -/
structure Shutdown where
  clock : Timespec
  locked : Bool
  quiet : Bool
  attempt : Attempt

namespace Plugin
variable (p : Plugin)

/-- The state with the marks of the final frame. -/
def closing (close : Option ℕ) : Plugin := { p with final := true, closeBefore := close }

/-- The final frame. -/
def emitFinal (close : Option ℕ) (a : Attempt) : Plugin × Option Sent :=
  match (settle ((p.closing close).countFault close)).drainDrops with
  | .error p => (p, none)
  | .ok p => p.emitFrame true 0 a

/-- `mosquitto_plugin_cleanup` -/
def cleanup (d : Shutdown) : Plugin × Option Sent :=
  let p := { p with active := false }
  if d.locked then (p.disable, none)
  else
    let r := if d.quiet then p.emitFinal (clockNs d.clock) d.attempt else (p, none)
    ({ r.1 with disabled := true, socketOpen := false }, r.2)

end Plugin

/-! ## Runs -/

/-- One call into the plugin. -/
inductive Op where
  | contended (c : Call)
  | callback (c : Call) (a : Attempt)
  | cleanup (d : Shutdown)

/-- The plugin and the datagrams it has sent, oldest first. -/
structure World where
  plugin : Plugin
  sent : List Sent

/-- Take over what a call returns. -/
def World.take (sent : List Sent) (r : Plugin × Option Sent) : World :=
  ⟨r.1, sent ++ r.2.toList⟩

namespace World
variable (w : World)

def step : Op → World
  | .contended c => take w.sent (w.plugin.contended c, none)
  | .callback c a => take w.sent (w.plugin.callback c a)
  | .cleanup d => take w.sent (w.plugin.cleanup d)

/-- A sequential run: the start and a list of calls. -/
def run (i : Startup) (ops : List Op) : World := ops.foldl step (take [] (init i))

end World

end SmartHome.Mqtt.Native
