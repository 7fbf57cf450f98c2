/-
  The native sender under concurrency (`native_sender_authorized.c`): every atomic operation, every
  reading of the clock and every stretch of plain code under the lock is a step of its own, and any
  number of callbacks run beside the thread that starts and ends the plugin.

  The shared state holds, beside what the code stores, what an observer notes: which callbacks are
  in progress, what they have read from the clock, which of them are counted as pending and which in
  the totals, and the datagrams with what was counted when they were sent.
-/
import Mathlib.Data.Finset.Insert
import Mathlib.Data.Finset.Erase
import SmartHome.Lib.Threads
import SmartHome.Mqtt.Native.Counting

namespace SmartHome.Mqtt.Native

open Verif

namespace Plugin
variable (p : Plugin)

/-! ## Plain code under the lock -/

/-- The row that `countEvent` puts into the ring, if there is room. -/
def eventRow (k : Kind) (occurred : Option ℕ) : Option EventRow :=
  if p.pending.length < capacity then some ⟨p.eventSeq + 1, k, occurred⟩ else none

/-- The value of `before` and `covered`, as far as the stamp shows it. -/
def frontier (covered : Bool) (now : ℕ) : Option ℕ :=
  if covered then if p.final then p.closeBefore.filter (· ≤ now) else some now else none

/-- `emit_frame` from the new `last_attempt` to the last `append`. -/
def prepare (covered : Bool) (now : ℕ) : Plugin × Option Sent :=
  let stamp := p.frontier covered now
  let p := { p with lastAttempt := now }
  if p.frameSeq = uint64Max then (p.disable, none)
  else match p.text stamp now with
    | none => (p.disable, none)
    | some buffer => (p, some ⟨p, stamp, ascii buffer⟩)

end Plugin

namespace Threads

/-! ## The shared state -/

/-- A callback of an event class passed the gate and read the clock. -/
structure Reading where
  thread : ℕ
  kind : Kind
  atNs : ℕ

/-- A callback in the totals: with its row, or dropped. -/
structure Entry where
  thread : ℕ
  kind : Kind
  row : Option EventRow

/-- A datagram that the kernel took, and the callbacks in its totals. -/
structure Dispatch where
  sent : Sent
  counted : List Entry

structure Shared where
  plugin : Plugin
  /-- the thread that holds `lock` -/
  holder : Option ℕ
  callbacks : ℕ
  /-- what the boot clock shows -/
  clock : ℕ
  sent : List Dispatch
  /-- the callbacks in progress -/
  inside : Finset ℕ
  readings : List Reading
  /-- the callbacks that have counted themselves as pending since the last drain -/
  waiting : Kind → List ℕ
  counted : List Entry
  /-- `close_before`, once `mosquitto_plugin_cleanup` has read it -/
  closed : Option ℕ
  /-- a callback that sends a frame has read a time later than `closed` -/
  late : Bool
  /-- an atomic counter has wrapped around -/
  wrapped : Bool

/-- The state with another plugin. -/
def Shared.plug (s : Shared) (p : Plugin) : Shared := { s with plugin := p }

/-- The datagrams. -/
def Shared.log (s : Shared) : List Sent := s.sent.map Dispatch.sent

/-- What a thread asks the system for. -/
inductive Request where
  | clock | authorized | sendto | unregister

/-- The clock answers how much time has passed since it was last read, or fails. -/
def Reply : Request → Type
  | .clock => Option ℕ
  | .authorized => Bool
  | .sendto => Outcome
  | .unregister => Bool

abbrev Action (α : Type) := Program Shared Reply α

open Program

/-! ## Atomic operations -/

/-- `disable` -/
def disable : Action Unit := store fun s => s.plug s.plugin.disable

/-- The clock goes on, and the observer notes a time that `clock_ns` returns. -/
def Shared.tick (note : ℕ → Shared → Shared) (d : ℕ) (s : Shared) : Shared :=
  if s.clock + d ≤ uint64Max then note (s.clock + d) { s with clock := s.clock + d }
  else { s with clock := s.clock + d }

/-- `clock_ns`, `none` where it returns false. -/
def clockNs (note : ℕ → Shared → Shared) : Action (Option ℕ) := do
  let passed : Option ℕ ← ask Request.clock
  match passed with
  | none => pure none
  | some d => access (Shared.tick note d) fun s =>
      if s.clock + d ≤ uint64Max then some (s.clock + d) else none

/-- The reading of a callback. -/
def noteEvent (i : ℕ) (kind : Option Kind) (t : ℕ) (s : Shared) : Shared :=
  { s with readings := s.readings ++ (kind.map fun k => ⟨i, k, t⟩).toList }

/-- The reading of `emit_frame`. -/
def noteFrame (t : ℕ) (s : Shared) : Shared :=
  { s with late := s.late || (!s.plugin.final && s.closed.any (· < t)) }

/-- The reading of `mosquitto_plugin_cleanup`. -/
def noteClose (t : ℕ) (s : Shared) : Shared := { s with closed := some t }

/-- A callback adds itself to `callbacks`. -/
def Shared.enter (i : ℕ) (s : Shared) : Shared :=
  { s with
    callbacks := (s.callbacks + 1) % 2 ^ 32
    wrapped := s.wrapped || s.callbacks = 2 ^ 32 - 1
    inside := insert i s.inside }

/-- A callback takes itself out of `callbacks`. -/
def Shared.leave (i : ℕ) (s : Shared) : Shared :=
  { s with
    callbacks := if s.callbacks = 0 then 2 ^ 32 - 1 else s.callbacks - 1
    inside := s.inside.erase i }

def enter (i : ℕ) : Action Unit := store (Shared.enter i)

def leave (i : ℕ) : Action Unit := store (Shared.leave i)

/-- The lock, if it is free, is taken. -/
def Shared.tryLock (i : ℕ) (s : Shared) : Shared :=
  if s.holder.isNone then { s with holder := some i } else s

/-- `atomic_flag_test_and_set` on `lock`: whether it was free. -/
def tryLock (i : ℕ) : Action Bool := access (Shared.tryLock i) fun s => s.holder.isNone

def Shared.unlock (s : Shared) : Shared := { s with holder := none }

/-- `atomic_flag_clear` on `lock`. -/
def unlock : Action Unit := store Shared.unlock

/-- One more pending event of a class. -/
def Shared.incrementDrop (i : ℕ) (k : Kind) (s : Shared) : Shared :=
  { s with
    plugin := { s.plugin with
      pendingDrop := Function.update s.plugin.pendingDrop k ((s.plugin.pendingDrop k + 1) % 2 ^ 64) }
    waiting := Function.update s.waiting k (s.waiting k ++ [i])
    wrapped := s.wrapped || s.plugin.pendingDrop k = uint64Max }

/-- `atomic_increment` of a drop counter. -/
def incrementDrop (i : ℕ) (k : Kind) : Action Unit := do
  let old ← access (Shared.incrementDrop i k) fun s => s.plugin.pendingDrop k
  if old = uint64Max then disable

/-- `atomic_increment` of the fault counter. -/
def incrementFaults : Action Unit := do
  let old ← access (fun s => s.plug { s.plugin with
      pendingFaults := (s.plugin.pendingFaults + 1) % 2 ^ 64 }) fun s => s.plugin.pendingFaults
  if old = uint64Max then disable

/-- Those that wait are counted as dropped. -/
def Shared.exchangeDrop (k : Kind) (s : Shared) : Shared :=
  { s with
    plugin := { s.plugin with pendingDrop := Function.update s.plugin.pendingDrop k 0 }
    waiting := Function.update s.waiting k []
    counted := s.counted ++ (s.waiting k).map (⟨·, k, none⟩) }

/-- The exchange of `drain_drops`. -/
def exchangeDrop (k : Kind) : Action ℕ :=
  access (Shared.exchangeDrop k) fun s => s.plugin.pendingDrop k

def exchangeFaults : Action ℕ :=
  access (fun s => s.plug { s.plugin with pendingFaults := 0 }) fun s => s.plugin.pendingFaults

/-! ## Plain code under the lock -/

/-- Whether a computation went on. -/
def goesOn {α : Type} : Except Plugin α → Bool
  | .ok _ => true
  | .error _ => false

/-- Plain code that may disable the plugin at its end. -/
def proceed (f : Plugin → Except Plugin Plugin) : Action Bool :=
  access (fun s => s.plug (settle (f s.plugin))) fun s => goesOn (f s.plugin)

/-- The loop of `drain_drops`. -/
def drainEach : List Kind → Action Bool
  | [] => pure true
  | k :: ks => do
    let n ← exchangeDrop k
    let added ← proceed fun p => p.takeDrops k n
    if added then drainEach ks else pure false

/-- `drain_drops` -/
def drainDrops : Action Bool := do
  let drained ← drainEach kinds
  if drained then
    let n ← exchangeFaults
    proceed fun p => p.addClockFaults n
  else pure false

/-- The callback is in the totals. -/
def Shared.countEvent (i : ℕ) (kind : Option Kind) (occurred : Option ℕ) (s : Shared) : Shared :=
  match s.plugin.countEvent kind occurred with
  | .error p => s.plug p
  | .ok p => { s with
      plugin := p
      counted := s.counted ++ (kind.map fun k => ⟨i, k, s.plugin.eventRow k occurred⟩).toList }

/-- The holder of the lock counts its own event. -/
def countEvent (i : ℕ) (kind : Option Kind) (occurred : Option ℕ) : Action Bool :=
  access (Shared.countEvent i kind occurred) fun s => goesOn (s.plugin.countEvent kind occurred)

/-- The loop of `emit_frame` over the pending counts: whether one is not zero. -/
def dropsPending : List Kind → Action Bool
  | [] => pure false
  | k :: ks => do
    let n ← load fun s => s.plugin.pendingDrop k
    let more ← dropsPending ks
    pure (n ≠ 0 || more)

def prepare (covered : Bool) (now : ℕ) : Action (Option Sent) :=
  access (fun s => s.plug (s.plugin.prepare covered now).1) fun s => (s.plugin.prepare covered now).2

/-- The end of `emit_frame`, after `sendto`. -/
def Shared.record (f : Sent) (outcome : Outcome) (s : Shared) : Shared :=
  match outcome with
  | .sent => { s with
      plugin := { s.plugin with frameSeq := s.plugin.frameSeq + 1, pending := [] }
      sent := s.sent ++ [⟨f, s.counted⟩] }
  | .failed => s.plug (settle (s.plugin.addSendFailures 1))
  | .short => s.plug s.plugin.disable

/-- `emit_frame` from the last `disabled` on. -/
def transmit (f : Sent) : Action Unit := do
  let off ← load fun s => s.plugin.disabled
  if off then pure ()
  else
    let outcome : Outcome ← ask Request.sendto
    store (Shared.record f outcome)

/-- `emit_frame` after the drain. -/
def emitDrained (callerCallbacks now : ℕ) : Action Unit := do
  let callbacks ← load Shared.callbacks
  let drops ← dropsPending kinds
  let faults ← load fun s => s.plugin.pendingFaults
  let frame ← prepare (decide (callbacks = callerCallbacks) && !drops && decide (faults = 0)) now
  match frame with
  | none => pure ()
  | some f => transmit f

/-- `emit_frame` after the clock. -/
def emitAt (force : Bool) (callerCallbacks now : ℕ) : Action Unit := do
  let last ← load fun s => s.plugin.lastAttempt
  if force = false ∧ last ≠ 0 ∧ last ≤ now ∧ now - last < sendIntervalNs then pure ()
  else if now < last then disable
  else
    let allowed : Bool ← ask Request.authorized
    if allowed then
      let drained ← drainDrops
      if drained then emitDrained callerCallbacks now
    else disable

/-- `emit_frame` -/
def emitFrame (force : Bool) (callerCallbacks : ℕ) : Action Unit := do
  let off ← load fun s => s.plugin.disabled || !s.plugin.socketOpen
  if off then pure ()
  else
    let now ← clockNs noteFrame
    match now with
    | none => discard (proceed fun p => p.addClockFaults 1)
    | some now => emitAt force callerCallbacks now

/-! ## Callbacks -/

/-- `metadata_callback` where the lock is taken. -/
def missed (i : ℕ) (kind : Option Kind) (occurred : Option ℕ) : Action Unit := do
  kind.elim (pure ()) (incrementDrop i)
  if occurred.isNone then incrementFaults

/-- `metadata_callback` with the lock. -/
def locked (i : ℕ) (kind : Option Kind) (occurred : Option ℕ) : Action Unit := do
  let drained ← drainDrops
  if drained then
    let counted ← countEvent i kind occurred
    if counted then emitFrame false 1

/-- `metadata_callback` after the gate; `kind` is `none` for a tick. -/
def collect (i : ℕ) (kind : Option Kind) : Action Unit := do
  let occurred ← clockNs (noteEvent i kind)
  let free ← tryLock i
  if free then
    locked i kind occurred
    unlock
  else missed i kind occurred

/-- The gate of `metadata_callback`, and what comes after it. -/
def observe (i : ℕ) (event : Event) : Action Unit := do
  let off ← load fun s => s.plugin.disabled
  if off then pure ()
  else
    let active ← load fun s => s.plugin.active
    if active then
      match event with
      | .other => pure ()
      | .tick =>
        let allowed : Bool ← ask Request.authorized
        if allowed then collect i none else disable
      | .observed k => collect i (some k)

/-- `metadata_callback`, as thread `i`. -/
def metadataCallback (i : ℕ) (event : Event) : Action Unit := do
  enter i
  observe i event
  leave i

/-! ## Start and end -/

/-- `mosquitto_plugin_init` from the opening of the gate on. -/
def mosquittoPluginInit : Action Unit := do
  store fun s => s.plug { s.plugin with active := true }
  let free ← tryLock 0
  if free then
    discard drainDrops
    emitFrame true 0
    unlock

/-- `mosquitto_plugin_cleanup` with the lock. -/
def finish (unregistered : Bool) (close : Option ℕ) : Action Unit := do
  if unregistered then
    let callbacks ← load Shared.callbacks
    if callbacks = 0 then
      discard (proceed fun p => (p.closing close).countFault close)
      let drained ← drainDrops
      if drained then emitFrame true 0

/-- `mosquitto_plugin_cleanup` -/
def mosquittoPluginCleanup : Action Unit := do
  let close ← clockNs noteClose
  store fun s => s.plug { s.plugin with active := false }
  let unregistered : Bool ← ask Request.unregister
  let free ← tryLock 0
  if free then
    finish unregistered close
    disable
    store fun s => s.plug { s.plugin with socketOpen := false }
    unlock
  else disable

/-- The broker's own thread. -/
def main : Action Unit := do
  mosquittoPluginInit
  mosquittoPluginCleanup

/-! ## Runs -/

/-- The state before the gate is opened. -/
def launch (source : Hex 32) (started : Option ℕ) (clock : ℕ) : Shared where
  plugin := { Plugin.launch source started with active := false }
  holder := none
  callbacks := 0
  clock := clock
  sent := []
  inside := ∅
  readings := []
  waiting _ := []
  counted := []
  closed := none
  late := false
  wrapped := false

/-- Thread `0` starts and ends the plugin, every other thread is one callback. -/
def Starts (i : ℕ) (p : Action Unit) : Prop :=
  if i = 0 then p = main else ∃ event, p = metadataCallback i event

/-- The plugin is registered, and the clock shows no time before its start. -/
def Launched (s : Shared) : Prop :=
  ∃ source started clock, s = launch source started clock ∧
    ∀ b ∈ started, b ≤ clock ∧ b ≤ uint64Max

/-- The runs of the plugin under concurrency. -/
def machine : Machine (Crew Shared Reply) := Crew.machine Launched Starts

end Threads
end SmartHome.Mqtt.Native
