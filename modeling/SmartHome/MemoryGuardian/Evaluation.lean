/-
  The memory guardian of the host (`host-memory-guardian.mjs`): which tree of processes it takes
  for an abandoned development session, what it keeps of it between two evaluations, and when it
  terminates it.

  Times, ages, sizes and bounds are rational numbers, counters of the kernel natural ones.
-/
import Mathlib.Algebra.Order.Ring.Nat
import Mathlib.Algebra.Order.Ring.Rat
import Mathlib.Data.List.Infix

namespace SmartHome.MemoryGuardian

/-! ## Processes -/

inductive ConnectionState where
  | unknown | connected | disconnected
  deriving DecidableEq, Repr

structure Process where
  pid : ℕ
  ppid : ℕ
  uid : ℤ
  startTicks : ℕ
  cpuTicks : ℕ
  rssKiB : ℕ
  ageSeconds : ℚ
  connectionState : ConnectionState
  cmdline : String
  deriving DecidableEq

/-- `candidateKey`: a number of a process is used again, so its start belongs to its name. -/
def candidateKey (p : Process) : ℕ × ℕ := (p.pid, p.startTicks)

/-- A snapshot of `/proc`, which has one directory for each process. -/
structure Snapshot where
  totalKiB : ℚ
  availableKiB : ℚ
  nowMs : ℚ
  selfUid : ℤ
  processes : List Process
  unique : (processes.map Process.pid).Nodup

/-! ## Patterns -/

/-- `\s` -/
def isSpace (c : Char) : Bool :=
  c.toNat ∈ [0x09, 0x0a, 0x0b, 0x0c, 0x0d, 0x20, 0xa0, 0x1680, 0x2028, 0x2029, 0x202f, 0x205f, 0x3000, 0xfeff] ||
    decide (0x2000 ≤ c.toNat ∧ c.toNat ≤ 0x200a)

/-- What stands between `\s` in a command line. -/
def words (cmdline : String) : List (List Char) := cmdline.toList.splitOnP isSpace

def essentialNames : List String :=
  ["systemd", "sshd", "dockerd", "containerd", "tailscaled", "node-red", "homeassistant", "mosquitto",
    "zigbee2mqtt", "matter-server"]

/-- `ESSENTIAL_PATTERN`: a word is an essential name in letters of either case, or a path to one. -/
def essentialPattern (cmdline : String) : Bool :=
  (words cmdline).any fun w => essentialNames.any fun n =>
    decide (w.map Char.toLower = n.toList) || ('/' :: n.toList).isSuffixOf (w.map Char.toLower)

/-- `EXTENSION_HOST_PROCESS_PATTERN` -/
def extensionHostProcessPattern (cmdline : String) : Bool :=
  (words cmdline).any fun w => "bootstrap-fork".toList.isSuffixOf w

/-- `EXTENSION_HOST_TYPE_PATTERN` -/
def extensionHostTypePattern (cmdline : String) : Bool :=
  (words cmdline).any fun w => decide (w = "--type=extensionHost".toList)

def isVscodeExtensionHost (p : Process) : Bool :=
  decide (0 ≤ p.uid) && decide ("/.vscode-server/".toList <:+: p.cmdline.toList) &&
    extensionHostProcessPattern p.cmdline && extensionHostTypePattern p.cmdline

/-! ## Trees -/

/-- A process of a tree. -/
structure Member where
  process : Process
  depth : ℕ
  deriving DecidableEq

/-- The loop of `processTree`, for as many rounds as are given. -/
def processTreeFrom (processes : List Process) : ℕ → List Member → List ℕ → List Member
  | 0, _, _ => []
  | _ + 1, [], _ => []
  | rounds + 1, current :: queue, seen =>
    if current.process.pid ∈ seen then processTreeFrom processes rounds queue seen
    else
      let children := processes.filter fun p => p.ppid = current.process.pid
      current :: processTreeFrom processes rounds (queue ++ children.map fun p => ⟨p, current.depth + 1⟩)
        (current.process.pid :: seen)

/-- `processTree`.  Each process enters the queue once, and the root once more at most. -/
def processTree (root : Process) (processes : List Process) : List Member :=
  processTreeFrom processes (processes.length + 1) [⟨root, 0⟩] []

/-! ## Evaluation -/

structure Config where
  actionAvailableKiB : ℚ
  actionAvailablePercent : ℚ
  minimumAgeSeconds : ℚ
  minimumTreeRssKiB : ℚ
  observationSeconds : ℚ
  maximumIdleCpuTicksPerSecond : ℚ
  cooldownSeconds : ℚ
  deriving DecidableEq

/-- `DEFAULT_CONFIG` -/
def defaultConfig : Config where
  actionAvailableKiB := 1536 * 1024
  actionAvailablePercent := 20
  minimumAgeSeconds := 30 * 60
  minimumTreeRssKiB := 256 * 1024
  observationSeconds := 45
  maximumIdleCpuTicksPerSecond := 1 / 2
  cooldownSeconds := 15 * 60

/-- `availablePercent` of `pressure` -/
def availablePercent (s : Snapshot) : ℚ := s.availableKiB / s.totalKiB * 100

/-- `active` of `pressure` -/
def pressureActive (config : Config) (s : Snapshot) : Bool :=
  decide (s.availableKiB < config.actionAvailableKiB ∧ availablePercent s < config.actionAvailablePercent)

/-- What `safeTree` finds out about a tree. -/
structure Details where
  tree : List Member
  rssKiB : ℕ
  cpuTicks : ℕ
  safe : Bool
  deriving DecidableEq

def safeTree (config : Config) (s : Snapshot) (candidate : Process) : Details :=
  let tree := processTree candidate s.processes
  let rssKiB := (tree.map fun m => m.process.rssKiB).sum
  { tree := tree
    rssKiB := rssKiB
    cpuTicks := (tree.map fun m => m.process.cpuTicks).sum
    safe := tree.all (fun m => decide (m.process.uid = s.selfUid)) &&
      !tree.any (fun m => essentialPattern m.process.cmdline) &&
      decide (config.minimumTreeRssKiB ≤ rssKiB) }

/-- `hosts`, from the one that was started first. -/
def hosts (s : Snapshot) : List Process :=
  (s.processes.filter fun p => p.uid = s.selfUid && isVscodeExtensionHost p).mergeSort
    fun p q => p.startTicks ≤ q.startTicks

def connectedHosts (s : Snapshot) : List Process := (hosts s).filter fun p => p.connectionState = .connected

def newestConnected (s : Snapshot) : Option Process := (connectedHosts s).getLast?

/-- A host that is taken for abandoned. -/
def abandoned (config : Config) (s : Snapshot) (p : Process) : Bool :=
  decide (p.connectionState = .disconnected) && decide (config.minimumAgeSeconds ≤ p.ageSeconds) &&
    (newestConnected s).all fun newest => decide (p.startTicks < newest.startTicks)

def candidates (config : Config) (s : Snapshot) : List (Process × Details) :=
  ((((hosts s).filter (abandoned config s)).map fun p => (p, safeTree config s p)).filter fun c => c.2.safe).mergeSort
    fun c d => c.1.startTicks ≤ d.1.startTicks

/-- `selected` -/
def selected (config : Config) (s : Snapshot) : Option (Process × Details) := (candidates config s).head?

/-- What is kept of the selected candidate. -/
structure Observation where
  firstSeenAt : ℚ
  lastSeenAt : ℚ
  cpuTicks : ℕ
  deriving DecidableEq

/-- The fields of a state that are only reported. -/
structure Checked where
  checkedAt : ℚ
  availableKiB : ℚ
  availablePercent : ℚ
  deriving DecidableEq

structure State where
  checked : Option Checked
  observations : List ((ℕ × ℕ) × Observation)
  lastActionAt : ℚ
  deriving DecidableEq

/-- `{}` -/
def State.empty : State := ⟨none, [], 0⟩

inductive Status where
  | healthy | pressureNoSafeDuplicate | pressureNoSafeCandidate
  | candidateObserved | candidateActive | pressureCooldown
  | terminate | wouldTerminate | terminated
  deriving DecidableEq, Repr

inductive Action where
  | none | terminate
  deriving DecidableEq, Repr

/-- A process of a candidate's tree, as it is handed on to be terminated. -/
structure Doomed where
  pid : ℕ
  startTicks : ℕ
  uid : ℤ
  depth : ℕ
  essential : Bool
  deriving DecidableEq

structure Candidate where
  pid : ℕ
  startTicks : ℕ
  rssKiB : ℕ
  tree : List Doomed
  deriving DecidableEq

def Member.doomed (m : Member) : Doomed :=
  ⟨m.process.pid, m.process.startTicks, m.process.uid, m.depth, essentialPattern m.process.cmdline⟩

def candidateOf (p : Process) (d : Details) : Candidate := ⟨p.pid, p.startTicks, d.rssKiB, d.tree.map Member.doomed⟩

structure Decision where
  status : Status
  action : Action
  candidate : Option Candidate
  deriving DecidableEq

/-- The status of a snapshot without a candidate. -/
def idleStatus (config : Config) (s : Snapshot) : Status :=
  if !pressureActive config s then .healthy
  else if (hosts s).length < 2 ∨ connectedHosts s = [] then .pressureNoSafeDuplicate
  else .pressureNoSafeCandidate

/-- `idle`: the ticks of the whole tree, together, grew by no more than the bound. -/
def idle (config : Config) (prior : Observation) (nowMs : ℚ) (cpuTicks : ℕ) : Bool :=
  let elapsedSeconds := (nowMs - prior.lastSeenAt) / 1000
  decide (0 < elapsedSeconds ∧
    max 0 ((cpuTicks : ℚ) - prior.cpuTicks) ≤ config.maximumIdleCpuTicksPerSecond * elapsedSeconds)

def evaluateSnapshot (config : Config) (s : Snapshot) (previous : State) : State × Decision :=
  let base (observations : List ((ℕ × ℕ) × Observation)) : State :=
    ⟨some ⟨s.nowMs, s.availableKiB, availablePercent s⟩, observations, previous.lastActionAt⟩
  match selected config s with
  | none => (base [], ⟨idleStatus config s, .none, none⟩)
  | some (item, details) =>
    let key := candidateKey item
    let candidate := some (candidateOf item details)
    match previous.observations.lookup key with
    | none => (base [(key, ⟨s.nowMs, s.nowMs, details.cpuTicks⟩)], ⟨.candidateObserved, .none, candidate⟩)
    | some prior =>
      if !idle config prior s.nowMs details.cpuTicks then
        (base [(key, ⟨s.nowMs, s.nowMs, details.cpuTicks⟩)], ⟨.candidateActive, .none, candidate⟩)
      else
        let kept := base [(key, ⟨prior.firstSeenAt, s.nowMs, details.cpuTicks⟩)]
        if (s.nowMs - prior.firstSeenAt) / 1000 < config.observationSeconds then
          (kept, ⟨.candidateObserved, .none, candidate⟩)
        else if s.nowMs - previous.lastActionAt < config.cooldownSeconds * 1000 then
          (kept, ⟨.pressureCooldown, .none, candidate⟩)
        else (kept, ⟨.terminate, .terminate, candidate⟩)

structure Result where
  decision : Decision
  state : State
  terminated : ℕ
  deriving DecidableEq

/-- `runGuardian`.  `terminate` gives the number of processes that were signaled; `none` when it throws. -/
def runGuardian (config : Config) (s : Snapshot) (previous : State) (dryRun : Bool)
    (terminate : Candidate → Option ℕ) : Option Result :=
  let (state, decision) := evaluateSnapshot config s previous
  match decision.action, decision.candidate with
  | .terminate, some candidate =>
    if dryRun then some ⟨{ decision with status := .wouldTerminate, action := .none }, state, 0⟩
    else do
      let terminated ← terminate candidate
      return ⟨{ decision with status := .terminated },
        { state with observations := [], lastActionAt := s.nowMs }, terminated⟩
  | _, _ => some ⟨decision, state, 0⟩

end SmartHome.MemoryGuardian
