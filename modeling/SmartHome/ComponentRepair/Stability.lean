/-
  Outcomes and reservations of repairs over all interleavings of workflow calls.
-/
import SmartHome.ComponentRepair.Rules

namespace SmartHome.ComponentRepair

open Verif Program

/-- The calls of the workflow. -/
inductive Call where
  | prepare (q : Preparation)
  | validate (op : String)
  | apply (op : String) (globalAdminIdle resourcesAvailable : Bool)
  | reconcile (op : String) (action : Action) (allowed : Row → Except String Unit)
  | verify (op : String)
  | cancel (op : String)
  | rollback (op : String) (globalAdminIdle : Bool)
  | release (op resultHash : String)

section
variable [Canonical Result] (expiry : ℚ)

/-- The program of a call. -/
def Call.program : Call → Prog Answer
  | prepare q => flowPrepare expiry q
  | validate op => flowValidate expiry op
  | apply op idle resources => flowApply expiry op idle resources
  | reconcile op action allowed => flowReconcile expiry op action allowed
  | verify op => flowVerify op
  | cancel op => flowCancel op
  | rollback op idle => flowRollback expiry op idle
  | release op resultHash => flowRelease op resultHash

/-- The programs that are started. -/
def IsCall (p : Prog Answer) : Prop := ∃ c : Call, p = c.program expiry

/-- The second transaction of a rollback finds the operation still rolling back. -/
def Timely (p : Prog Answer) (s : Site) : Prop :=
  ∀ r reply now, p = onFlow (rollbackEnd expiry r reply now) →
    ∀ x ∈ s.flow.rows, x.id = r.id → x.state.rollingBack = true

/-- The runs of workflow calls on a new ledger, with the atomic steps that `ok` allows. -/
def workflowMachine (ok : Prog Answer → Site → Prop) : Machine (Pool Site Reply Answer) :=
  poolMachine (fun s => s.flow = ⟨[], [], [], []⟩) (IsCall expiry) ok

end

theorem Ledger.core_empty : Ledger.Core ⟨[], [], [], []⟩ where
  ids := List.nodup_nil
  rows _ h := absurd h List.not_mem_nil
  once := List.nodup_nil
  meets _ h := absurd h List.not_mem_nil
  rowOf _ h := absurd h List.not_mem_nil
  recorded _ h := absurd h List.not_mem_nil
  after _ h := absurd h List.not_mem_nil
  fresh _ h := absurd h List.not_mem_nil
  effected _ h := absurd h List.not_mem_nil
  rolling _ h := absurd h List.not_mem_nil

section
variable [Canonical Result] {expiry : ℚ} {w : Pool Site Reply Answer}

theorem Call.guar (c : Call) : Guar (rules expiry True) (Timely expiry) (fun _ _ _ => True)
    (c.program expiry) (.trivial _) [] := by
  cases c with
  | prepare q => exact flowPrepare_guar
  | validate op => exact flowValidate_guar
  | apply op idle resources => exact flowApply_guar
  | reconcile op action allowed => exact flowReconcile_guar
  | verify op => exact flowVerify_guar
  | cancel op => exact flowCancel_guar
  | rollback op idle => exact flowRollback_guar fun _ r reply now s hok => hok r reply now rfl
  | release op resultHash => exact flowRelease_guar

theorem IsCall.guar {p : Prog Answer} (h : IsCall expiry p) :
    Guar (rules expiry True) (Timely expiry) (fun _ _ _ => True) p (.trivial _) [] := by
  obtain ⟨c, rfl⟩ := h
  exact c.guar

theorem workflow_good (h : (workflowMachine expiry (Timely expiry)).Reachable w) :
    w.Good (rules expiry True) (Timely expiry) := by
  refine Pool.Good.reachable rules_peers (fun s hs => ?_) (fun p hp => hp.guar) h
  have hflow : s.flow = ⟨[], [], [], []⟩ := hs
  rw [show (rules expiry True).inv s ↔ s.flow.Core ∧ (True → s.flow.Single) from Iff.rfl, hflow]
  exact ⟨Ledger.core_empty, fun _ r hr => absurd hr List.not_mem_nil⟩

end

/-! ## A rollback that is concluded too late -/

section

local instance : Canonical Result := ⟨fun _ => String.ofList (List.replicate 64 'd'), fun _ => 512⟩

def sampleOp : String := String.ofList (List.replicate 32 'a')

def sampleHash (c : Char) : String := String.ofList (List.replicate 64 c)

/-- The receipt of an effect after which `loaded` is live. -/
def sampleReceipt (op : String) (action : Action) (loaded : String) : Receipt where
  receiptVerified := true
  executorTerminal := true
  operationId := op
  componentId := "observacao_host"
  taskId := op
  action := some action
  origin := .nativeWorker
  originalWorkerReceiptPresent := none
  historicalStdoutRecovered := none
  effectAttempted := none
  definitiveNoEffect := false
  definitiveNoDispatch := false
  securityCleanupConfirmed := true
  forensicEvidenceSha256 := none
  workerFinishedAt := some 1
  effectAppliedAt := none
  loadedSha256 := some loaded
  collectionError := none

/-- The worker applies, and its answer to the rollback is lost; its receipt is found later. -/
def sampleAnswer : ∀ q, Reply q
  | .clock => (1 : ℚ)
  | .observe => fun r => .ok (some ⟨none, some (if r.state = .validated then r.base else r.candidate), true⟩)
  | .previous op action => fun r => .ok (some (sampleReceipt op action r.base))
  | .functional => fun _ => .ok none
  | .verifier => fun r => .ok (some ⟨r.base, r.candidate, true, true, true⟩)
  | .run op .apply => .ok (some (sampleReceipt op .apply (sampleHash 'c')))
  | .run _ .rollback => .ok none
  | .launch _ _ => .ok true
  | .review _ => .ok ()
  | .cleanupPending => false
  | .resources => .ok true

def samplePreparation (op : String) : Preparation :=
  ⟨op, "observacao_host", op, sampleHash 'b', sampleHash 'c', [op]⟩

/-- An operation is prepared, validated and applied; the rollback records its intent, and the
    worker has not answered yet when the operation is reconciled and released. -/
def sampleCalls : List (Call × List ℕ) :=
  [(.prepare (samplePreparation sampleOp), [0, 0]), (.validate sampleOp, [1, 1, 1]),
    (.apply sampleOp true true, [2, 2, 2, 2, 2, 2]), (.rollback sampleOp true, [3, 3, 3]),
    (.reconcile sampleOp .rollback fun _ => .ok (), [4, 4, 4]),
    (.release sampleOp (sampleHash 'd'), [5, 5, 3, 3])]

def emptyPool : Pool Site Reply Answer := ⟨⟨⟨[], [], [], []⟩, ⟨[], [], []⟩⟩, [], []⟩

def samplePool : Pool Site Reply Answer :=
  (sampleCalls.map fun c => (c.1.program 1000, c.2)).foldl (Pool.play sampleAnswer) emptyPool

theorem samplePool_reachable : (workflowMachine 1000 fun _ _ => True).Reachable samplePool := by
  refine reachable_play sampleAnswer (fun act hact => ?_) (.start ⟨rfl, rfl, rfl⟩)
  obtain ⟨c, -, rfl⟩ := List.mem_map.1 hact
  exact ⟨c.1, rfl⟩

theorem samplePool_states :
    samplePool.state.flow.rows.map (fun r => (r.id, r.state)) = [(sampleOp, .released)] ∧
      (samplePool.advance sampleAnswer 3).state.flow.rows.map (fun r => (r.id, r.state)) =
        [(sampleOp, .rollbackUncertain)] := by decide +kernel

/-- One operation is prepared. -/
def samplePrepared : Pool Site Reply Answer :=
  emptyPool.play sampleAnswer ((Call.prepare (samplePreparation sampleOp)).program 1000, [0, 0])

theorem samplePrepared_reachable : (workflowMachine 1000 (Timely 1000)).Reachable samplePrepared := by
  -- there is no row before the transaction
  have hok : ∀ (p : Prog Answer) {s : Site}, s.flow.rows = [] → Timely 1000 p s := by
    intro p s hs r reply now _ x hx
    rw [hs] at hx
    exact absurd hx List.not_mem_nil
  have hstart : (workflowMachine 1000 (Timely 1000)).Reachable emptyPool := .start ⟨rfl, rfl, rfl⟩
  have hlaunch : (workflowMachine 1000 (Timely 1000)).Reachable
      (emptyPool.launch ((Call.prepare (samplePreparation sampleOp)).program 1000)) :=
    reachable_launch ⟨_, rfl⟩ hstart
  have hclock := reachable_advance sampleAnswer 0 (fun p _ => hok p rfl) hlaunch
  exact reachable_advance sampleAnswer 0 (fun p _ => hok p rfl) hclock

end

end SmartHome.ComponentRepair
