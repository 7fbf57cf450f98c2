/-
  The effects of repairs over all interleavings of coordinators and workers, with crashes between
  any two transactions.
-/
import SmartHome.ComponentRepair.Stability

namespace SmartHome.ComponentRepair

open Verif Program

/-! ## The coordinator keeps the rules -/

section
variable {expiry : ℚ} {principal op : String} {action : Action} {α β : Type}
  {ok : Prog α → Site → Prop}
  {post : α → (rules expiry False).Known → List (String × Action) → Prop}
  {A : (rules expiry False).Known} {held : List (String × Action)}

/-- The job ledger says nothing about the intents. -/
theorem guar_onJobs {f : Jobs → Except String (Jobs × α)} :
    Guar (rules expiry False) ok (fun _ _ _ => True) (onJobs f) A held := by
  refine guar_last fun s s' b hinv _ _ hs => ?_
  obtain ⟨js, rfl⟩ := onJobs_ok hs
  exact ⟨hinv, (rules expiry False).refl s, .refl _⟩

section
variable {ok : Prog Report → Site → Prop}

theorem status_guar : Guar (rules expiry False) ok (fun _ _ _ => True) (status op) A held :=
  guar_get fun _ => guar_lift fun _ _ => trivial

end

theorem binding_guar {ok : Prog Binding → Site → Prop} :
    Guar (rules expiry False) ok (fun _ _ _ => True) (binding principal op action) A held :=
  guar_get fun _ => guar_lift fun _ _ => guar_require fun _ => guar_ask rfl fun _ =>
    guar_lift fun _ _ => trivial

section
variable {ok : Prog Unit → Site → Prop} [Canonical JobReceipt]

theorem move_guar {expected state : JobState} {receipt : Option JobReceipt} :
    Guar (rules expiry False) ok (fun _ _ _ => True) (move op action expected state receipt) A held :=
  guar_clock fun _ => guar_onJobs

omit [Canonical JobReceipt] in
theorem enqueue_guar {b : Binding} :
    Guar (rules expiry False) ok (fun _ _ _ => True) (enqueue b) A held :=
  guar_clock fun _ => guar_ask rfl fun _ => guar_get fun _ => guar_lift fun _ _ => guar_onJobs

omit [Canonical JobReceipt] in
theorem launch_guar : Guar (rules expiry False) ok (fun _ _ _ => True) (launch op action) A held := by
  refine guar_ask rfl fun _ => guar_lift fun accepted _ => ?_
  unfold require
  split_ifs <;> trivial

theorem giveUp_guar {state : JobState} {receipt : JobReceipt} :
    Guar (rules expiry False) ok (fun _ _ _ => True) (giveUp op action state receipt) A held := by
  refine guar_get fun s => guar_lift fun job _ => ?_
  split_ifs
  · exact move_guar
  · trivial

theorem closeJob_guar {out : Answer} :
    Guar (rules expiry False) ok (fun _ _ _ => True) (closeJob op action out) A held := by
  refine guar_get fun s => ?_
  cases s.jobs.get op action with
  | none => trivial
  | some job =>
    simp only
    split_ifs
    · exact move_guar
    · trivial

end

section
variable [Canonical Result] [Canonical JobReceipt]

omit [Canonical Result] in
theorem submitNew_guar {b : Binding} {ok : Prog Report → Site → Prop} :
    Guar (rules expiry False) ok (fun _ _ _ => True) (submitNew op action b) A held := by
  refine guar_get fun s => guar_lift fun row _ => guar_require fun _ => ?_
  refine guar_then enqueue_guar fun _ A held => guar_then move_guar fun _ A held => ?_
  refine guar_attempt (launch_guar.mono fun _ A held _ => status_guar) fun e A held => ?_
  exact guar_then giveUp_guar fun _ A held => status_guar

omit [Canonical Result] in
theorem submit_guar {expected : String} {ok : Prog Report → Site → Prop} :
    Guar (rules expiry False) ok (fun _ _ _ => True) (submit expiry principal op action expected) A held := by
  refine guar_require fun _ => guar_clock fun now => guar_require fun _ => ?_
  refine guar_then binding_guar fun b A held => guar_require fun _ => guar_get fun s => ?_
  cases s.jobs.get op action with
  | some job => exact status_guar
  | none => exact submitNew_guar

omit [Canonical JobReceipt] in
theorem perform_guar {ok : Prog Answer → Site → Prop} :
    Guar (rules expiry False) ok (fun _ _ _ => True) (perform expiry op action) A held := by
  refine guar_clock fun now => guar_require fun _ => guar_ask rfl fun _ => guar_lift fun _ _ =>
    guar_require fun _ => ?_
  cases action with
  | apply => exact flowApply_guar
  | rollback => exact flowRollback_guar fun h => h.elim

theorem conclude_guar {ok : Prog Unit → Site → Prop} :
    Guar (rules expiry False) ok (fun _ _ _ => True) (conclude expiry op action) A held :=
  guar_then perform_guar fun _ _ _ => move_guar

theorem runOnce_guar {ok : Prog Report → Site → Prop} :
    Guar (rules expiry False) ok (fun _ _ _ => True) (runOnce expiry principal op action) A held := by
  refine guar_then binding_guar fun b A held => guar_get fun s => guar_lift fun job _ =>
    guar_require fun _ => ?_
  split_ifs
  · refine guar_then move_guar fun _ A held => ?_
    refine guar_attempt (conclude_guar.mono fun _ A held _ => status_guar) fun e A held => ?_
    exact guar_then giveUp_guar fun _ A held => status_guar
  · exact status_guar

theorem reconcileOp_guar {ok : Prog Report → Site → Prop} :
    Guar (rules expiry False) ok (fun _ _ _ => True) (reconcileOp expiry principal op) A held :=
  guar_get fun _ => guar_lift fun _ _ => guar_ask rfl fun _ =>
    guar_then flowReconcile_guar fun _ _ _ => guar_then closeJob_guar fun _ _ _ => status_guar

theorem serve_guar {ok : Prog Unit → Site → Prop} (c : Command) :
    Guar (rules expiry False) ok (fun _ _ _ => True) (serve expiry principal c) A held := by
  cases c with
  | prepare q => exact guar_then flowPrepare_guar fun _ _ _ => trivial
  | validate op => exact guar_then flowValidate_guar fun _ _ _ => trivial
  | submit op action expected => exact guar_then submit_guar fun _ _ _ => trivial
  | runOnce op action => exact guar_then runOnce_guar fun _ _ _ => trivial
  | reconcile op => exact guar_then reconcileOp_guar fun _ _ _ => trivial
  | verify op => exact guar_then flowVerify_guar fun _ _ _ => trivial
  | cancel op => exact guar_then flowCancel_guar fun _ _ _ => trivial
  | release op resultHash => exact guar_then flowRelease_guar fun _ _ _ => trivial
  | status op => exact guar_then status_guar fun _ _ _ => trivial

end

end

/-! ## Runs -/

/-- The calls of the worker, in order. -/
def runs (w : Pool Site Reply Unit) : List (String × Action) :=
  w.calls.filterMap fun c => c.2.intent

section
variable [Canonical Result] [Canonical JobReceipt] (expiry : ℚ) (principal : String)

/-- The runs of coordinators and workers on new ledgers, with any registered reviews. -/
def coordinatorMachine : Machine (Pool Site Reply Unit) :=
  poolMachine (fun s => s.flow = ⟨[], [], [], []⟩ ∧ s.jobs.jobs = [] ∧ s.jobs.audit = [])
    (fun p => ∃ c, p = serve expiry principal c) fun _ _ => True

variable {expiry principal} {w : Pool Site Reply Unit}

theorem coordinator_good (h : (coordinatorMachine expiry principal).Reachable w) :
    w.Good (rules expiry False) fun _ _ => True := by
  refine Pool.Good.reachable rules_peers (fun s hs => ?_) ?_ h
  · obtain ⟨hflow, -⟩ := hs
    rw [show (rules expiry False).inv s ↔ s.flow.Core ∧ (False → s.flow.Single) from Iff.rfl, hflow]
    exact ⟨Ledger.core_empty, False.elim⟩
  · rintro p ⟨c, rfl⟩
    exact serve_guar c

/-- **A repair takes effect at most once.**  The worker is called at most once for an operation and
    an action, and only for an intent that was recorded before: for an apply, a transaction found
    the operation validated and its base live, for a rollback it found the operation applied, its
    candidate live and the backup verified, and it found no other operation in flight. -/
theorem effects_once (h : (coordinatorMachine expiry principal).Reachable w) :
    (runs w).Nodup ∧ ∀ s op action, (s, Request.run op action) ∈ w.calls →
      (∃ a ∈ s.flow.admissions, a.action = action ∧ a.row.id = op ∧ a.Meets) ∧
      (action = .rollback → ∃ a ∈ s.flow.admissions, a.action = .apply ∧ a.row.id = op ∧ a.Meets) := by
  have hgood := coordinator_good h
  refine ⟨hgood.nodup hgood.inv.1.once, fun s op action hcall => ?_⟩
  obtain ⟨⟨hcore, -⟩, hissued⟩ := hgood.calls _ hcall
  have hfind : ∀ key ∈ s.flow.keys,
      ∃ a ∈ s.flow.admissions, a.action = key.2 ∧ a.row.id = key.1 ∧ a.Meets := by
    intro key hkey
    obtain ⟨a, ha, rfl⟩ := List.mem_map.1 hkey
    exact ⟨a, ha, rfl, rfl, hcore.meets a ha⟩
  have hkey : (op, action) ∈ s.flow.keys := hissued (op, action) rfl
  refine ⟨hfind _ hkey, ?_⟩
  rintro rfl
  obtain ⟨a, ha, hact, rfl, -⟩ := hfind _ hkey
  exact hfind _ (hcore.after a ha hact)

end

/-! ## An effect beside another one -/

section

local instance : Canonical Result := ⟨fun _ => sampleHash 'd', fun _ => 512⟩

local instance : Canonical JobReceipt := ⟨fun _ => sampleHash 'e', fun _ => 512⟩

def sampleOther : String := String.ofList (List.replicate 32 'b')

/-- What is found of an effect is a receipt that it was not made. -/
def sampleForensic : ∀ q, Reply q
  | .previous op action => fun _ => .ok (some
      { sampleReceipt op action "" with definitiveNoEffect := true, loadedSha256 := none })
  | q => sampleAnswer q

/-- An operation is prepared, validated, submitted, and claimed by a worker. -/
def sampleClaim (op : String) (i : ℕ) (steps : List ℕ) : List (Command × List ℕ) :=
  [(.prepare (samplePreparation op), [i, i]), (.validate op, [i + 1, i + 1, i + 1]),
    (.submit op .apply (sampleHash 'b'), List.replicate 20 (i + 2)),
    (.runOnce op .apply, List.replicate 10 (i + 3) ++ steps)]

/-- The worker of the first operation has recorded its intent and is held up; the operation is
    settled by a receipt and released, and the worker of the second one records its intent. -/
def sampleCommands : List (Command × List ℕ) :=
  sampleClaim sampleOp 0 [] ++ [(.reconcile sampleOp, List.replicate 20 4),
    (.release sampleOp (sampleHash 'd'), [5, 5])] ++ sampleClaim sampleOther 6 [3]

def sampleSite : Site :=
  ⟨⟨[], [], [], []⟩, ⟨[], [⟨sampleOp, sampleOp, sampleHash 'f', "observacao_host", 1000⟩,
    ⟨sampleOther, sampleOther, sampleHash 'f', "observacao_host", 1000⟩], []⟩⟩

def sampleRepairs : Pool Site Reply Unit :=
  (sampleCommands.map fun c => (serve 1000 (sampleHash 'f') c.1, c.2)).foldl
    (Pool.play sampleForensic) ⟨sampleSite, [], []⟩

theorem sampleRepairs_reachable :
    (coordinatorMachine 1000 (sampleHash 'f')).Reachable sampleRepairs := by
  refine reachable_play sampleForensic (fun act hact => ?_) (.start ⟨⟨rfl, rfl, rfl⟩, rfl, rfl⟩)
  obtain ⟨c, -, rfl⟩ := List.mem_map.1 hact
  exact ⟨c.1, rfl⟩

theorem sampleRepairs_run : runs sampleRepairs = [(sampleOp, .apply)] ∧
    sampleRepairs.calls.getLast?.map (fun c => (c.2.intent, c.1.flow.rows.map fun r => (r.id, r.state))) =
      some (some (sampleOp, .apply), [(sampleOp, .released), (sampleOther, .applyIntent)]) := by
  decide +kernel

/-- The worker is called for one operation while another one is in `applyIntent`. -/
theorem run_beside_intent : ∃ w, (coordinatorMachine 1000 (sampleHash 'f')).Reachable w ∧
    ∃ s, (s, Request.run sampleOp .apply) ∈ w.calls ∧
      (sampleOther, State.applyIntent) ∈ s.flow.rows.map (fun r => (r.id, r.state)) := by
  obtain ⟨⟨s, q⟩, hc, hlast⟩ := Option.map_eq_some_iff.1 sampleRepairs_run.2
  obtain ⟨hq, hrows⟩ := Prod.mk.inj hlast
  refine ⟨sampleRepairs, sampleRepairs_reachable, s, ?_, ?_⟩
  · rw [← Request.eq_run hq]
    exact List.mem_of_getLast? hc
  · rw [hrows]
    exact List.mem_cons_of_mem _ (List.mem_singleton_self _)

theorem effects_once_sample :
    (runs sampleRepairs).Nodup ∧ runs sampleRepairs = [(sampleOp, .apply)] :=
  ⟨(effects_once sampleRepairs_reachable).1, sampleRepairs_run.1⟩

end

end SmartHome.ComponentRepair
