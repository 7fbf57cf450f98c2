/-
  The task store is single flight: whatever the transport answers and wherever an operation
  stops, at most one operation is in flight, nothing is dispatched twice, and a row changes only
  in the ways that `SendMove` and `TaskMove` list.
-/
import SmartHome.Lib.Machine
import SmartHome.TaskControl.Rows

namespace SmartHome.TaskControl

open Verif Program

/-! ## The invariant -/

abbrev StoreWorld := World Db Request

/-- What a call dispatches. -/
def dispatched (call : Db × Request) : Option Dispatch := call.2.dispatch?

/-- The dispatches of a run so far. -/
def dispatches (w : StoreWorld) : List Dispatch := w.calls.filterMap dispatched

/-- What holds of a run at every point. -/
structure Kept (w : StoreWorld) : Prop where
  sound : w.state.Sound
  once : (dispatches w).Nodup
  ready : ∀ c ∈ w.calls, ∀ d ∈ c.2.dispatch?, c.1.Ready d
  rows : ∀ d ∈ dispatches w, w.state.Has d

section
variable [JsonText] {c : Command} {db₀ db db' : Db} {w : StoreWorld}

/-- What a command keeps that started from `db₀`. -/
structure Serves (c : Command) (db₀ : Db) (w : StoreWorld) : Prop where
  kept : Kept w
  changes : db₀.Changes c w.state

theorem Serves.request (h : Serves c db₀ w) {q : Request} (hq : q.dispatch? = none) :
    Serves c db₀ (w.request q) where
  kept :=
    { sound := h.kept.sound
      once := by simpa [dispatches, dispatched, hq] using h.kept.once
      ready := by
        intro call hc d hd
        rcases List.mem_append.1 hc with hc | hc
        · exact h.kept.ready call hc d hd
        · rw [List.mem_singleton.1 hc, hq] at hd
          cases hd
      rows := by simpa [dispatches, dispatched, hq] using h.kept.rows }
  changes := h.changes

theorem serves_ignores : Ignores (Serves c db₀) dispatched := fun _ _ h hq => h.request hq

theorem Serves.dispatch (h : Serves c db₀ w) {q : Request} {d : Dispatch}
    (hq : q.dispatch? = some d) (hr : w.state.Ready d) (hn : d ∉ dispatches w) :
    Serves c db₀ (w.request q) where
  kept :=
    { sound := h.kept.sound
      once := by
        have : dispatches (w.request q) = dispatches w ++ [d] := by simp [dispatches, dispatched, hq]
        rw [this]
        exact List.nodup_append.2 ⟨h.kept.once, List.nodup_singleton d, by
          rintro a ha b hb rfl
          rw [List.mem_singleton.1 hb] at ha
          exact hn ha⟩
      ready := by
        intro call hc e he
        rcases List.mem_append.1 hc with hc | hc
        · exact h.kept.ready call hc e he
        · rw [List.mem_singleton.1 hc, hq] at he
          rw [List.mem_singleton.1 hc]
          obtain rfl := Option.some.inj he
          exact hr
      rows := by
        intro e he
        have : dispatches (w.request q) = dispatches w ++ [d] := by simp [dispatches, dispatched, hq]
        rw [this] at he
        rcases List.mem_append.1 he with he | he
        · exact h.kept.rows e he
        · obtain rfl := List.mem_singleton.1 he
          cases e with
          | create op =>
            obtain ⟨⟨t, ht, hid, -⟩, -⟩ := hr
            exact ⟨t, ht, hid⟩
          | send op =>
            obtain ⟨s, hs, hid, -⟩ := hr
            exact ⟨s, hs, hid⟩ }
  changes := h.changes

theorem Serves.put (h : Serves c db₀ w) (hs : db'.Sound) (hrows : ∀ d, w.state.Has d → db'.Has d)
    (hc : db₀.Changes c db') : Serves c db₀ (w.put db') where
  kept := ⟨hs, h.kept.once, h.kept.ready, fun d hd => hrows d (h.kept.rows d hd)⟩
  changes := hc

/-! ## Rules -/

variable {α : Type} {ds : List Dispatch}

/-- A program of the command `c` that runs from the database `db`. -/
abbrev Safely (c : Command) (db₀ : Db) (p : Prog α) (db : Db) (ds : List Dispatch) : Prop :=
  Keeps (Serves c db₀) dispatched p db ds

theorem safely_clock {k : ℚ → Prog α} (h : ∀ now, Safely c db₀ (k now) db ds) :
    Safely c db₀ (clock >>= k) db ds :=
  keeps_ask serves_ignores (q := Request.clock) rfl h

theorem safely_raised {α β : Type} {x : Except Failure α} {k : α → Prog β}
    (h : ∀ a, x = .ok a → Safely c db₀ (k a) db ds) : Safely c db₀ (raised x >>= k) db ds := by
  cases x with
  | ok a => exact h a rfl
  | error e => exact keeps_fail

theorem safely_legacyIdle {k : Unit → Prog α} (h : Safely c db₀ (k ()) db ds) :
    Safely c db₀ (legacyIdle >>= k) db ds := by
  unfold legacyIdle
  rw [bind_assoc]
  exact keeps_ask serves_ignores rfl fun r => safely_raised fun _ _ => h

theorem safely_askAdmission {k : Unit → Prog α} (h : Safely c db₀ (k ()) db ds) :
    Safely c db₀ (askAdmission >>= k) db ds := by
  unfold askAdmission admission
  simp only [bind_assoc]
  refine safely_clock fun now => keeps_get ?_
  exact keeps_ask serves_ignores rfl fun r => safely_raised fun _ _ => h

/-- A call of the transport that dispatches nothing. -/
theorem safely_invoke {i : Invocation} {k : Except Failure Json → Prog α}
    (hi : (Request.invoke i).dispatch? = none) (h : ∀ r, Safely c db₀ (k r) db ds) :
    Safely c db₀ (invoke i >>= k) db ds :=
  keeps_ask serves_ignores hi h

/-- A dispatch. -/
theorem safely_dispatch {i : Invocation} {k : Except Failure Json → Prog α} {d : Dispatch}
    (hi : (Request.invoke i).dispatch? = some d) (hr : db.Ready d) (hn : d ∉ ds)
    (h : ∀ r, Safely c db₀ (k r) db (ds ++ [d])) : Safely c db₀ (invoke i >>= k) db ds := by
  refine keeps_record hi (fun w hw hat => hw.dispatch hi ?_ ?_) h
  · rw [hat.state]; exact hr
  · intro hd
    exact hn (by rw [← hat.logged]; exact hd)

/-- A committed transaction. -/
theorem safely_transaction {f : Db → Except String Db} {k : Unit → Prog α}
    (h : ∀ db', f db = .ok db' → db'.Sound ∧ (∀ d, db.Has d → db'.Has d) ∧ db₀.Changes c db' ∧
      Safely c db₀ (k ()) db' ds) : Safely c db₀ (transaction f >>= k) db ds := by
  refine keeps_transaction fun db' hf => ?_
  obtain ⟨hs, hrows, hc, hk⟩ := h db' hf
  refine ⟨fun w hw hat => hw.put hs ?_ hc, hk⟩
  rw [hat.state]; exact hrows

theorem safely_answerTask {op : String} : Safely c db₀ (answerTask op) db ds :=
  keeps_get keeps_pure

theorem safely_answerSend {op : String} : Safely c db₀ (answerSend op) db ds :=
  keeps_get keeps_pure

/-- What `idle` ensures. -/
theorem safely_idle {k : Unit → Prog α}
    (h : (∀ t ∈ db.tasks, t.Settled) → (∀ s ∈ db.sends, s.Settled) → Safely c db₀ (k ()) db ds) :
    Safely c db₀ (idle >>= k) db ds := by
  unfold idle
  simp only [bind_assoc]
  refine keeps_get (keeps_require fun htasks => keeps_require fun hsends => ?_)
  refine keeps_require fun hcreated => ?_
  have hlast : Safely c db₀ (require (∀ s ∈ db.sends, s.reconciled = true)
      "result_requires_central_reconciliation" >>= k) db ds :=
    keeps_require fun hrec => h (fun t ht => ⟨htasks t ht, hcreated t ht⟩)
      fun s hs => ⟨hsends s hs, hrec s hs⟩
  exact hlast

/-! ## Creating and sending -/

theorem safely_createNew (hdb : db.Sound) (hds : ∀ d ∈ ds, db.Has d) {spec : TaskSpec} {hashed : String}
    (hnew : ∀ t ∈ db.tasks, t.id ≠ spec.operationId) : Safely c db (createNew spec hashed) db ds := by
  unfold createNew
  refine safely_idle fun htasks hsends => safely_legacyIdle (keeps_get (keeps_require fun _ => ?_))
  refine safely_invoke rfl fun ready => safely_raised fun _ _ => safely_clock fun now => ?_
  have hbusy : db.busy = 0 :=
    Db.busy_eq_zero (fun t ht => (htasks t ht).1) fun s hs => (hsends s hs).1
  refine safely_transaction fun db₁ hok => ?_
  have hs₁ := hdb.insertTask hbusy rfl hok
  have hc₁ : db.Changes c db₁ := .insertTask hok
  refine ⟨hs₁, fun d hd => hc₁.has hd, hc₁, ?_⟩
  obtain ⟨-, rfl⟩ := Db.insertTask_ok.1 hok
  refine safely_dispatch rfl ?_ ?_ fun reply => safely_clock fun now' => ?_
  · refine ⟨⟨_, List.mem_append_right _ (List.mem_singleton_self _), rfl, rfl⟩, ?_, hsends⟩
    intro t ht hid
    rcases List.mem_append.1 ht with ht | ht
    · exact htasks t ht
    · exact absurd (congrArg Task.id (List.mem_singleton.1 ht)) hid
  · intro hd
    obtain ⟨t, ht, hid⟩ := hds _ hd
    exact hnew t ht hid
  -- the reply is recorded in the new row, which no earlier row is
  refine safely_transaction fun db₂ hok₂ => ?_
  simp only [finishCreate, bind_ok, need_eq_ok, exists_unit, pure_ok] at hok₂
  obtain ⟨-, rfl⟩ := hok₂
  refine ⟨?_, ?_, ?_, safely_answerTask⟩
  · refine hs₁.updateTask (fun _ => rfl) fun t ht hop _ => ?_
    rcases List.mem_append.1 ht with ht | ht
    · exact absurd hop (hnew t ht)
    · rw [List.mem_singleton.1 ht]; exact ⟨rfl, rfl⟩
  · exact fun d hd => hd.updateTask fun _ => rfl
  · refine .of_rows (fun t ht => ?_) (fun s hs => hs) (fun s hs => Or.inl hs) rfl
    exact mem_amend.2 (Or.inl ⟨List.mem_append_left _ ht, hnew t ht⟩)

theorem safely_create (hdb : db.Sound) (hds : ∀ d ∈ ds, db.Has d) {q : Json} : Safely c db (create q) db ds := by
  unfold create
  refine keeps_lift fun spec _ => keeps_get ?_
  cases hrow : db.task? spec.operationId with
  | some old => exact keeps_require fun _ => keeps_pure
  | none => exact safely_createNew hdb hds (lookup_eq_none.1 hrow)

/-- A refused message gets a row and is never sent. -/
theorem safely_recordRefusal (hdb : db.Sound) {op task hashed : String} {result : Json}
    (hbusy : db.busy = 0) : Safely c db (recordRefusal op task hashed result) db ds := by
  unfold recordRefusal
  refine safely_clock fun now => safely_transaction fun db₁ hok => ?_
  have hc : db.Changes c db₁ := .insertSend rfl hok
  exact ⟨hdb.insertSend hbusy rfl hok, fun d hd => hc.has hd, hc, safely_answerSend⟩

theorem safely_dispatchSend (hdb : db.Sound) (hds : ∀ d ∈ ds, db.Has d) {q : SendSpec} {task : Task}
    {thread hashed : String} (hmem : task ∈ db.tasks) (hcreated : task.state = .created)
    (hbusy : db.busy = 0) (hsends : ∀ s ∈ db.sends, s.Settled)
    (htasks : ∀ t ∈ db.tasks, t.Settled ∨ t.id = task.id ∧ t.state = .created)
    (hnew : ∀ s ∈ db.sends, s.id ≠ q.operationId) {j : Json} {allowWorkspace : Bool}
    (hc : c = .send j allowWorkspace) (hj : item j "task_id" = .str task.id) :
    Safely c db (dispatchSend q task.id thread hashed) db ds := by
  unfold dispatchSend
  refine safely_clock fun now => safely_transaction fun db₁ hok => ?_
  have hc₁ : db.Changes c db₁ := .insertSend rfl hok
  obtain ⟨htasks₁, hcreations⟩ := Db.tasks_insertSend hok
  refine ⟨hdb.insertSend hbusy rfl hok, fun d hd => hc₁.has hd, hc₁, ?_⟩
  refine safely_dispatch rfl (Db.ready_send hsends htasks hok rfl) ?_ fun reply => ?_
  · intro hd
    obtain ⟨s, hs, hid⟩ := hds _ hd
    exact hnew s hs hid
  refine safely_clock fun now' => safely_transaction fun db₂ hok₂ => ?_
  obtain rfl := Except.ok.inj hok₂
  refine ⟨?_, ?_, ⟨?_, ?_, ?_, ?_⟩, safely_answerSend⟩
  · refine Db.Sound.updateTask (hdb.finishSend hbusy hok rfl rfl ?_ ?_) ?_ ?_
    · intro s; rfl
    · intro s; rfl
    · intro t; rfl
    -- the receiver is a created task, so the reservation is not one of a busy row
    intro t ht hid hb
    have ht' : t ∈ db.tasks := htasks₁ ▸ ht
    rw [eq_of_key_eq hdb.tasks ht' hmem hid, hcreated] at hb
    cases hb
  · intro d hd
    refine Db.Has.updateTask (hd.updateSend ?_) ?_
    · intro s; rfl
    · intro t; rfl
  · exact fun s hs => ⟨s, Db.mem_finishSend hok hs, .same⟩
  · intro t ht
    have ht₁ : t ∈ db₁.tasks := htasks₁ ▸ ht
    by_cases hid : t.id = task.id
    · refine ⟨_, mem_amend.2 (Or.inr ⟨t, ht₁, hid, rfl⟩), .instructed hc (by rw [hid]; exact hj) ?_⟩
      rw [eq_of_key_eq hdb.tasks ht hmem hid]; exact hcreated
    · exact ⟨t, mem_amend.2 (Or.inl ⟨ht₁, hid⟩), .same⟩
  · intro s hs
    refine (Db.fresh_finishSend hok rfl ?_ hs).imp (fun h => ⟨s, h, rfl⟩) id
    intro s; rfl
  · intro op
    exact Or.inl (by simp only [Db.creationResult, Db.updateTask, Db.updateSend, hcreations])

theorem safely_sendTask (hdb : db.Sound) (hds : ∀ d ∈ ds, db.Has d) {q : SendSpec} {task : Task}
    {thread hashed : String} (hmem : task ∈ db.tasks) (hcreated : task.state = .created)
    (hnew : ∀ s ∈ db.sends, s.id ≠ q.operationId) {j : Json} {allowWorkspace : Bool}
    (hc : c = .send j allowWorkspace) (hj : item j "task_id" = .str task.id) :
    Safely c db (sendTask q hashed task thread) db ds := by
  unfold sendTask
  refine keeps_get (keeps_require fun hothers => keeps_require fun hsends => ?_)
  refine safely_legacyIdle (safely_askAdmission (safely_invoke rfl fun ready => ?_))
  -- a task that is not the receiver is reconciled, so it is not busy
  have htasks : ∀ t ∈ db.tasks, t.Settled ∨ t.id = task.id ∧ t.state = .created := by
    intro t ht
    by_cases hid : t.id = task.id
    · exact Or.inr ⟨hid, by rw [eq_of_key_eq hdb.tasks ht hmem hid]; exact hcreated⟩
    · have hrec := hothers t ht hid
      refine Or.inl ⟨?_, fun _ => hrec⟩
      by_contra hb
      exact absurd (hdb.reserved t ht (by simpa using hb)) (by simp [hrec])
  have hbusy : db.busy = 0 := by
    refine Db.busy_eq_zero (fun t ht => ?_) fun s hs => (hsends s hs).1
    rcases htasks t ht with h | ⟨-, h⟩
    · exact h.1
    · rw [h]; rfl
  cases ready with
  | error e => exact safely_recordRefusal hdb hbusy
  | ok a => exact safely_dispatchSend hdb hds hmem hcreated hbusy hsends htasks hnew hc hj

theorem safely_dispatchWorkspace (hdb : db.Sound) (hds : ∀ d ∈ ds, db.Has d) {q : SendSpec}
    {thread hashed : String} {context : Json} (hbusy : db.busy = 0)
    (hsends : ∀ s ∈ db.sends, s.Settled) (htasks : ∀ t ∈ db.tasks, t.Settled)
    (hnew : ∀ s ∈ db.sends, s.id ≠ q.operationId) :
    Safely c db (dispatchWorkspace q hashed thread context) db ds := by
  unfold dispatchWorkspace
  refine safely_clock fun now => safely_transaction fun db₁ hok => ?_
  have hc₁ : db.Changes c db₁ := .insertSend rfl hok
  refine ⟨hdb.insertSend hbusy rfl hok, fun d hd => hc₁.has hd, hc₁, ?_⟩
  refine safely_dispatch rfl (Db.ready_send hsends (fun t ht => Or.inl (htasks t ht)) hok rfl) ?_
    fun reply => keeps_require fun _ => safely_clock fun now' => ?_
  · intro hd
    obtain ⟨s, hs, hid⟩ := hds _ hd
    exact hnew s hs hid
  refine safely_transaction fun db₂ hok₂ => ?_
  obtain rfl := Except.ok.inj hok₂
  obtain ⟨htasks₁, hcreations⟩ := Db.tasks_insertSend hok
  refine ⟨hdb.finishSend hbusy hok rfl rfl (fun _ => rfl) fun _ => rfl,
    fun d hd => hd.updateSend fun _ => rfl, ?_, safely_answerSend⟩
  refine .of_rows (fun t ht => htasks₁ ▸ ht) (fun s hs => Db.mem_finishSend hok hs)
    (fun s hs => Db.fresh_finishSend hok rfl ?_ hs) hcreations
  intro s; rfl

theorem safely_sendWorkspace (hdb : db.Sound) (hds : ∀ d ∈ ds, db.Has d) {q : SendSpec}
    {hashed : String} (hnew : ∀ s ∈ db.sends, s.id ≠ q.operationId) :
    Safely c db (sendWorkspace q hashed) db ds := by
  unfold sendWorkspace
  refine keeps_lift fun thread _ => keeps_get (keeps_require fun _ => ?_)
  refine safely_idle fun htasks hsends => safely_legacyIdle (keeps_require fun _ => ?_)
  refine safely_askAdmission (safely_invoke rfl fun ready => ?_)
  have hbusy : db.busy = 0 :=
    Db.busy_eq_zero (fun t ht => (htasks t ht).1) fun s hs => (hsends s hs).1
  cases plan thread ready with
  | error reason => exact safely_recordRefusal hdb hbusy
  | ok context => exact safely_dispatchWorkspace hdb hds hbusy hsends htasks hnew

theorem safely_send (hdb : db.Sound) (hds : ∀ d ∈ ds, db.Has d) {q : Json} {allowWorkspace : Bool} :
    Safely (.send q allowWorkspace) db (send q allowWorkspace) db ds := by
  unfold send
  refine keeps_lift fun spec hspec => keeps_get ?_
  cases hrow : db.send? spec.operationId with
  | some old =>
    simp only
    split_ifs
    · exact keeps_pure
    · exact keeps_require fun _ => keeps_pure
  | none =>
    have hnew := lookup_eq_none.1 hrow
    simp only [sendNew]
    refine keeps_get ?_
    cases htask : db.task? spec.taskId with
    | none => exact keeps_require fun _ => safely_sendWorkspace hdb hds hnew
    | some task =>
      obtain ⟨hmem, hid⟩ := lookup_eq_some htask
      refine keeps_require fun hcreated => keeps_lift fun thread _ => ?_
      exact safely_sendTask hdb hds hmem hcreated hnew rfl (by rw [hid]; exact sendSpec_taskId hspec)

/-! ## Observing -/

theorem safely_recordObservation (hdb : db.Sound) {row : Send} (hrow : row ∈ db.sends)
    (hstate : row.state.observable = true) {reply : Json} :
    Safely (.observe row.id) db (recordObservation row reply) db ds := by
  unfold recordObservation
  refine keeps_lift fun state hof => keeps_require fun _ => safely_clock fun now => ?_
  refine safely_transaction fun db₁ hok => ?_
  obtain rfl := Except.ok.inj hok
  have hsame : ∀ s ∈ db.sends, s.id = row.id → s.state.observable = true := by
    intro s hs hid
    rw [eq_of_key_eq hdb.sends hs hrow hid]; exact hstate
  refine ⟨hdb.updateSend ?_ ?_, ?_, ⟨?_, ?_, ?_, ?_⟩, safely_answerSend⟩
  · intro s; rfl
  · intro s hs hid _
    refine ⟨?_, rfl⟩
    have := hsame s hs hid
    cases hst : s.state <;> simp_all [SendState.observable, SendState.busy]
  · intro d hd
    refine hd.updateSend ?_
    intro s; rfl
  · intro s hs
    by_cases hid : s.id = row.id
    · refine ⟨_, mem_amend.2 (Or.inr ⟨s, hs, hid, rfl⟩), .observed (by rw [hid]) (hsame s hs hid) ?_⟩
      simpa using hof
    · exact ⟨s, mem_amend.2 (Or.inl ⟨hs, hid⟩), .same⟩
  · exact fun t ht => ⟨t, ht, .same⟩
  · intro s hs
    refine Or.inl (Db.fresh_updateSend ?_ hs)
    intro s; rfl
  · exact fun op => Or.inl rfl

theorem safely_observe (hdb : db.Sound) {op : String} :
    Safely (.observe op) db (observe op) db ds := by
  unfold observe
  refine keeps_get (keeps_lift fun row hrow => ?_)
  obtain ⟨hmem, rfl⟩ := lookup_eq_some (orFail_eq_ok.1 hrow)
  cases named row.turn with
  | none => exact keeps_pure
  | some turn =>
    simp only
    split_ifs with hstate
    · unfold observeRunning
      refine keeps_lift fun workspace _ => ?_
      cases workspace with
      | some thread =>
        simp only [observeWorkspace, bind_assoc]
        refine keeps_lift fun previous _ => keeps_require fun _ => safely_invoke rfl fun reply => ?_
        refine safely_raised fun reply _ => keeps_lift fun _ _ => keeps_require fun _ => ?_
        exact safely_recordObservation hdb hmem hstate
      | none =>
        simp only [observeTask, bind_assoc]
        refine keeps_get (keeps_lift fun task _ => keeps_lift fun thread _ => ?_)
        refine safely_invoke rfl fun reply => safely_raised fun reply _ => ?_
        exact safely_recordObservation hdb hmem hstate
    · exact keeps_pure

omit [JsonText] in
theorem Db.creationResult_put {op op' : String} {result : Json} (h : op' ≠ op) :
    (db.putCreation op result).creationResult op' = db.creationResult op' := by
  rw [Db.creationResult, Db.putCreation, lookup_put_ne h]
  rfl

theorem safely_observeThread (hdb : db.Sound) {task : Task} (hmem : task ∈ db.tasks)
    (hstate : task.state = .created ∨ task.state = .createUnknown) {thread : String} :
    Safely (.observeCreation task.id) db (observeThread task thread) db ds := by
  unfold observeThread
  refine safely_invoke rfl fun reply => safely_raised fun observed _ => ?_
  refine keeps_lift fun found _ => keeps_require fun _ => safely_clock fun now => ?_
  refine safely_transaction fun db₁ hok => ?_
  obtain rfl := Except.ok.inj hok
  have hcreations : ∀ op', (db.putCreation task.id (creationReceipt observed task.id)).creationResult
      op' = db.creationResult op' ∨ Command.observeCreation task.id = .observeCreation op' ∧
        ∃ t ∈ db.tasks, t.id = op' ∧ (t.state = .created ∨ t.state = .createUnknown) := by
    intro op'
    by_cases hop : op' = task.id
    · subst hop
      exact Or.inr ⟨rfl, task, hmem, rfl, hstate⟩
    · exact Or.inl (Db.creationResult_put hop)
  have hput : (db.putCreation task.id (creationReceipt observed task.id)).Sound :=
    ⟨hdb.tasks, hdb.sends, hdb.single, hdb.reserved, hdb.unsettled⟩
  have hhas : ∀ d, db.Has d → (db.putCreation task.id (creationReceipt observed task.id)).Has d :=
    fun d hd => hd.mono (fun t ht => ⟨t, ht, rfl⟩) fun s hs => ⟨s, hs, rfl⟩
  by_cases hfound : found = .durableReady ∧ task.state = .createUnknown
  · rw [if_pos hfound]
    have hsame : ∀ t ∈ db.tasks, t.id = task.id → t.state = .createUnknown := by
      intro t ht hid
      rw [eq_of_key_eq hdb.tasks ht hmem hid]; exact hfound.2
    refine ⟨hput.updateTask ?_ ?_, ?_, ⟨?_, ?_, fun s hs => Or.inl ⟨s, hs, rfl⟩, hcreations⟩,
      keeps_get keeps_pure⟩
    · intro t; rfl
    · intro t ht hid hb
      cases hb
    · intro d hd
      refine (hhas d hd).updateTask ?_
      intro t; rfl
    · exact fun s hs => ⟨s, hs, .same⟩
    · intro t ht
      by_cases hid : t.id = task.id
      · exact ⟨_, mem_amend.2 (Or.inr ⟨t, ht, hid, rfl⟩), .found (by rw [hid]) (hsame t ht hid)⟩
      · exact ⟨t, mem_amend.2 (Or.inl ⟨ht, hid⟩), .same⟩
  · rw [if_neg hfound]
    refine ⟨hput, ?_, ⟨?_, ?_, fun s hs => Or.inl ⟨s, hs, rfl⟩, hcreations⟩,
      keeps_get keeps_pure⟩
    · exact hhas
    · exact fun s hs => ⟨s, hs, .same⟩
    · exact fun t ht => ⟨t, ht, .same⟩

theorem safely_observeCreation (hdb : db.Sound) {op : String} :
    Safely (.observeCreation op) db (observeCreation op) db ds := by
  unfold observeCreation
  refine keeps_get (keeps_lift fun task htask => ?_)
  obtain ⟨hmem, rfl⟩ := lookup_eq_some (orFail_eq_ok.1 htask)
  cases named task.thread with
  | none => exact keeps_pure
  | some thread =>
    simp only
    split_ifs with hstate
    · exact safely_observeThread hdb hmem hstate.1
    · exact keeps_pure

/-! ## Reconciling -/

theorem safely_releaseCreation (hdb : db.Sound) {task : Task} (hmem : task ∈ db.tasks)
    (hstate : task.state = .created ∨ task.state = .createUnknown) {result : Json}
    (hresult : db.creationResult task.id = some result)
    (hlost : item result "state" = .str "missing_before_first_send") {thread : String} :
    Safely (.reconcileCreation task.id (fingerprint result)) db
      (releaseCreation task.id (fingerprint result) thread) db ds := by
  unfold releaseCreation
  refine safely_invoke rfl fun reply => safely_raised fun current _ => keeps_lift fun _ _ => ?_
  refine keeps_require fun _ => safely_clock fun now => safely_transaction fun db₁ hok => ?_
  obtain rfl := Except.ok.inj hok
  refine ⟨hdb.updateTask ?_ ?_, ?_, ⟨?_, ?_, fun s hs => Or.inl ⟨s, hs, rfl⟩, ?_⟩, keeps_pure⟩
  · intro t; rfl
  · intro t ht hid hb
    cases hb
  · intro d hd
    refine hd.updateTask ?_
    intro t; rfl
  · exact fun s hs => ⟨s, hs, .same⟩
  · intro t ht
    by_cases hid : t.id = task.id
    · obtain rfl := eq_of_key_eq hdb.tasks ht hmem hid
      exact ⟨_, mem_amend.2 (Or.inr ⟨t, ht, hid, rfl⟩), .lost rfl hresult hlost hstate⟩
    · exact ⟨t, mem_amend.2 (Or.inl ⟨ht, hid⟩), .same⟩
  · exact fun op => Or.inl rfl

theorem safely_reconcileCreation (hdb : db.Sound) {op hash : String} :
    Safely (.reconcileCreation op hash) db (reconcileCreation op hash) db ds := by
  unfold reconcileCreation
  refine keeps_get (keeps_lift fun task htask => keeps_lift fun result hresult => ?_)
  obtain ⟨hmem, rfl⟩ := lookup_eq_some (orFail_eq_ok.1 htask)
  refine keeps_require fun hlost => ?_
  obtain ⟨hlost, rfl⟩ := hlost
  split_ifs
  · exact keeps_pure
  · refine keeps_lift fun thread _ => keeps_require fun hstate => ?_
    exact safely_releaseCreation hdb hmem hstate.1 (orFail_eq_ok.1 hresult) hlost

omit [JsonText] in
/-- What the reconciliation of a row does to the reservations of tasks. -/
theorem releaseReservation_cases {current : Send} {result : Json}
    (h : releaseReservation current result db = .ok db') : db' = db ∨
    ∃ task ∈ db.tasks, task.id = current.task ∧ task.state = .created ∧
      current.state = .notDispatched ∧
      db' = db.updateTask task.id fun t => { t with reconciled := true } := by
  unfold releaseReservation at h
  by_cases hstate : current.state = .notDispatched
  · rw [if_pos hstate, bind_ok] at h
    obtain ⟨o, ho, h⟩ := h
    cases o with
    | none => exact Or.inl (Except.ok.inj h).symm
    | some task =>
      have htask : db.task? current.task = some task ∧ task.state = .created := by
        simp only [checkRefusal, bind_ok, need_eq_ok, exists_unit] at ho
        obtain ⟨-, workspace, -, ho⟩ := ho
        cases workspace with
        | some thread =>
          simp only [bind_ok, exists_unit, pure_ok] at ho
          cases ho.2
        | none =>
          simp only [bind_ok, orFail_eq_ok, need_eq_ok, exists_unit, pure_ok] at ho
          obtain ⟨t, ht, hcreated, ho⟩ := ho
          obtain rfl := Option.some.inj ho
          exact ⟨ht, hcreated.1⟩
      obtain ⟨hmem, hid⟩ := lookup_eq_some htask.1
      simp only [releaseTask] at h
      split_ifs at h
      · exact Or.inl (Except.ok.inj h).symm
      · simp only [bind_ok, need_eq_ok, exists_unit, pure_ok] at h
        exact Or.inr ⟨task, hmem, hid, htask.2, hstate, h.2.symm⟩
  · rw [if_neg hstate] at h
    exact Or.inl (Except.ok.inj h).symm

theorem safely_reconcile (hdb : db.Sound) {op hash : String} :
    Safely (.reconcile op hash) db (reconcile op hash) db ds := by
  unfold reconcile
  refine keeps_get (keeps_lift fun row hrow => keeps_lift fun result hresult => ?_)
  obtain ⟨hmem, rfl⟩ := lookup_eq_some (orFail_eq_ok.1 hrow)
  have hresult := orFail_eq_ok.1 hresult
  refine keeps_require fun hstate => keeps_require fun hhash => ?_
  subst hhash
  have hidle : row.state.busy = false := by
    rcases hstate with h | h
    · cases hst : row.state <;> simp_all [SendState.terminal, SendState.busy]
    · rw [h]; rfl
  split_ifs
  · exact keeps_pure
  refine safely_transaction fun db₁ hok => ?_
  simp only [finishReconcile, bind_ok, orFail_eq_ok, need_eq_ok, exists_unit, pure_ok] at hok
  obtain ⟨current, hcurrent, r, -, -, released, hrel, hdone⟩ := hok
  obtain ⟨hmem', hid'⟩ := lookup_eq_some hcurrent
  obtain rfl := eq_of_key_eq hdb.sends hmem' hmem hid'
  -- the reservation of the task
  have hreleased : released.Sound ∧ (∀ d, db.Has d → released.Has d) ∧
      released.sends = db.sends ∧ released.creationResults = db.creationResults ∧
      ∀ t ∈ db.tasks, ∃ t' ∈ released.tasks, TaskMove (.reconcile current.id (fingerprint result)) db t t' := by
    rcases releaseReservation_cases hrel with rfl | ⟨task, ht, htid, hcreated, hnot, rfl⟩
    · exact ⟨hdb, fun d hd => hd, rfl, rfl, fun t ht => ⟨t, ht, .same⟩⟩
    · have hsame : ∀ t ∈ db.tasks, t.id = task.id → t = task :=
        fun t h hid => eq_of_key_eq hdb.tasks h ht hid
      refine ⟨hdb.updateTask ?_ ?_, ?_, rfl, rfl, ?_⟩
      · intro t; rfl
      · intro t h hid hb
        rw [hsame t h hid, hcreated] at hb
        cases hb
      · intro d hd
        refine hd.updateTask ?_
        intro t; rfl
      · intro t h
        by_cases hid : t.id = task.id
        · obtain rfl := hsame t h hid
          exact ⟨_, mem_amend.2 (Or.inr ⟨t, h, hid, rfl⟩), .released rfl hmem hresult hnot htid.symm hcreated⟩
        · exact ⟨t, mem_amend.2 (Or.inl ⟨h, hid⟩), .same⟩
  obtain ⟨hsound, hhas, hsends, hcreations, htasks⟩ := hreleased
  have hkept : ∀ op, released.creationResult op = db.creationResult op := fun op => by
    simp only [Db.creationResult, hcreations]
  split_ifs at hdone with hrec
  · subst hdone
    exact ⟨hsound, hhas, ⟨fun s hs => ⟨s, hsends ▸ hs, .same⟩, htasks,
      fun s hs => Or.inl ⟨s, hsends ▸ hs, rfl⟩, fun op => Or.inl (hkept op)⟩, keeps_pure⟩
  · subst hdone
    refine ⟨hsound.updateSend ?_ ?_, ?_, ⟨?_, htasks, ?_, fun op => Or.inl (hkept op)⟩, keeps_pure⟩
    · intro s; rfl
    · intro s hs hid hb
      rw [hsends] at hs
      obtain rfl := eq_of_key_eq hdb.sends hs hmem hid
      rw [hidle] at hb
      cases hb
    · intro d hd
      refine (hhas d hd).updateSend ?_
      intro s; rfl
    · intro s hs
      have hs' : s ∈ released.sends := hsends ▸ hs
      by_cases hid : s.id = current.id
      · obtain rfl := eq_of_key_eq hdb.sends hs hmem hid
        exact ⟨_, mem_amend.2 (Or.inr ⟨s, hs', hid, rfl⟩), .reconciled rfl hresult hidle⟩
      · exact ⟨s, mem_amend.2 (Or.inl ⟨hs', hid⟩), .same⟩
    · intro s hs
      refine Or.inl (hsends ▸ Db.fresh_updateSend ?_ hs)
      intro s; rfl

/-- Every command keeps the invariant, wherever it stops. -/
theorem safely_program (hdb : db.Sound) (hds : ∀ d ∈ ds, db.Has d) (c : Command) :
    Safely c db c.program db ds := by
  cases c with
  | create q => exact safely_create hdb hds
  | send q allowWorkspace => exact safely_send hdb hds
  | observe op => exact safely_observe hdb
  | observeCreation op => exact safely_observeCreation hdb
  | reconcile op hash => exact safely_reconcile hdb
  | reconcileCreation op hash => exact safely_reconcileCreation hdb

theorem Kept.serves (h : Kept w) (c : Command) {w' : StoreWorld} (hr : Run c.program w w') :
    Serves c w.state w' := by
  have hstart : Serves c w.state w := ⟨h, .refl⟩
  exact (safely_program h.sound h.rows c).run hstart ⟨rfl, rfl⟩ hr

/-! ## Runs -/

/-- A database at rest: the keys are keys, and no row is busy. -/
structure Db.AtRest (db : Db) : Prop where
  tasks : (db.tasks.map Task.id).Nodup
  sends : (db.sends.map Send.id).Nodup
  idle : db.busy = 0

omit [JsonText] in
theorem Db.AtRest.sound (h : db.AtRest) : db.Sound := by
  obtain ⟨htasks, hsends, hidle⟩ := h
  obtain ⟨ht, hs⟩ := Nat.add_eq_zero_iff.1 hidle
  refine ⟨htasks, hsends, by omega, ?_, ?_⟩
  · intro t hmem hb
    exact absurd hb (List.countP_eq_zero.1 ht t hmem)
  · intro s hmem hb
    exact absurd hb (List.countP_eq_zero.1 hs s hmem)

/-- The runs of the store: from a database at rest, commands one after the other, each of which
    may stop at any point. -/
def storeMachine : Machine StoreWorld where
  start w := w.calls = [] ∧ w.state.AtRest
  step w w' := ∃ c : Command, Run c.program w w'

theorem storeMachine_kept (hw : storeMachine.Reachable w) : Kept w := by
  refine Machine.Invariant.reachable ⟨?_, ?_⟩ hw
  · rintro w ⟨hc, hs⟩
    exact ⟨hs.sound, by simp [dispatches, hc], by simp [hc], by simp [dispatches, hc]⟩
  · rintro w w' - h ⟨c, hr⟩
    exact (h.serves c hr).kept

/-- What a command leaves as it is. -/
structure Db.Holds (c : Command) (db db' : Db) : Prop where
  /-- A message that is finished, or was refused, keeps its state, its turn and its result. -/
  finished : ∀ s ∈ db.sends, s.state.busy = false → ∃ s' ∈ db'.sends, s'.id = s.id ∧
    s'.state = s.state ∧ s'.turn = s.turn ∧ s'.result = s.result
  /-- A lost creation stays as it is, with its result. -/
  lost : ∀ t ∈ db.tasks, t.state = .creationLostBeforeSend →
    (∃ t' ∈ db'.tasks, t'.id = t.id ∧ t'.state = t.state) ∧
      db'.creationResult t.id = db.creationResult t.id
  /-- A message that is running or uncertain is released by its observation only. -/
  running : ∀ s ∈ db.sends, s.state.busy = true → c ≠ .observe s.id → s ∈ db'.sends
  /-- A creation that is running or uncertain is released by its observation or its
      reconciliation only. -/
  creating : ∀ t ∈ db.tasks, t.state.busy = true → c ≠ .observeCreation t.id →
    (∀ hash, c ≠ .reconcileCreation t.id hash) → t ∈ db'.tasks
  /-- A result is reconciled by the reconciliation with its hash only. -/
  reconciled : ∀ s' ∈ db'.sends, s'.reconciled = true → ∃ s ∈ db.sends, s.id = s'.id ∧
    (s.reconciled = true ∨
      ∃ result, s.result = some result ∧ c = .reconcile s.id (fingerprint result))

theorem Db.Changes.holds (h : db.Changes c db') (hdb : db.Sound) (hdb' : db'.Sound) :
    db.Holds c db' where
  finished s hs hidle := by
    obtain ⟨s', hs', hm⟩ := h.sends s hs
    refine ⟨s', hs', hm.id, ?_⟩
    cases hm with
    | same => exact ⟨rfl, rfl, rfl⟩
    | observed hc hst =>
      cases hstate : s.state <;> simp_all [SendState.observable, SendState.busy]
    | reconciled => exact ⟨rfl, rfl, rfl⟩
  lost t ht hlost := by
    constructor
    · obtain ⟨t', ht', hm⟩ := h.tasks t ht
      refine ⟨t', ht', hm.id, ?_⟩
      cases hm with
      | same => rfl
      | instructed => rfl
      | released => rfl
      | found hc hst => rw [hlost] at hst; cases hst
      | lost hc hr hi hst => exact hlost.symm
    · rcases h.creations t.id with hc | ⟨-, t', ht', hid, hst⟩
      · exact hc
      · obtain rfl := eq_of_key_eq hdb.tasks ht' ht hid
        rw [hlost] at hst
        rcases hst with hst | hst <;> cases hst
  running s hs hb hc := by
    obtain ⟨s', hs', hm⟩ := h.sends s hs
    cases hm with
    | same => exact hs'
    | observed hc' => exact absurd hc' hc
    | reconciled hc' hr hidle => rw [hb] at hidle; cases hidle
  creating t ht hb hc hc' := by
    obtain ⟨t', ht', hm⟩ := h.tasks t ht
    cases hm with
    | same => exact ht'
    | instructed _ _ hst => rw [hst] at hb; cases hb
    | found hco => exact absurd hco hc
    | lost hco => exact absurd hco (hc' _)
    | released _ _ _ _ _ hst => rw [hst] at hb; cases hb
  reconciled s' hs' hrec := by
    rcases h.fresh s' hs' with ⟨s, hs, hid⟩ | hnot
    · refine ⟨s, hs, hid, ?_⟩
      obtain ⟨s'', hs'', hm⟩ := h.sends s hs
      obtain rfl := eq_of_key_eq hdb'.sends hs'' hs' (hm.id.trans hid)
      cases hm with
      | same => exact Or.inl hrec
      | observed => exact Or.inl hrec
      | reconciled hc hr => exact Or.inr ⟨_, hr, hc⟩
    · rw [hrec] at hnot; cases hnot

/-- **The task store is single flight and repeats no effect.**  At every point of every run at
    most one row is busy, no operation is dispatched twice, every dispatch found its intent
    committed and everything before it settled; and a command, wherever it stops, changes rows
    only as `Db.Changes` says and keeps what `Db.Holds` says. -/
theorem task_store_single_flight (hw : storeMachine.Reachable w) :
    w.state.busy ≤ 1 ∧ (∀ d, (dispatches w).count d ≤ 1) ∧
      (∀ call ∈ w.calls, ∀ d ∈ call.2.dispatch?, call.1.Ready d) ∧
      ∀ (c : Command) (w' : StoreWorld), Run c.program w w' →
        w.state.Changes c w'.state ∧ w.state.Holds c w'.state := by
  have hkept := storeMachine_kept hw
  refine ⟨hkept.sound.single, List.nodup_iff_count_le_one.1 hkept.once, hkept.ready, ?_⟩
  intro c w' hr
  have hserves := hkept.serves c hr
  exact ⟨hserves.changes, hserves.changes.holds hkept.sound hserves.kept.sound⟩

end

/-! ## A run -/

/-- A hash for runs on fixed inputs: the sorted text itself. -/
@[reducible] def sortedText : JsonText where
  fingerprint j := String.ofList j.canonical
  size j := j.canonical.length

def sampleId : String := "00000000000000000000000000000000"

def sampleUuid : String := "00000000-0000-0000-0000-000000000000"

/-- A task is created, and then gets a message. -/
def sampleCommands : List Command :=
  [.create (.obj [("operation_id", .str sampleId), ("task_key", .str "night-lights"),
      ("objective", .str "dim the lights"), ("acceptance", .str "lights are dim")]),
    .send (.obj [("operation_id", .str sampleId), ("task_id", .str sampleId), ("text", .str "go")])
      false]

/-- A transport that accepts everything. -/
def sampleAnswer : ∀ q, Reply q
  | .clock => (0 : ℚ)
  | .legacyIdle => .ok ()
  | .admission _ _ => .ok ()
  | .invoke _ => .ok (.obj [("thread_id", .str sampleUuid), ("fixed_profile_verified", .bool true),
      ("durable_thread_verified", .bool true), ("operation_state", .str "accepted"),
      ("turn_id", .str sampleUuid)])

/-- The world after `sampleCommands`. -/
def sampleWorld : StoreWorld :=
  sampleCommands.foldl (fun w c => exec sampleAnswer (@Command.program sortedText c) w) ⟨⟨[], [], []⟩, []⟩

theorem sampleWorld_reachable : (@storeMachine sortedText).Reachable sampleWorld := by
  have hstart : (@storeMachine sortedText).Reachable ⟨⟨[], [], []⟩, []⟩ :=
    .start ⟨rfl, List.nodup_nil, List.nodup_nil, rfl⟩
  exact .step (.step hstart ⟨_, run_exec _ _ _⟩) ⟨_, run_exec _ _ _⟩

theorem task_store_single_flight_sample : sampleWorld.state.busy ≤ 1 ∧
    (dispatches sampleWorld).count (.send sampleId) ≤ 1 ∧
    dispatches sampleWorld = [.create sampleId, .send sampleId] := by
  obtain ⟨hbusy, honce, -⟩ := @task_store_single_flight sortedText _ sampleWorld_reachable
  exact ⟨hbusy, honce _, by decide +kernel⟩

end SmartHome.TaskControl
