/-
  The rows of the task store: what is dispatched, what holds of the tables between two steps, how
  a command may change a row, and what the changes of the tables keep.
-/
import SmartHome.TaskControl.Store

namespace SmartHome.TaskControl

open Verif Program

/-! ## Dispatches -/

/-- An operation whose effect is requested. -/
inductive Dispatch where
  | create (op : String)
  | send (op : String)
  deriving DecidableEq

/-- The operation that a request dispatches. -/
def Request.dispatch? : Request → Option Dispatch
  | .invoke (.create op) => some (.create op)
  | .invoke (.send _ op _) => some (.send op)
  | .invoke (.workspaceMessage _ op _ _ _) => some (.send op)
  | _ => none

/-- No reservation is left on a task. -/
def Task.Settled (t : Task) : Prop :=
  t.state.busy = false ∧ (t.state = .created → t.reconciled = true)

/-- The result of a send is reconciled. -/
def Send.Settled (s : Send) : Prop := s.state.busy = false ∧ s.reconciled = true

namespace Db

/-- The row of a dispatched operation is there. -/
def Has (db : Db) : Dispatch → Prop
  | .create op => ∃ t ∈ db.tasks, t.id = op
  | .send op => ∃ s ∈ db.sends, s.id = op

/-- The intent of a dispatch is committed, and everything else is settled; a message leaves the
    reservation of the task it is for. -/
def Ready (db : Db) : Dispatch → Prop
  | .create op => (∃ t ∈ db.tasks, t.id = op ∧ t.state = .createIntent) ∧
      (∀ t ∈ db.tasks, t.id ≠ op → t.Settled) ∧ ∀ s ∈ db.sends, s.Settled
  | .send op => ∃ s ∈ db.sends, s.id = op ∧ s.state = .sendIntent ∧
      (∀ s' ∈ db.sends, s'.id ≠ op → s'.Settled) ∧
      ∀ t ∈ db.tasks, t.Settled ∨ t.id = s.task ∧ t.state = .created

/-- The number of busy rows. -/
def busy (db : Db) : ℕ :=
  db.tasks.countP (fun t => t.state.busy) + db.sends.countP fun s => s.state.busy

/-- What holds of the database between any two steps. -/
structure Sound (db : Db) : Prop where
  tasks : (db.tasks.map Task.id).Nodup
  sends : (db.sends.map Send.id).Nodup
  single : db.busy ≤ 1
  reserved : ∀ t ∈ db.tasks, t.state.busy = true → t.reconciled = false
  unsettled : ∀ s ∈ db.sends, s.state.busy = true → s.reconciled = false

end Db

/-! ## Changes -/

section
variable [JsonText]

/-- How a command may change a row of `sends`. -/
inductive SendMove (c : Command) (s : Send) : Send → Prop
  | same : SendMove c s s
  /-- An observation of the message itself. -/
  | observed {state : SendState} {result : Json} {updated : ℚ} : c = .observe s.id →
      s.state.observable = true → SendState.ofReply (item result "operation_state") = some state →
      SendMove c s { s with state, result := some result, updated }
  /-- A reconciliation with the hash of the result. -/
  | reconciled {result : Json} : c = .reconcile s.id (fingerprint result) →
      s.result = some result → s.state.busy = false →
      SendMove c s { s with reconciled := true }

/-- How a command may change a row of `tasks`. -/
inductive TaskMove (c : Command) (db : Db) (t : Task) : Task → Prop
  | same : TaskMove c db t t
  /-- A message to the task takes over its reservation. -/
  | instructed {q : Json} {allowWorkspace : Bool} : c = .send q allowWorkspace →
      item q "task_id" = .str t.id → t.state = .created →
      TaskMove c db t { t with reconciled := true }
  /-- An observation finds the thread of an uncertain creation. -/
  | found {updated : ℚ} : c = .observeCreation t.id → t.state = .createUnknown →
      TaskMove c db t { t with state := .created, updated }
  /-- A reconciliation with the hash of the observed absence. -/
  | lost {result : Json} {updated : ℚ} : c = .reconcileCreation t.id (fingerprint result) →
      db.creationResult t.id = some result →
      item result "state" = .str "missing_before_first_send" →
      t.state = .created ∨ t.state = .createUnknown →
      TaskMove c db t { t with state := .creationLostBeforeSend, reconciled := true, updated }
  /-- A reconciliation of a message that was never sent. -/
  | released {s : Send} {result : Json} : c = .reconcile s.id (fingerprint result) → s ∈ db.sends →
      s.result = some result → s.state = .notDispatched → s.task = t.id → t.state = .created →
      TaskMove c db t { t with reconciled := true }

/-- How a command may change the database. -/
structure Db.Changes (c : Command) (db db' : Db) : Prop where
  sends : ∀ s ∈ db.sends, ∃ s' ∈ db'.sends, SendMove c s s'
  tasks : ∀ t ∈ db.tasks, ∃ t' ∈ db'.tasks, TaskMove c db t t'
  /-- A new row is not reconciled. -/
  fresh : ∀ s' ∈ db'.sends, (∃ s ∈ db.sends, s.id = s'.id) ∨ s'.reconciled = false
  creations : ∀ op, db'.creationResult op = db.creationResult op ∨ c = .observeCreation op ∧
    ∃ t ∈ db.tasks, t.id = op ∧ (t.state = .created ∨ t.state = .createUnknown)

end

section
variable [JsonText] {c : Command} {db db' : Db}

/-! ## Rows -/

omit [JsonText] in
theorem Db.insertTask_ok {row : Task} : db.insertTask row = .ok db' ↔
    (∀ t ∈ db.tasks, t.id ≠ row.id ∧ t.taskKey ≠ row.taskKey) ∧
      { db with tasks := db.tasks ++ [row] } = db' := by
  simp only [Db.insertTask, bind_ok, need_eq_ok, exists_unit, pure_ok]

omit [JsonText] in
theorem Db.insertSend_ok {row : Send} : db.insertSend row = .ok db' ↔
    (∀ s ∈ db.sends, s.id ≠ row.id) ∧ { db with sends := db.sends ++ [row] } = db' := by
  simp only [Db.insertSend, bind_ok, need_eq_ok, exists_unit, pure_ok]

omit [JsonText] in
theorem Db.busy_eq_zero (ht : ∀ t ∈ db.tasks, t.state.busy = false)
    (hs : ∀ s ∈ db.sends, s.state.busy = false) : db.busy = 0 := by
  have h1 : db.tasks.countP (fun t => t.state.busy) = 0 :=
    List.countP_eq_zero.2 fun t h => by simp [ht t h]
  have h2 : db.sends.countP (fun s => s.state.busy) = 0 :=
    List.countP_eq_zero.2 fun s h => by simp [hs s h]
  rw [Db.busy, h1, h2]

omit [JsonText] in
theorem Db.Sound.insertTask (h : db.Sound) (hbusy : db.busy = 0) {row : Task}
    (hrow : row.reconciled = false) (hok : db.insertTask row = .ok db') : db'.Sound := by
  obtain ⟨hnew, rfl⟩ := Db.insertTask_ok.1 hok
  refine ⟨nodup_keys_append h.tasks fun t ht => (hnew t ht).1, h.sends, ?_, ?_, h.unsettled⟩
  · have hone : List.countP (fun t : Task => t.state.busy) [row] ≤ 1 := List.countP_le_length
    simp only [Db.busy, List.countP_append] at hbusy ⊢
    omega
  · intro t ht hb
    rcases List.mem_append.1 ht with ht | ht
    · exact h.reserved t ht hb
    · rw [List.mem_singleton.1 ht]; exact hrow

omit [JsonText] in
theorem Db.Sound.insertSend (h : db.Sound) (hbusy : db.busy = 0) {row : Send}
    (hrow : row.reconciled = false) (hok : db.insertSend row = .ok db') : db'.Sound := by
  obtain ⟨hnew, rfl⟩ := Db.insertSend_ok.1 hok
  refine ⟨h.tasks, nodup_keys_append h.sends hnew, ?_, h.reserved, ?_⟩
  · have hone : List.countP (fun s : Send => s.state.busy) [row] ≤ 1 := List.countP_le_length
    simp only [Db.busy, List.countP_append] at hbusy ⊢
    omega
  · intro s hs hb
    rcases List.mem_append.1 hs with hs | hs
    · exact h.unsettled s hs hb
    · rw [List.mem_singleton.1 hs]; exact hrow

omit [JsonText] in
/-- An update that makes no row busy and reconciles no busy row. -/
theorem Db.Sound.updateTask (h : db.Sound) {op : String} {change : Task → Task}
    (hid : ∀ t, (change t).id = t.id)
    (hbusy : ∀ t ∈ db.tasks, t.id = op → (change t).state.busy = true →
      t.state.busy = true ∧ (change t).reconciled = t.reconciled) : (db.updateTask op change).Sound where
  tasks := by
    rw [Db.updateTask, map_key_amend fun t _ _ => hid t]
    exact h.tasks
  sends := h.sends
  single := (Nat.add_le_add_right (countP_amend_le fun t ht hop hb => (hbusy t ht hop hb).1) _).trans
    h.single
  reserved := by
    intro t' ht' hb
    rcases mem_amend.1 ht' with ⟨ht, -⟩ | ⟨t, ht, hop, rfl⟩
    · exact h.reserved t' ht hb
    · obtain ⟨hb', hrec⟩ := hbusy t ht hop hb
      rw [hrec]; exact h.reserved t ht hb'
  unsettled := h.unsettled

omit [JsonText] in
theorem Db.Sound.updateSend (h : db.Sound) {op : String} {change : Send → Send}
    (hid : ∀ s, (change s).id = s.id)
    (hbusy : ∀ s ∈ db.sends, s.id = op → (change s).state.busy = true →
      s.state.busy = true ∧ (change s).reconciled = s.reconciled) : (db.updateSend op change).Sound where
  tasks := h.tasks
  sends := by
    rw [Db.updateSend, map_key_amend fun s _ _ => hid s]
    exact h.sends
  single := (Nat.add_le_add_left (countP_amend_le fun s hs hop hb => (hbusy s hs hop hb).1) _).trans
    h.single
  reserved := h.reserved
  unsettled := by
    intro s' hs' hb
    rcases mem_amend.1 hs' with ⟨hs, -⟩ | ⟨s, hs, hop, rfl⟩
    · exact h.unsettled s' hs hb
    · obtain ⟨hb', hrec⟩ := hbusy s hs hop hb
      rw [hrec]; exact h.unsettled s hs hb'

omit [JsonText] in
/-- Where no row disappears, the dispatched rows stay. -/
theorem Db.Has.mono {d : Dispatch} (h : db.Has d)
    (ht : ∀ t ∈ db.tasks, ∃ t' ∈ db'.tasks, t'.id = t.id)
    (hs : ∀ s ∈ db.sends, ∃ s' ∈ db'.sends, s'.id = s.id) : db'.Has d := by
  cases d with
  | create op =>
    obtain ⟨t, hmem, hid⟩ := h
    obtain ⟨t', hmem', hid'⟩ := ht t hmem
    exact ⟨t', hmem', hid'.trans hid⟩
  | send op =>
    obtain ⟨s, hmem, hid⟩ := h
    obtain ⟨s', hmem', hid'⟩ := hs s hmem
    exact ⟨s', hmem', hid'.trans hid⟩

omit [JsonText] in
theorem Db.Has.updateTask {d : Dispatch} (h : db.Has d) {op : String} {change : Task → Task}
    (hid : ∀ t, (change t).id = t.id) : (db.updateTask op change).Has d := by
  refine h.mono (fun t ht => ?_) fun s hs => ⟨s, hs, rfl⟩
  by_cases hop : t.id = op
  · exact ⟨_, mem_amend.2 (Or.inr ⟨t, ht, hop, rfl⟩), hid t⟩
  · exact ⟨t, mem_amend.2 (Or.inl ⟨ht, hop⟩), rfl⟩

omit [JsonText] in
theorem Db.Has.updateSend {d : Dispatch} (h : db.Has d) {op : String} {change : Send → Send}
    (hid : ∀ s, (change s).id = s.id) : (db.updateSend op change).Has d := by
  refine h.mono (fun t ht => ⟨t, ht, rfl⟩) fun s hs => ?_
  by_cases hop : s.id = op
  · exact ⟨_, mem_amend.2 (Or.inr ⟨s, hs, hop, rfl⟩), hid s⟩
  · exact ⟨s, mem_amend.2 (Or.inl ⟨hs, hop⟩), rfl⟩

theorem SendMove.id {s s' : Send} (h : SendMove c s s') : s'.id = s.id := by
  cases h <;> rfl

theorem TaskMove.id {t t' : Task} (h : TaskMove c db t t') : t'.id = t.id := by
  cases h <;> rfl

theorem Db.Changes.has (h : db.Changes c db') {d : Dispatch} (hd : db.Has d) : db'.Has d := by
  refine hd.mono (fun t ht => ?_) fun s hs => ?_
  · obtain ⟨t', ht', hm⟩ := h.tasks t ht
    exact ⟨t', ht', hm.id⟩
  · obtain ⟨s', hs', hm⟩ := h.sends s hs
    exact ⟨s', hs', hm.id⟩

/-- New rows only. -/
theorem Db.Changes.of_rows (ht : ∀ t ∈ db.tasks, t ∈ db'.tasks) (hs : ∀ s ∈ db.sends, s ∈ db'.sends)
    (hfresh : ∀ s ∈ db'.sends, s ∈ db.sends ∨ s.reconciled = false)
    (hc : db'.creationResults = db.creationResults) : db.Changes c db' where
  sends s h := ⟨s, hs s h, .same⟩
  tasks t h := ⟨t, ht t h, .same⟩
  fresh s h := (hfresh s h).imp (fun h => ⟨s, h, rfl⟩) id
  creations op := Or.inl (by simp only [Db.creationResult, hc])

theorem Db.Changes.refl : db.Changes c db :=
  .of_rows (fun _ h => h) (fun _ h => h) (fun _ h => Or.inl h) rfl

theorem Db.Changes.insertTask {row : Task} (hok : db.insertTask row = .ok db') :
    db.Changes c db' := by
  obtain ⟨-, rfl⟩ := Db.insertTask_ok.1 hok
  exact .of_rows (fun t ht => List.mem_append_left _ ht) (fun s hs => hs) (fun s hs => Or.inl hs) rfl

theorem Db.Changes.insertSend {row : Send} (hrow : row.reconciled = false)
    (hok : db.insertSend row = .ok db') : db.Changes c db' := by
  obtain ⟨-, rfl⟩ := Db.insertSend_ok.1 hok
  refine .of_rows (fun t ht => ht) (fun s hs => List.mem_append_left _ hs) (fun s hs => ?_) rfl
  rcases List.mem_append.1 hs with hs | hs
  · exact Or.inl hs
  · rw [List.mem_singleton.1 hs]; exact Or.inr hrow

omit [JsonText] in
/-- A change of a row adds no row. -/
theorem Db.fresh_updateSend {op : String} {change : Send → Send} (hid : ∀ s, (change s).id = s.id)
    {s' : Send} (h : s' ∈ (db.updateSend op change).sends) : ∃ s ∈ db.sends, s.id = s'.id := by
  rcases mem_amend.1 h with ⟨hs, -⟩ | ⟨s, hs, -, rfl⟩
  · exact ⟨s', hs, rfl⟩
  · exact ⟨s, hs, (hid s).symm⟩

omit [JsonText] in
/-- After the intent of a message everything it needs to be dispatched is there. -/
theorem Db.ready_send {row : Send} (hs : ∀ s ∈ db.sends, s.Settled)
    (ht : ∀ t ∈ db.tasks, t.Settled ∨ t.id = row.task ∧ t.state = .created)
    (hok : db.insertSend row = .ok db') (hrow : row.state = .sendIntent) :
    db'.Ready (.send row.id) := by
  obtain ⟨-, rfl⟩ := Db.insertSend_ok.1 hok
  refine ⟨row, List.mem_append_right _ (List.mem_singleton_self _), rfl, hrow, ?_, ht⟩
  intro s hmem hid
  rcases List.mem_append.1 hmem with hmem | hmem
  · exact hs s hmem
  · exact absurd (congrArg Send.id (List.mem_singleton.1 hmem)) hid

omit [JsonText] in
/-- The new row changes, and is busy before. -/
theorem Db.Sound.finishSend (h : db.Sound) (hbusy : db.busy = 0) {row : Send}
    (hok : db.insertSend row = .ok db') (hrow : row.state.busy = true) (hrec : row.reconciled = false)
    {change : Send → Send} (hid : ∀ s, (change s).id = s.id)
    (hkeep : ∀ s, (change s).reconciled = s.reconciled) : (db'.updateSend row.id change).Sound := by
  have hs := h.insertSend hbusy hrec hok
  obtain ⟨hnew, rfl⟩ := Db.insertSend_ok.1 hok
  refine hs.updateSend hid fun s hmem hop _ => ⟨?_, hkeep s⟩
  rcases List.mem_append.1 hmem with hmem | hmem
  · exact absurd hop (hnew s hmem)
  · rw [List.mem_singleton.1 hmem]; exact hrow

omit [JsonText] in
/-- The old rows are still there when the new row changes. -/
theorem Db.mem_finishSend {row : Send} (hok : db.insertSend row = .ok db') {change : Send → Send}
    {s : Send} (hs : s ∈ db.sends) : s ∈ (db'.updateSend row.id change).sends := by
  obtain ⟨hnew, rfl⟩ := Db.insertSend_ok.1 hok
  exact mem_amend.2 (Or.inl ⟨List.mem_append_left _ hs, hnew s hs⟩)

omit [JsonText] in
theorem Db.fresh_finishSend {row : Send} (hok : db.insertSend row = .ok db')
    (hrec : row.reconciled = false) {change : Send → Send}
    (hkeep : ∀ s, (change s).reconciled = s.reconciled) {s' : Send}
    (hs' : s' ∈ (db'.updateSend row.id change).sends) : s' ∈ db.sends ∨ s'.reconciled = false := by
  obtain ⟨hnew, rfl⟩ := Db.insertSend_ok.1 hok
  rcases mem_amend.1 hs' with ⟨h, hid⟩ | ⟨s, h, hid, rfl⟩
  · rcases List.mem_append.1 h with h | h
    · exact Or.inl h
    · exact absurd (congrArg Send.id (List.mem_singleton.1 h)) hid
  · rcases List.mem_append.1 h with h | h
    · exact absurd hid (hnew s h)
    · rw [hkeep, List.mem_singleton.1 h]; exact Or.inr hrec

omit [JsonText] in
theorem Db.tasks_insertSend {row : Send} (hok : db.insertSend row = .ok db') :
    db'.tasks = db.tasks ∧ db'.creationResults = db.creationResults := by
  obtain ⟨-, rfl⟩ := Db.insertSend_ok.1 hok
  exact ⟨rfl, rfl⟩

end

end SmartHome.TaskControl
