/-
  The tree of a process is what descends from it, each process once.
-/
import SmartHome.Lib.Table
import SmartHome.MemoryGuardian.Evaluation

namespace SmartHome.MemoryGuardian

/-- A process and those that it or its descendants started. -/
inductive Descends (processes : List Process) (root : Process) : Process → Prop
  | root : Descends processes root root
  | child {parent p : Process} : Descends processes root parent → p ∈ processes → p.ppid = parent.pid →
      Descends processes root p

variable {processes : List Process}

def pids (members : List Member) : List ℕ := members.map fun m => m.process.pid

/-- What is in the queue of `processTree`, and every child of what is. -/
theorem processTreeFrom_all {q : Process → Prop}
    (hchild : ∀ parent p, q parent → p ∈ processes → p.ppid = parent.pid → q p) :
    ∀ rounds queue seen, (∀ m ∈ queue, q m.process) →
      ∀ m ∈ processTreeFrom processes rounds queue seen, q m.process := by
  intro rounds
  induction rounds with
  | zero => intro queue seen _ m hm; cases hm
  | succ rounds ih =>
    intro queue seen hqueue m hm
    cases queue with
    | nil => cases hm
    | cons current queue =>
      have hcurrent : q current.process := hqueue _ List.mem_cons_self
      have hrest : ∀ m ∈ queue, q m.process := fun m hm => hqueue m (List.mem_cons_of_mem _ hm)
      simp only [processTreeFrom] at hm
      split_ifs at hm with hseen
      · exact ih queue seen hrest m hm
      · rcases List.mem_cons.1 hm with rfl | hm
        · exact hcurrent
        · refine ih _ _ (fun m' hm' => ?_) m hm
          rcases List.mem_append.1 hm' with hm' | hm'
          · exact hrest m' hm'
          · obtain ⟨p, hp, rfl⟩ := List.mem_map.1 hm'
            obtain ⟨hp, hparent⟩ := List.mem_filter.1 hp
            exact hchild _ p hcurrent hp (of_decide_eq_true hparent)

/-- No process is taken twice. -/
theorem processTreeFrom_nodup : ∀ rounds queue seen,
    (pids (processTreeFrom processes rounds queue seen)).Nodup ∧
      ∀ pid ∈ pids (processTreeFrom processes rounds queue seen), pid ∉ seen := by
  intro rounds
  induction rounds with
  | zero => intro queue seen; exact ⟨List.nodup_nil, fun _ h => by cases h⟩
  | succ rounds ih =>
    intro queue seen
    cases queue with
    | nil => exact ⟨List.nodup_nil, fun _ h => by cases h⟩
    | cons current queue =>
      simp only [processTreeFrom]
      split_ifs with hseen
      · exact ih queue seen
      · obtain ⟨hn, hnew⟩ := ih (queue ++ (processes.filter fun p => p.ppid = current.process.pid).map
          fun p => ⟨p, current.depth + 1⟩) (current.process.pid :: seen)
        refine ⟨List.nodup_cons.2 ⟨fun h => hnew _ h List.mem_cons_self, hn⟩, ?_⟩
        intro pid hpid
        rcases List.mem_cons.1 hpid with rfl | hpid
        · exact hseen
        · exact fun h => hnew pid hpid (List.mem_cons_of_mem _ h)

/-- The processes that may still enter the queue are the children of what was not seen. -/
theorem countP_seen (processes : List Process) {pid : ℕ} {seen : List ℕ} (h : pid ∉ seen) :
    (processes.filter fun p => p.ppid = pid).length + processes.countP (fun p => p.ppid ∉ pid :: seen) =
      processes.countP fun p => p.ppid ∉ seen := by
  induction processes with
  | nil => rfl
  | cons p processes ih =>
    by_cases hp : p.ppid = pid
    · simp [hp, h] at ih ⊢
      omega
    · by_cases hseen : p.ppid ∈ seen
      · simpa [hp, hseen] using ih
      · simp [hp, hseen] at ih ⊢
        omega

/-- Enough rounds leave nothing out. -/
theorem processTreeFrom_complete : ∀ rounds queue seen,
    queue.length + processes.countP (fun p => p.ppid ∉ seen) ≤ rounds →
    (∀ m ∈ queue, m.process.pid ∈ seen ∨ m.process.pid ∈ pids (processTreeFrom processes rounds queue seen)) ∧
      ∀ m ∈ processTreeFrom processes rounds queue seen, ∀ p ∈ processes, p.ppid = m.process.pid →
        p.pid ∈ seen ∨ p.pid ∈ pids (processTreeFrom processes rounds queue seen) := by
  intro rounds
  induction rounds with
  | zero =>
    intro queue seen hrounds
    have hnil : queue = [] := List.length_eq_zero_iff.1 (by omega)
    subst hnil
    exact ⟨fun m hm => (by cases hm), fun m hm => (by cases hm)⟩
  | succ rounds ih =>
    intro queue seen hrounds
    cases queue with
    | nil => exact ⟨fun m hm => (by cases hm), fun m hm => (by cases hm)⟩
    | cons current queue =>
      simp only [processTreeFrom]
      split_ifs with hseen
      · obtain ⟨hqueue, hchild⟩ := ih queue seen (by rw [List.length_cons] at hrounds; omega)
        refine ⟨fun m hm => ?_, hchild⟩
        rcases List.mem_cons.1 hm with rfl | hm
        · exact Or.inl hseen
        · exact hqueue m hm
      · have hcount := countP_seen processes hseen
        obtain ⟨hqueue, hchild⟩ := ih (queue ++ (processes.filter fun p => p.ppid = current.process.pid).map
          fun p => ⟨p, current.depth + 1⟩) (current.process.pid :: seen) (by
            rw [List.length_cons] at hrounds
            rw [List.length_append, List.length_map]
            omega)
        -- what was seen now is what was seen before or the process that is taken
        have hseen' : ∀ {pid : ℕ} {out : List Member},
            pid ∈ current.process.pid :: seen ∨ pid ∈ pids out → pid ∈ seen ∨ pid ∈ pids (current :: out) := by
          intro pid out h
          rcases h with h | h
          · rcases List.mem_cons.1 h with rfl | h
            · exact Or.inr List.mem_cons_self
            · exact Or.inl h
          · exact Or.inr (List.mem_cons_of_mem _ h)
        constructor
        · intro m hm
          rcases List.mem_cons.1 hm with rfl | hm
          · exact Or.inr List.mem_cons_self
          · exact hseen' (hqueue m (List.mem_append_left _ hm))
        · intro m hm p hp hparent
          rcases List.mem_cons.1 hm with rfl | hm
          · refine hseen' (hqueue ⟨p, m.depth + 1⟩ (List.mem_append_right _ ?_))
            exact List.mem_map_of_mem (List.mem_filter.2 ⟨hp, decide_eq_true hparent⟩)
          · exact hseen' (hchild m hm p hp hparent)

/-! ## The tree -/

section
variable {root : Process}

theorem processTree_pids_nodup : (pids (processTree root processes)).Nodup :=
  (processTreeFrom_nodup _ _ _).1

theorem processTree_descends {m : Member} (hm : m ∈ processTree root processes) :
    Descends processes root m.process := by
  refine processTreeFrom_all (fun parent p hparent hp hppid => .child hparent hp hppid) _ _ _ ?_ m hm
  intro m hm
  rw [List.mem_singleton.1 hm]
  exact .root

theorem Descends.mem (hroot : root ∈ processes) {p : Process} (h : Descends processes root p) : p ∈ processes := by
  cases h with
  | root => exact hroot
  | child _ hp _ => exact hp

/-- **The tree of a process is what descends from it.** -/
theorem mem_processTree (hunique : (processes.map Process.pid).Nodup) (hroot : root ∈ processes) {p : Process} :
    p ∈ (processTree root processes).map Member.process ↔ Descends processes root p := by
  have hrounds : [(⟨root, 0⟩ : Member)].length + processes.countP (fun p => p.ppid ∉ []) ≤ processes.length + 1 := by
    have h := List.countP_le_length (p := fun p : Process => decide (p.ppid ∉ [])) (l := processes)
    rw [List.length_singleton]
    omega
  obtain ⟨hqueue, hchild⟩ := processTreeFrom_complete _ _ _ hrounds
  -- a process of the snapshot whose number is in the tree is in the tree
  have hmem : ∀ {p}, p ∈ processes → p.pid ∈ pids (processTree root processes) →
      p ∈ (processTree root processes).map Member.process := by
    intro p hp hpid
    obtain ⟨m, hm, hmp⟩ := List.mem_map.1 hpid
    have heq : m.process = p :=
      List.inj_on_of_nodup_map hunique ((processTree_descends hm).mem hroot) hp hmp
    exact heq ▸ List.mem_map_of_mem hm
  constructor
  · intro hp
    obtain ⟨m, hm, rfl⟩ := List.mem_map.1 hp
    exact processTree_descends hm
  · intro h
    induction h with
    | root =>
      rcases hqueue ⟨root, 0⟩ List.mem_cons_self with h | h
      · cases h
      · exact hmem hroot h
    | child _ hp hppid ih =>
      obtain ⟨m, hm, rfl⟩ := List.mem_map.1 ih
      rcases hchild m hm _ hp hppid with h | h
      · cases h
      · exact hmem hp h

end

end SmartHome.MemoryGuardian
