/-
  What the guardian terminates, over all runs: trees whose root was selected in every evaluation of
  some time.  That the whole tree used little, as the guardian measures it, says so of each process
  only as long as none leaves the tree.
-/
import Mathlib.Data.List.Chain
import Mathlib.Tactic.Linarith
import Mathlib.Tactic.NormNum
import SmartHome.Lib.Machine
import SmartHome.MemoryGuardian.Trees

namespace SmartHome.MemoryGuardian

open Verif

/-! ## Runs -/

structure Call where
  snapshot : Snapshot
  dryRun : Bool
  terminate : Candidate → Option ℕ

/-- A call that came to a decision. -/
structure Evaluation where
  snapshot : Snapshot
  decision : Decision

def Evaluation.terminated (e : Evaluation) : Bool := decide (e.decision.status = .terminated)

/-- The state that is stored, and the evaluations so far, from the latest one. -/
structure Guarded where
  state : State
  log : List Evaluation

def Guarded.start : Guarded := ⟨.empty, []⟩

/-- A call; when it throws, nothing is stored. -/
def Guarded.call (config : Config) (g : Guarded) (c : Call) : Guarded :=
  match runGuardian config c.snapshot g.state c.dryRun c.terminate with
  | none => g
  | some r => ⟨r.state, ⟨c.snapshot, r.decision⟩ :: g.log⟩

/-- The runs over snapshots of increasing times. -/
def guardianMachine (config : Config) : Machine Guarded where
  start g := g = .start
  step g g' := ∃ c, (∀ e ∈ g.log, e.snapshot.nowMs < c.snapshot.nowMs) ∧ g' = g.call config c

/-! ## Idle orphans -/

/-- A host with a connection. -/
structure ConnectedHost (s : Snapshot) (p : Process) : Prop where
  mem : p ∈ s.processes
  own : p.uid = s.selfUid
  host : isVscodeExtensionHost p = true
  connected : p.connectionState = .connected

/-- The root of the tree that is selected, which nobody is connected to. -/
structure Orphan (config : Config) (key : ℕ × ℕ) (s : Snapshot) (root : Process) : Prop where
  mem : root ∈ s.processes
  key : candidateKey root = key
  selected : (selected config s).map Prod.fst = some root
  disconnected : root.connectionState = .disconnected
  old : config.minimumAgeSeconds ≤ root.ageSeconds
  older : ∀ newest, ConnectedHost s newest → (∀ p, ConnectedHost s p → p.startTicks ≤ newest.startTicks) →
    root.startTicks < newest.startTicks
  own : ∀ p, Descends s.processes root p → p.uid = s.selfUid
  inessential : ∀ p, Descends s.processes root p → essentialPattern p.cmdline = false

/-- Every process of the tree that lives in both snapshots used no more than the bound. -/
def IdleBetween (config : Config) (key : ℕ × ℕ) (s s' : Snapshot) : Prop :=
  ∀ root root', Orphan config key s root → Orphan config key s' root' →
    ∀ p ∈ s.processes, ∀ p' ∈ s'.processes, candidateKey p = candidateKey p' →
      Descends s.processes root p ∨ Descends s'.processes root' p' →
      (p'.cpuTicks : ℚ) - p.cpuTicks ≤ config.maximumIdleCpuTicksPerSecond * ((s'.nowMs - s.nowMs) / 1000)

/-- The latest of some snapshots are an unbroken run that selects a tree, from a time on. -/
inductive Watched (config : Config) (key : ℕ × ℕ) (quiet : Snapshot → Snapshot → Prop) : List Snapshot → ℚ → Prop
  | first {s : Snapshot} {root : Process} {earlier : List Snapshot} :
      Orphan config key s root → Watched config key quiet (s :: earlier) s.nowMs
  | next {s s' : Snapshot} {root : Process} {earlier : List Snapshot} {since : ℚ} :
      Watched config key quiet (s :: earlier) since → Orphan config key s' root → quiet s s' →
      Watched config key quiet (s' :: s :: earlier) since

/-- The tree that an evaluation terminated had been watched for long enough. -/
def Due (config : Config) (quiet : ℕ × ℕ → Snapshot → Snapshot → Prop) (e : Evaluation)
    (earlier : List Evaluation) : Prop :=
  ∃ root details since, e.decision.candidate = some (candidateOf root details) ∧
    (∀ p, p ∈ details.tree.map Member.process ↔ Descends e.snapshot.processes root p) ∧
    Watched config (candidateKey root) (quiet (candidateKey root)) ((e :: earlier).map Evaluation.snapshot) since ∧
    config.observationSeconds ≤ (e.snapshot.nowMs - since) / 1000

/-- Every tree that was terminated was due. -/
def TerminatesDue (config : Config) (quiet : ℕ × ℕ → Snapshot → Snapshot → Prop) (log : List Evaluation) : Prop :=
  ∀ e earlier, e :: earlier <:+ log → e.terminated = true → Due config quiet e earlier

/-- Two terminations are apart. -/
def CooledDown (config : Config) (log : List Evaluation) : Prop :=
  (log.filter Evaluation.terminated).Pairwise fun later e =>
    config.cooldownSeconds * 1000 ≤ later.snapshot.nowMs - e.snapshot.nowMs

/-- No process leaves the tree that stays selected, and no counter of its processes falls. -/
def Kept (config : Config) (s s' : Snapshot) : Prop :=
  ∀ c ∈ selected config s, ∀ c' ∈ selected config s', candidateKey c.1 = candidateKey c'.1 →
    Covered (fun m : Member => candidateKey m.process) (fun m => m.process.cpuTicks) c.2.tree c'.2.tree

/-! ## The selected candidate -/

section
variable {config : Config} {s s' : Snapshot} {p : Process} {d : Details}

theorem mem_hosts : p ∈ hosts s ↔ p ∈ s.processes ∧ p.uid = s.selfUid ∧ isVscodeExtensionHost p = true := by
  unfold hosts
  rw [List.mem_mergeSort, List.mem_filter, Bool.and_eq_true, decide_eq_true_eq]

theorem mem_connectedHosts : p ∈ connectedHosts s ↔ ConnectedHost s p := by
  unfold connectedHosts
  rw [List.mem_filter, mem_hosts, decide_eq_true_eq]
  constructor
  · rintro ⟨⟨hmem, hown, hhost⟩, hconnected⟩
    exact ⟨hmem, hown, hhost, hconnected⟩
  · rintro ⟨hmem, hown, hhost, hconnected⟩
    exact ⟨⟨hmem, hown, hhost⟩, hconnected⟩

theorem selected_cases (h : selected config s = some (p, d)) :
    p ∈ hosts s ∧ abandoned config s p = true ∧ d = safeTree config s p ∧ d.safe = true := by
  have hmem := List.mem_of_head? h
  unfold candidates at hmem
  rw [List.mem_mergeSort, List.mem_filter] at hmem
  obtain ⟨hmem, hsafe⟩ := hmem
  obtain ⟨q, hq, heq⟩ := List.mem_map.1 hmem
  obtain ⟨rfl, rfl⟩ := Prod.mk.inj heq
  exact ⟨(List.mem_filter.1 hq).1, (List.mem_filter.1 hq).2, rfl, hsafe⟩

/-- The processes of the selected tree. -/
theorem selected_tree (h : selected config s = some (p, d)) {q : Process} :
    q ∈ d.tree.map Member.process ↔ Descends s.processes p q := by
  obtain ⟨hhost, -, rfl, -⟩ := selected_cases h
  exact mem_processTree s.unique (mem_hosts.1 hhost).1

theorem selected_tree_nodup (h : selected config s = some (p, d)) :
    (d.tree.map fun m => candidateKey m.process).Nodup := by
  obtain ⟨-, -, rfl, -⟩ := selected_cases h
  have hpids : (((processTree p s.processes).map fun m => candidateKey m.process).map Prod.fst).Nodup := by
    rw [List.map_map]
    exact processTree_pids_nodup
  exact hpids.of_map _

theorem selected_cpuTicks (h : selected config s = some (p, d)) :
    d.cpuTicks = (d.tree.map fun m => m.process.cpuTicks).sum := by
  obtain ⟨-, -, rfl, -⟩ := selected_cases h
  rfl

/-- What is selected is an orphan. -/
theorem selected_orphan (h : selected config s = some (p, d)) : Orphan config (candidateKey p) s p := by
  obtain ⟨hhost, habandoned, hd, hsafe⟩ := selected_cases h
  unfold abandoned at habandoned
  rw [Bool.and_eq_true, Bool.and_eq_true, decide_eq_true_eq, decide_eq_true_eq] at habandoned
  obtain ⟨⟨hdisconnected, hold⟩, holder⟩ := habandoned
  have htree : ∀ q, Descends s.processes p q → q.uid = s.selfUid ∧ essentialPattern q.cmdline = false := by
    intro q hq
    obtain ⟨m, hm, rfl⟩ := List.mem_map.1 ((selected_tree h).2 hq)
    subst hd
    simp only [safeTree, Bool.and_eq_true, List.all_eq_true, decide_eq_true_eq, Bool.not_eq_true',
      List.any_eq_false] at hsafe hm
    exact ⟨hsafe.1.1 m hm, Bool.eq_false_iff.2 (hsafe.1.2 m hm)⟩
  refine ⟨(mem_hosts.1 hhost).1, rfl, ?_, hdisconnected, hold, ?_, fun q hq => (htree q hq).1,
    fun q hq => (htree q hq).2⟩
  · rw [h]; rfl
  · intro newest hnewest hmax
    cases hlast : newestConnected s with
    | none =>
      have hnil : connectedHosts s = [] := List.getLast?_eq_none_iff.1 hlast
      have hmem := mem_connectedHosts.2 hnewest
      rw [hnil] at hmem
      cases hmem
    | some last =>
      rw [hlast] at holder
      have hlt : p.startTicks < last.startTicks := of_decide_eq_true holder
      have hmem : last ∈ connectedHosts s := List.mem_of_getLast? hlast
      exact hlt.trans_le (hmax last (mem_connectedHosts.1 hmem))

end

/-! ## One evaluation -/

section
variable {config : Config} {s : Snapshot} {previous : State}

/-- What an evaluation keeps, and what it finds out about the selected candidate. -/
inductive Evaluated (config : Config) (s : Snapshot) (previous : State) : State → Decision → Prop
  | clear {checked : Option Checked} {decision : Decision} :
      decision.action = .none → decision.status ≠ .terminated →
      Evaluated config s previous ⟨checked, [], previous.lastActionAt⟩ decision
  | fresh {p : Process} {d : Details} {checked : Option Checked} {decision : Decision} :
      selected config s = some (p, d) → decision.action = .none → decision.status ≠ .terminated →
      Evaluated config s previous
        ⟨checked, [(candidateKey p, ⟨s.nowMs, s.nowMs, d.cpuTicks⟩)], previous.lastActionAt⟩ decision
  | again {p : Process} {d : Details} {prior : Observation} {checked : Option Checked} {decision : Decision} :
      selected config s = some (p, d) → previous.observations.lookup (candidateKey p) = some prior →
      idle config prior s.nowMs d.cpuTicks = true → decision.status ≠ .terminated →
      decision.candidate = some (candidateOf p d) →
      (decision.action = .terminate → config.observationSeconds ≤ (s.nowMs - prior.firstSeenAt) / 1000 ∧
        config.cooldownSeconds * 1000 ≤ s.nowMs - previous.lastActionAt) →
      Evaluated config s previous
        ⟨checked, [(candidateKey p, ⟨prior.firstSeenAt, s.nowMs, d.cpuTicks⟩)], previous.lastActionAt⟩ decision

theorem idleStatus_ne : idleStatus config s ≠ .terminated := by
  unfold idleStatus
  split_ifs <;> exact fun h => Status.noConfusion h

theorem evaluateSnapshot_evaluated (config : Config) (s : Snapshot) (previous : State) :
    Evaluated config s previous (evaluateSnapshot config s previous).1 (evaluateSnapshot config s previous).2 := by
  unfold evaluateSnapshot
  cases hselected : selected config s with
  | none => exact .clear rfl idleStatus_ne
  | some c =>
    obtain ⟨p, d⟩ := c
    simp only
    cases hprior : previous.observations.lookup (candidateKey p) with
    | none => exact .fresh hselected rfl fun h => Status.noConfusion h
    | some prior =>
      simp only
      cases hidle : idle config prior s.nowMs d.cpuTicks with
      | false => exact .fresh hselected rfl fun h => Status.noConfusion h
      | true =>
        simp only [Bool.not_true, Bool.false_eq_true, if_false]
        split_ifs with hshort hcool
        · exact .again hselected hprior hidle (fun h => Status.noConfusion h) rfl fun h => Action.noConfusion h
        · exact .again hselected hprior hidle (fun h => Status.noConfusion h) rfl fun h => Action.noConfusion h
        · exact .again hselected hprior hidle (fun h => Status.noConfusion h) rfl
            fun _ => ⟨not_lt.1 hshort, not_lt.1 hcool⟩

/-- Either the evaluation is all there is, or its candidate is terminated. -/
theorem runGuardian_cases {dryRun : Bool} {terminate : Candidate → Option ℕ} {r : Result}
    (h : runGuardian config s previous dryRun terminate = some r) :
    ∃ state decision, Evaluated config s previous state decision ∧
      ((r.decision.status ≠ .terminated ∧ r.state = state) ∨
        (decision.action = .terminate ∧ r.decision.candidate = decision.candidate ∧
          r.state.observations = [] ∧ r.state.lastActionAt = s.nowMs)) := by
  have hevaluated := evaluateSnapshot_evaluated config s previous
  unfold runGuardian at h
  generalize evaluateSnapshot config s previous = evaluated at h hevaluated
  obtain ⟨state, decision⟩ := evaluated
  refine ⟨state, decision, hevaluated, ?_⟩
  simp only at h
  split at h
  · split_ifs at h with hdry
    · cases h
      exact Or.inl ⟨fun h => Status.noConfusion h, rfl⟩
    · simp only [Option.bind_eq_bind, Option.bind_eq_some_iff] at h
      obtain ⟨terminated, -, h⟩ := h
      cases h
      exact Or.inr ⟨by assumption, rfl, rfl, rfl⟩
  · cases h
    refine Or.inl ⟨?_, rfl⟩
    cases hevaluated <;> assumption

end

/-! ## Runs -/

/-- The ticks of the selected trees, together, grew by no more than the bound. -/
def QuietTogether (config : Config) (s s' : Snapshot) : Prop :=
  ∀ c ∈ selected config s, ∀ c' ∈ selected config s',
    max 0 ((c'.2.cpuTicks : ℚ) - c.2.cpuTicks) ≤ config.maximumIdleCpuTicksPerSecond * ((s'.nowMs - s.nowMs) / 1000)

/-- What is observed of a tree was found out by the latest evaluations. -/
structure Observes (config : Config) (log : List Evaluation) (key : ℕ × ℕ) (o : Observation) : Prop where
  latest : ∃ e ∈ log.head?, ∃ c ∈ selected config e.snapshot, candidateKey c.1 = key ∧
    o.lastSeenAt = e.snapshot.nowMs ∧ o.cpuTicks = c.2.cpuTicks
  watched : Watched config key (QuietTogether config) (log.map Evaluation.snapshot) o.firstSeenAt

structure Sound (config : Config) (g : Guarded) : Prop where
  observed : ∀ k o, g.state.observations.lookup k = some o → Observes config g.log k o
  due : TerminatesDue config (fun _ => QuietTogether config) g.log
  acted : ∀ e ∈ g.log, e.terminated = true → e.snapshot.nowMs ≤ g.state.lastActionAt
  cooled : CooledDown config g.log

section
variable {config : Config} {g : Guarded} {c : Call}

theorem terminatesDue_cons {quiet : ℕ × ℕ → Snapshot → Snapshot → Prop} {e : Evaluation} {log : List Evaluation}
    (h : TerminatesDue config quiet log) (he : e.terminated = true → Due config quiet e log) :
    TerminatesDue config quiet (e :: log) := by
  intro e' earlier hsuffix ht
  rcases List.suffix_cons_iff.1 hsuffix with heq | hsuffix
  · cases heq
    exact he ht
  · exact h e' earlier hsuffix ht

theorem lookup_singleton {k k' : ℕ × ℕ} {o o' : Observation} (h : [(k, o)].lookup k' = some o') : k' = k ∧ o' = o := by
  rw [List.lookup_cons] at h
  split at h
  · exact ⟨eq_of_beq (by assumption), (Option.some.inj h).symm⟩
  · cases h

theorem not_terminated {e : Evaluation} (h : e.decision.status ≠ .terminated) : ¬ e.terminated = true :=
  fun ht => h (of_decide_eq_true ht)

/-- A candidate that is seen again has been watched since it was seen first. -/
theorem Observes.again {log : List Evaluation} {prior : Observation} {s : Snapshot} {p : Process} {d : Details}
    (h : Observes config log (candidateKey p) prior) (hselected : selected config s = some (p, d))
    (hidle : idle config prior s.nowMs d.cpuTicks = true) :
    Watched config (candidateKey p) (QuietTogether config) (s :: log.map Evaluation.snapshot) prior.firstSeenAt := by
  obtain ⟨e, he, c, hc, -, hseen, hticks⟩ := h.latest
  have hwatched := h.watched
  cases log with
  | nil => cases he
  | cons e' log =>
    obtain rfl : e' = e := Option.some.inj he
    refine .next hwatched (selected_orphan hselected) ?_
    intro c₁ hc₁ c₂ hc₂
    obtain rfl : c = c₁ := Option.some.inj (hc.symm.trans hc₁)
    obtain rfl : (p, d) = c₂ := Option.some.inj (hselected.symm.trans hc₂)
    rw [← hticks, ← hseen]
    exact (of_decide_eq_true hidle).2

/-- What an evaluation keeps is observed of it. -/
theorem Sound.observes (h : Sound config g) {s : Snapshot} {state : State} {decision : Decision}
    (hevaluated : Evaluated config s g.state state decision) (final : Decision) (k : ℕ × ℕ) (o : Observation)
    (hk : state.observations.lookup k = some o) : Observes config (⟨s, final⟩ :: g.log) k o := by
  cases hevaluated with
  | clear => cases hk
  | fresh hselected =>
    obtain ⟨rfl, rfl⟩ := lookup_singleton hk
    exact ⟨⟨_, rfl, _, hselected, rfl, rfl, rfl⟩, .first (selected_orphan hselected)⟩
  | again hselected hprior hidle =>
    obtain ⟨rfl, rfl⟩ := lookup_singleton hk
    exact ⟨⟨_, rfl, _, hselected, rfl, rfl, rfl⟩, (h.observed _ _ hprior).again hselected hidle⟩

/-- **A call keeps the guardian sound.** -/
theorem Sound.call (h : Sound config g) (htime : ∀ e ∈ g.log, e.snapshot.nowMs < c.snapshot.nowMs) :
    Sound config (g.call config c) := by
  unfold Guarded.call
  cases hr : runGuardian config c.snapshot g.state c.dryRun c.terminate with
  | none => exact h
  | some r =>
    obtain ⟨state, decision, hevaluated, hcase⟩ := runGuardian_cases hr
    rcases hcase with ⟨hstatus, hstate⟩ | ⟨haction, hcandidate, hobservations, hacted⟩
    · -- nothing is terminated, and the last action stays
      have hnot := not_terminated (e := ⟨c.snapshot, r.decision⟩) hstatus
      have hobserved := h.observes hevaluated r.decision
      rw [← hstate] at hobserved
      refine ⟨hobserved, terminatesDue_cons h.due fun ht => absurd ht hnot, ?_, ?_⟩
      · intro e he ht
        have hlast : r.state.lastActionAt = g.state.lastActionAt := by
          rw [hstate]
          cases hevaluated <;> rfl
        rcases List.mem_cons.1 he with rfl | he
        · exact absurd ht hnot
        · exact (h.acted e he ht).trans_eq hlast.symm
      · unfold CooledDown
        rw [List.filter_cons_of_neg hnot]
        exact h.cooled
    · cases hevaluated with
      | clear hnone => cases haction.symm.trans hnone
      | fresh _ hnone => cases haction.symm.trans hnone
      | @again p d prior _ _ hselected hprior hidle _ hdecision hbounds =>
        obtain ⟨hlong, hcool⟩ := hbounds haction
        refine ⟨?_, terminatesDue_cons h.due fun _ => ?_, ?_, ?_⟩
        · intro k o hk
          rw [hobservations] at hk
          cases hk
        · exact ⟨p, d, prior.firstSeenAt, hcandidate.trans hdecision, fun q => selected_tree hselected,
            (h.observed _ _ hprior).again hselected hidle, hlong⟩
        · intro e he _
          show e.snapshot.nowMs ≤ r.state.lastActionAt
          rw [hacted]
          rcases List.mem_cons.1 he with rfl | he
          · exact le_refl _
          · exact (htime e he).le
        · -- the other terminations were before the last action
          have hbefore : ∀ e ∈ g.log.filter Evaluation.terminated,
              config.cooldownSeconds * 1000 ≤ c.snapshot.nowMs - e.snapshot.nowMs := by
            intro e he
            obtain ⟨he, ht⟩ := List.mem_filter.1 he
            have hle := h.acted e he ht
            linarith
          unfold CooledDown
          rw [List.filter_cons]
          split_ifs
          · exact List.pairwise_cons.2 ⟨hbefore, h.cooled⟩
          · exact h.cooled

theorem sound_of_reachable (hg : (guardianMachine config).Reachable g) : Sound config g := by
  refine Machine.Invariant.reachable (p := Sound config) ⟨?_, ?_⟩ hg
  · rintro _ rfl
    refine ⟨fun k o hk => ?_, fun e earlier hsuffix => ?_, fun e he => ?_, List.Pairwise.nil⟩
    · cases hk
    · exact absurd (List.suffix_nil.1 hsuffix) (List.cons_ne_nil _ _)
    · cases he
  · rintro g _ - hsound ⟨c, htime, rfl⟩
    exact hsound.call htime

/-! ## Each process -/

/-- A key names one process. -/
theorem eq_of_candidateKey {s : Snapshot} {p q : Process} (hp : p ∈ s.processes) (hq : q ∈ s.processes)
    (h : candidateKey p = candidateKey q) : p = q :=
  List.inj_on_of_nodup_map s.unique hp hq (congrArg Prod.fst h)

/-- Of a tree that no process leaves, none used more than all of them together. -/
theorem Kept.cpuTicks_le {s s' : Snapshot} {root root' p p' : Process} {d d' : Details} (hkept : Kept config s s')
    (hd : selected config s = some (root, d)) (hd' : selected config s' = some (root', d'))
    (hroot : candidateKey root = candidateKey root') (hp : p ∈ s.processes) (hp' : p' ∈ s'.processes)
    (hkey : candidateKey p = candidateKey p')
    (htree : Descends s.processes root p ∨ Descends s'.processes root' p') :
    d.cpuTicks + p'.cpuTicks ≤ p.cpuTicks + d'.cpuTicks := by
  have hcover := hkept _ hd _ hd' hroot
  have hnodup := selected_tree_nodup hd
  have hmem : ∀ m ∈ d.tree, m.process ∈ s.processes := fun m hm =>
    ((selected_tree hd).1 (List.mem_map_of_mem hm)).mem (selected_orphan hd).mem
  have hmem' : ∀ m ∈ d'.tree, m.process ∈ s'.processes := fun m hm =>
    ((selected_tree hd').1 (List.mem_map_of_mem hm)).mem (selected_orphan hd').mem
  rw [selected_cpuTicks hd, selected_cpuTicks hd']
  by_cases hin : ∃ m ∈ d.tree, m.process = p
  · obtain ⟨m, hm, rfl⟩ := hin
    obtain ⟨m', hm', hk, -⟩ := hcover m hm
    obtain rfl : m'.process = p' := eq_of_candidateKey (hmem' m' hm') hp' (hk.trans hkey)
    exact hcover.sum_add_le hnodup hm hm' hk
  · -- the process joined the tree, so its ticks are all new to it
    have hjoined : Descends s'.processes root' p' :=
      htree.resolve_left fun h => hin (List.mem_map.1 ((selected_tree hd).2 h))
    obtain ⟨m', hm', rfl⟩ := List.mem_map.1 ((selected_tree hd').2 hjoined)
    have hnew : ∀ m ∈ d.tree, candidateKey m.process ≠ candidateKey m'.process := fun m hm hk =>
      hin ⟨m, hm, eq_of_candidateKey (hmem m hm) hp (hk.trans hkey.symm)⟩
    exact (hcover.sum_add_le_of_new hnodup hm' hnew).trans (Nat.le_add_left _ _)

theorem Kept.idleBetween {s s' : Snapshot} {key : ℕ × ℕ} (hkept : Kept config s s') (h : QuietTogether config s s') :
    IdleBetween config key s s' := by
  intro root root' horphan horphan' p hp p' hp' hkey htree
  obtain ⟨⟨r, d⟩, hd, rfl⟩ := Option.map_eq_some_iff.1 horphan.selected
  obtain ⟨⟨r', d'⟩, hd', rfl⟩ := Option.map_eq_some_iff.1 horphan'.selected
  have htogether := (le_max_right _ _).trans (h _ hd _ hd')
  have hle := hkept.cpuTicks_le hd hd' (horphan.key.trans horphan'.key.symm) hp hp' hkey htree
  have hcast : (d.cpuTicks : ℚ) + p'.cpuTicks ≤ p.cpuTicks + d'.cpuTicks := by exact_mod_cast hle
  linarith

/-- Watching with another eye, where the snapshots allow it. -/
theorem Watched.mono {key : ℕ × ℕ} {quiet quiet' ok : Snapshot → Snapshot → Prop} {snapshots : List Snapshot}
    {since : ℚ} (h : Watched config key quiet snapshots since)
    (hok : snapshots.IsChain fun later s => ok s later) (himp : ∀ s s', ok s s' → quiet s s' → quiet' s s') :
    Watched config key quiet' snapshots since := by
  induction h with
  | first horphan => exact .first horphan
  | next _ horphan hquiet ih =>
    rw [List.isChain_cons_cons] at hok
    exact .next (ih hok.2) horphan (himp _ _ hok.1 hquiet)

/-- The evaluations in whose trees no process is lost between one and the next. -/
def Undivided (config : Config) (log : List Evaluation) : Prop :=
  (log.map Evaluation.snapshot).IsChain fun later s => Kept config s later

/-- **Only idle orphans are terminated**, and not one after the other, as long as no process leaves a
    tree that is watched. -/
theorem terminates_idle_orphans (hg : (guardianMachine config).Reachable g) (hlog : Undivided config g.log) :
    TerminatesDue config (IdleBetween config) g.log ∧ CooledDown config g.log := by
  have hsound := sound_of_reachable hg
  refine ⟨fun e earlier hsuffix ht => ?_, hsound.cooled⟩
  obtain ⟨root, d, since, hcandidate, htree, hwatched, hlong⟩ := hsound.due e earlier hsuffix ht
  have hchain := hlog.suffix (hsuffix.map Evaluation.snapshot)
  exact ⟨root, d, since, hcandidate, htree, hwatched.mono hchain fun _ _ hkept hquiet => hkept.idleBetween hquiet,
    hlong⟩

theorem Guarded.call_some {r : Result}
    (h : runGuardian config c.snapshot g.state c.dryRun c.terminate = some r) :
    g.call config c = ⟨r.state, ⟨c.snapshot, r.decision⟩ :: g.log⟩ := by
  unfold Guarded.call
  rw [h]

end

/-! ## An indexer that stops -/

def sampleProcess (pid ppid startTicks cpuTicks : ℕ) (connectionState : ConnectionState) (cmdline : String) : Process :=
  ⟨pid, ppid, 1001, startTicks, cpuTicks, 300000, 7200, connectionState, cmdline⟩

def sampleHost : Process :=
  sampleProcess 100 1 10000 100 .disconnected
    "/home/user/.vscode-server/server/node bootstrap-fork --type=extensionHost --transformURIs"

def sampleServer (cpuTicks : ℕ) : Process := sampleProcess 102 100 10200 cpuTicks .unknown "language-server"

def sampleIndexer : Process := sampleProcess 101 100 10100 1000 .unknown "indexer"

def sampleBefore : Snapshot where
  totalKiB := 8388608
  availableKiB := 1048576
  nowMs := 2000000
  selfUid := 1001
  processes := [sampleHost, sampleIndexer, sampleServer 0]
  unique := by decide

/-- The tree is as it was, a minute later. -/
def sampleLater : Snapshot := { sampleBefore with nowMs := 2060000 }

/-- A minute later the indexer is gone, and the language server has worked. -/
def sampleAfter : Snapshot where
  totalKiB := 8388608
  availableKiB := 1048576
  nowMs := 2060000
  selfUid := 1001
  processes := [sampleHost, sampleServer 1000]
  unique := by decide

def sampleCall (s : Snapshot) : Call := ⟨s, false, fun c => some c.tree.length⟩

def sampleObserved : Result where
  decision := ⟨.candidateObserved, .none,
    some ⟨100, 10000, 900000, [⟨100, 10000, 1001, 0, false⟩, ⟨101, 10100, 1001, 1, false⟩, ⟨102, 10200, 1001, 1, false⟩]⟩⟩
  state := ⟨some ⟨2000000, 1048576, 25 / 2⟩, [((100, 10000), ⟨2000000, 2000000, 1100⟩)], 0⟩
  terminated := 0

/-- The candidate of the first evaluation, terminated. -/
def sampleTerminated : Result where
  decision := { sampleObserved.decision with status := .terminated, action := .terminate }
  state := ⟨some ⟨2060000, 1048576, 25 / 2⟩, [], 2060000⟩
  terminated := 3

/-- The two processes that are left, terminated. -/
def sampleKilled : Result where
  decision := ⟨.terminated, .terminate,
    some ⟨100, 10000, 600000, [⟨100, 10000, 1001, 0, false⟩, ⟨102, 10200, 1001, 1, false⟩]⟩⟩
  state := ⟨some ⟨2060000, 1048576, 25 / 2⟩, [], 2060000⟩
  terminated := 2

theorem sampleCalls_run :
    runGuardian defaultConfig sampleBefore Guarded.start.state false (sampleCall sampleBefore).terminate =
        some sampleObserved ∧
      runGuardian defaultConfig sampleLater sampleObserved.state false (sampleCall sampleLater).terminate =
        some sampleTerminated ∧
      runGuardian defaultConfig sampleAfter sampleObserved.state false (sampleCall sampleAfter).terminate =
        some sampleKilled ∧
      selected defaultConfig sampleLater = selected defaultConfig sampleBefore ∧
      (selected defaultConfig sampleBefore).map Prod.fst = some sampleHost := by
  decide +kernel

theorem call_sampleBefore : Guarded.start.call defaultConfig (sampleCall sampleBefore) =
    ⟨sampleObserved.state, [⟨sampleBefore, sampleObserved.decision⟩]⟩ :=
  Guarded.call_some sampleCalls_run.1

/-- A second call, a minute later. -/
theorem reachable_second {s : Snapshot} {r : Result} (htime : s.nowMs = 2060000)
    (h : runGuardian defaultConfig s sampleObserved.state false (sampleCall s).terminate = some r) :
    (guardianMachine defaultConfig).Reachable
      ⟨r.state, [⟨s, r.decision⟩, ⟨sampleBefore, sampleObserved.decision⟩]⟩ := by
  have hfirst : (guardianMachine defaultConfig).Reachable
      ⟨sampleObserved.state, [⟨sampleBefore, sampleObserved.decision⟩]⟩ :=
    .step (.start rfl) ⟨sampleCall sampleBefore, fun e he => (by cases he), call_sampleBefore.symm⟩
  have hcall : Guarded.call defaultConfig ⟨sampleObserved.state, [⟨sampleBefore, sampleObserved.decision⟩]⟩
      (sampleCall s) = ⟨r.state, [⟨s, r.decision⟩, ⟨sampleBefore, sampleObserved.decision⟩]⟩ :=
    Guarded.call_some h
  refine .step hfirst ⟨sampleCall s, fun e he => ?_, hcall.symm⟩
  rw [List.mem_singleton.1 he]
  show (2000000 : ℚ) < s.nowMs
  rw [htime]
  norm_num

theorem terminates_idle_orphans_sample :
    TerminatesDue defaultConfig (IdleBetween defaultConfig)
        [⟨sampleLater, sampleTerminated.decision⟩, ⟨sampleBefore, sampleObserved.decision⟩] ∧
      CooledDown defaultConfig
        [⟨sampleLater, sampleTerminated.decision⟩, ⟨sampleBefore, sampleObserved.decision⟩] := by
  obtain ⟨-, hterminated, -, hsame, -⟩ := sampleCalls_run
  have hkept : Kept defaultConfig sampleBefore sampleLater := by
    intro c hc c' hc' _ m hm
    rw [hsame] at hc'
    obtain rfl : c = c' := Option.some.inj (hc.symm.trans hc')
    exact ⟨m, hm, rfl, le_refl _⟩
  refine terminates_idle_orphans (reachable_second rfl hterminated) ?_
  exact List.isChain_cons_cons.2 ⟨hkept, List.isChain_singleton _⟩

/-- The ticks of the indexer are gone with it, and hide those of the language server. -/
theorem terminates_busy_server : ∃ g, (guardianMachine defaultConfig).Reachable g ∧
    ¬ (TerminatesDue defaultConfig (IdleBetween defaultConfig) g.log ∧ CooledDown defaultConfig g.log) := by
  obtain ⟨-, -, hkilled, -, hroot⟩ := sampleCalls_run
  refine ⟨_, reachable_second rfl hkilled, ?_⟩
  rintro ⟨hdue, -⟩
  obtain ⟨root, -, since, -, -, hwatched, hlong⟩ := hdue _ _ (List.suffix_refl _) rfl
  cases hwatched with
  | first => norm_num [defaultConfig] at hlong
  | next hbefore hafter hidle =>
    -- the host is the root that was selected before
    obtain ⟨root', horphan⟩ : ∃ root', Orphan defaultConfig (candidateKey root) sampleBefore root' := by
      cases hbefore with
      | first h => exact ⟨_, h⟩
    obtain rfl : root' = sampleHost := Option.some.inj (horphan.selected.symm.trans hroot)
    have hserver : Descends sampleBefore.processes sampleHost (sampleServer 0) :=
      .child .root (by simp [sampleBefore]) rfl
    have hticks := hidle _ _ horphan hafter (sampleServer 0) (by simp [sampleBefore]) (sampleServer 1000)
      (by simp [sampleAfter]) rfl (Or.inl hserver)
    norm_num [sampleServer, sampleProcess, sampleBefore, sampleAfter, defaultConfig] at hticks

end SmartHome.MemoryGuardian
