/-
  A command whose conditions hold is executed: with a disk that does not fail, `dispatch` records the
  intent and asks the backend for the effect, once.
-/
import SmartHome.Maintenance.Progress

namespace SmartHome.Maintenance

open Verif Program Mqtt

/-- The effects that a process asks for, without the directory. -/
def effects (x : Dir × Request) : Option (Command × Row) := (executed x).map Prod.snd

theorem effects_eq_none {x : Dir × Request} (h : executed x = none) : effects x = none := by rw [effects, h]; rfl

section
variable [Sha256] {α β : Type} {answer : ∀ q, Reply q} {d : Dir} {op : Operation} {id : Hex 32} {command : Command}
  {es : List (Command × Row)} {w : World Dir Request}

/-! ## Parts of the controller -/

theorem ends_operation {post : Option Operation → Dir → Prop} (hdisk : answer .disk = true) (hd : d.Sound)
    (hfound : Found d id op) (h : post (some op) d) : (operation id).Ends answer post d := by
  obtain ⟨hknown, hvalid, -, hbegin⟩ := hfound
  have hread : d.now.find id = .ok (some op) := (hd.now.find_eq id).trans (congrArg _ hknown)
  exact ends_reading hdisk hread (ends_require hvalid (ends_require hbegin (ends_pure h)))

omit [Sha256] in
theorem ends_clock {post : ℕ × Hex 64 → Dir → Prop} {now : ℕ} {domain : Hex 64} (hclock : answer .clock = some (now, domain))
    (hlt : now < 2 ^ 64) (hdomain : ∃ r ∈ op.records.head?, domain = r.body.clockDomain)
    (hlast : ∃ r ∈ op.records.getLast?, r.body.atNs ≤ now) (h : post (now, domain) d) :
    (clock (some op)).Ends answer post d := by
  refine ends_ask ?_
  rw [hclock]
  exact ends_require hlt (ends_require hdomain (ends_require hlast (ends_pure h)))

omit [Sha256] in
theorem ends_dispatchInvariants {post : Unit → Dir → Prop} (hallows : op.Allows command) (h : post () d) :
    (dispatchInvariants op command).Ends answer post d := by
  unfold dispatchInvariants
  cases command with
  | stopSource => exact ends_require hallows (ends_pure h)
  | stopConsumer => exact ends_require hallows.1 (ends_require hallows.2 (ends_pure h))
  | startConsumer => exact ends_require hallows.1 (ends_require hallows.2.1 (ends_require hallows.2.2 (ends_pure h)))
  | startSource =>
    refine ends_require hallows.1 (ends_require hallows.2.1 (ends_require hallows.2.2.1 ?_))
    rw [← bind_pure (require _ _)]
    exact ends_require hallows.2.2.2 (ends_pure h)

theorem issues_lead_effects {p : Prog α} {post : α → Dir → Prop} {k : α → Prog β} (hp : p.Leads executed Grows post w.state)
    (h : p.Ends answer (fun a s => ∀ w' : World Dir Request, w'.state = s → (k a).Issues answer effects es w') w.state) :
    (p >>= k).Issues answer effects es w := issues_lead (leads_of_log hp fun _ => effects_eq_none) h

theorem issues_no_effects {p : Prog α} (h : p.Leads executed Grows (fun _ _ => True) w.state) :
    p.Issues answer effects [] w := issues_nothing (leads_of_log h fun _ => effects_eq_none)

theorem issues_operation {k : Option Operation → Prog β} (hdisk : answer .disk = true) (hd : w.state.Sound)
    (hfound : Found w.state id op) (h : ∀ w' : World Dir Request, w'.state = w.state →
      (k (some op)).Issues answer effects es w') : (operation id >>= k).Issues answer effects es w :=
  issues_lead_effects ((reads_operation hd).leads Grows.refl) (ends_operation hdisk hd hfound h)

/-! ## Commands -/

/-- An operation that waits for a command has no record that comes after it. -/
theorem Operation.Valid.record_after (h : op.Valid) (hbegin : op.phaseList.head? = some .begin)
    (hlast : op.lastPhase = some command.before) : op.record command.after = none := by
  obtain ⟨hphases, hlen⟩ := h.place hbegin hlast
  refine List.find?_eq_none.2 fun r hr => ?_
  have hmem : r.body.phase ∈ phases.take command.place := by
    rw [← hlen, ← hphases]
    exact List.mem_map_of_mem hr
  have hafter : command.after ∉ phases.take command.place := by cases command <;> decide
  simpa using fun hphase : r.body.phase = command.after => hafter (hphase ▸ hmem)

/-- The operation after an entry is found. -/
theorem Recorded.found {e : Entry} {d' : Dir} (h : Recorded e op d d') (hcontinues : e.Continues op)
    (hbegin : op.phaseList.head? = some .begin) : Found d' e.operationId (e.longer op) := by
  refine ⟨(h.known _).trans (if_pos rfl), hcontinues.valid, hcontinues.operationId, ?_⟩
  rw [Operation.phaseList, Entry.longer, List.map_append, List.head?_append_of_ne_nil]
  · exact hbegin
  · rintro hnil
    rw [Operation.phaseList, hnil] at hbegin
    cases hbegin

theorem Entry.Continues.record {e : Entry} (h : e.Continues op) : (e.longer op).record e.phase = some (e.row op) := by
  have hfresh : op.records.find? (fun r => r.body.phase = e.phase) = none := h.fresh
  rw [Operation.record, Entry.longer, List.find?_append, hfresh, Option.none_or, List.find?_singleton]
  exact if_pos (by simp [Entry.row])

theorem ends_appendFacts {facts : Facts} {phase : Phase} {now : ℕ} {domain : Hex 64} {post : Receipt → Dir → Prop}
    (hdisk : answer .disk = true) (hd : d.Sound) (hknown : d.now.known id = some op) (hroom : d.now.Room id)
    (hcontinues : Entry.Continues ⟨id, phase, facts, now, domain, head op⟩ op)
    (hclock : answer .clock = some (now, domain)) (hdomain : ∃ r ∈ op.records.head?, domain = r.body.clockDomain)
    (hat : ∃ r ∈ op.records.getLast?, r.body.atNs ≤ now)
    (h : ∀ d', d'.Sound → Recorded ⟨id, phase, facts, now, domain, head op⟩ op d d' →
      post ⟨false, Entry.row ⟨id, phase, facts, now, domain, head op⟩ op⟩ d') :
    (appendFacts op.approval id phase facts (some op)).Ends answer post d := by
  have hlt : now < 2 ^ 64 := by
    obtain ⟨-, -, -, -, ⟨-, -, -, hnow, -, -⟩, -⟩ := hcontinues.rowValid
    exact hnow
  have hop : op = (d.now.known id).getD ⟨id, op.approval, []⟩ := by rw [hknown, Option.getD_some]
  exact ends_bind (ends_clock hclock hlt hdomain hat
    (ends_append hdisk hd hop hcontinues hroom fun d' hd' hrecorded _ => h d' hd' hrecorded))

theorem issues_dispatch {facts : Facts} {now : ℕ} {domain : Hex 64} (hd : w.state.Sound)
    (hdisk : answer .disk = true) (hfound : Found w.state id op) (hlast : op.lastPhase = some command.before)
    (hallows : op.Allows command) (hroom : w.state.now.Room id)
    (hcontinues : Entry.Continues ⟨id, command.intent, facts, now, domain, head op⟩ op)
    (hclock : answer .clock = some (now, domain)) (hdomain : ∃ r ∈ op.records.head?, domain = r.body.clockDomain)
    (hat : ∃ r ∈ op.records.getLast?, r.body.atNs ≤ now) (hauthorized : answer (.authorize (some op) true) = true)
    (hpreflight : answer (.preflight command op) = .value facts) :
    (dispatch op.approval id command (head op)).Issues answer effects
      [(command, Entry.row ⟨id, command.intent, facts, now, domain, head op⟩ op)] w := by
  have hbegin := hfound.2.2.2
  have hafter := hfound.2.1.record_after hbegin hlast
  have hfresh : op.record command.intent = none := hcontinues.fresh
  unfold dispatch
  refine issues_operation hdisk hd hfound fun w₁ hw₁ => ?_
  simp only [hafter, hfresh, Option.isSome_none, Option.isNone_none, Bool.false_eq_true, if_false, if_true]
  refine issues_require (Or.inl hlast) (issues_require List.mem_cons_self ?_)
  refine issues_lead_effects (reads_dispatchInvariants.leads Grows.refl) (ends_dispatchInvariants hallows fun w₂ hw₂ => ?_)
  refine issues_other rfl (issues_require (by rw [hfresh]; exact hauthorized) (issues_other rfl ?_))
  simp only [hpreflight]
  -- the intent is recorded, and then the operation is read again
  have hstate : w₂.state = w.state := hw₂.trans hw₁
  refine issues_lead_effects (leads_appendFacts (hstate ▸ hd) fun _ _ _ _ _ _ => trivial)
    (ends_appendFacts hdisk (hstate ▸ hd) (hstate ▸ hfound.1) (hstate ▸ hroom) hcontinues hclock hdomain hat
      fun d' hd' hrecorded w₃ hw₃ => ?_)
  subst hw₃
  refine issues_operation hdisk hd' (hrecorded.found hcontinues hbegin) fun w₄ hw₄ => ?_
  simp only [show (Entry.longer ⟨id, command.intent, facts, now, domain, head op⟩ op).record command.intent = _ from
    hcontinues.record]
  refine issues_ask rfl (issues_no_effects ?_)
  have hw₄' : w₄.state.Sound := hw₄ ▸ hd'
  cases answer (.execute command (Entry.row ⟨id, command.intent, facts, now, domain, head op⟩ op)) with
  | done => exact leads_observeEffect hw₄'
  | rejected => exact leads_pure trivial
  | raised => exact leads_pure trivial

/-- **A command whose conditions hold is executed, once.** -/
theorem dispatch_executes {facts : Facts} {now : ℕ} {domain : Hex 64} (h : maintenance.Reachable w)
    (hdisk : answer .disk = true) (hfound : Found w.state id op) (hlast : op.lastPhase = some command.before)
    (hallows : op.Allows command) (hroom : w.state.now.Room id)
    (hcontinues : Entry.Continues ⟨id, command.intent, facts, now, domain, head op⟩ op)
    (hclock : answer .clock = some (now, domain)) (hdomain : ∃ r ∈ op.records.head?, domain = r.body.clockDomain)
    (hat : ∃ r ∈ op.records.getLast?, r.body.atNs ≤ now) (hauthorized : answer (.authorize (some op) true) = true)
    (hpreflight : answer (.preflight command op) = .value facts) :
    (dispatch op.approval id command (head op)).Issues answer effects
      [(command, Entry.row ⟨id, command.intent, facts, now, domain, head op⟩ op)] w :=
  issues_dispatch (Once.sound (once.reachable h)) hdisk hfound hlast hallows hroom hcontinues hclock hdomain hat
    hauthorized hpreflight

end

/-! ## A run -/

def sampleId : Hex 32 := ⟨"00000000000000000000000000000000", by decide⟩

def sampleDigest : Hex 64 := @sha256 zeroHash []

def sampleHex : Json := .str sampleDigest.1

/-- The facts of a maintenance window. -/
def sampleBegin : Entry where
  operationId := sampleId
  phase := .begin
  facts := ⟨[("accepted_frames", .str "0"), ("code_manifest_sha256", sampleHex), ("consumer_binding_sha256", sampleHex),
    ("consumer_checkpoint_sequence", .str "0"), ("consumer_instance_sha256", sampleHex),
    ("purpose", .str "container_update"), ("reader_instance_sha256", sampleHex), ("source_binding_sha256", sampleHex),
    ("source_epoch", .str "0"), ("source_instance_sha256", sampleHex), ("unknown_epoch_tails", .str "0"),
    ("window_id_sha256", sampleHex)], by decide +kernel⟩
  atNs := 0
  clockDomain := sampleDigest
  expected := none

/-- The window is confirmed. -/
def sampleArmed : Entry where
  operationId := sampleId
  phase := .armed
  facts := ⟨[("consumer_checkpoint_sequence", .str "1"), ("consumer_checkpoint_sha256", sampleHex),
    ("window_id_sha256", sampleHex)], by decide +kernel⟩
  atNs := 0
  clockDomain := sampleDigest
  expected := some sampleDigest

/-- The source is to be stopped. -/
def sampleIntent : Entry where
  operationId := sampleId
  phase := .sourceStopIntent
  facts := ⟨[("binding_sha256", sampleHex), ("expected_state_sha256", sampleHex)], by decide +kernel⟩
  atNs := 0
  clockDomain := sampleDigest
  expected := some sampleDigest

/-- A disk that does not fail, a clock that stands still, and a backend that consents. -/
def sampleAnswer : ∀ q, Reply q
  | .disk => true
  | .clock => some (0, sampleDigest)
  | .authorize _ _ => true
  | .facts _ _ _ => .unavailable
  | .preflight _ _ => .value sampleIntent.facts
  | .execute _ _ => .done

/-- The operation before its first record. -/
def sampleNew : Operation := ⟨sampleId, sampleDigest, []⟩

/-- The operation that waits for its source to be stopped. -/
def sampleOperation : Operation := letI := zeroHash; sampleArmed.longer (sampleBegin.longer sampleNew)

theorem sampleBegin_valid : @Operation.Valid zeroHash (@Entry.longer zeroHash sampleBegin sampleNew) := by decide +kernel

theorem sampleArmed_valid : @Operation.Valid zeroHash sampleOperation := by decide +kernel

theorem sampleIntent_valid : @Operation.Valid zeroHash (@Entry.longer zeroHash sampleIntent sampleOperation) := by
  decide +kernel

theorem sample_continues : letI := zeroHash
    sampleBegin.Continues sampleNew ∧ sampleArmed.Continues (sampleBegin.longer sampleNew) ∧
      sampleIntent.Continues sampleOperation := by
  let := zeroHash
  exact ⟨⟨rfl, rfl, rfl, sampleBegin_valid⟩, ⟨rfl, rfl, rfl, sampleArmed_valid⟩, ⟨rfl, rfl, rfl, sampleIntent_valid⟩⟩

theorem sample_allows : sampleOperation.Allows .stopSource := show sampleOperation.WindowConfirmed by decide +kernel

/-- One entry more. -/
theorem append_step [Sha256] {answer : ∀ q, Reply q} {w : World Dir Request} {e : Entry} {op : Operation}
    (h : maintenance.Reachable w) (hdisk : answer .disk = true)
    (hop : op = (w.state.now.known e.operationId).getD ⟨e.operationId, op.approval, []⟩) (hcontinues : e.Continues op)
    (hroom : w.state.now.Room e.operationId) :
    ∃ w', Step w w' ∧ Recorded e op w.state w'.state ∧
      w'.state.now.snapshot.elim 0 Snapshot.revision ≤ w.state.now.snapshot.elim 0 Snapshot.revision + 2 ∧
      w'.calls.filterMap effects = w.calls.filterMap effects := by
  have hd : w.state.Sound := Once.sound (once.reachable h)
  have hends : (append op.approval e).Ends answer (fun _ d => Recorded e op w.state d ∧
      d.now.snapshot.elim 0 Snapshot.revision ≤ w.state.now.snapshot.elim 0 Snapshot.revision + 2) w.state :=
    ends_append hdisk hd hop hcontinues hroom fun _ _ h' hrev => ⟨h', hrev⟩
  obtain ⟨-, hrecorded, hrevision⟩ := hends.exec
  have hsilent : (append op.approval e).Issues answer effects [] w :=
    issues_no_effects (leads_append hd fun _ _ _ => trivial)
  rw [Issues, List.append_nil] at hsilent
  exact ⟨_, .append _ _ (run_exec answer _ _), hrecorded, hrevision, hsilent⟩

theorem sample_reachable : letI := zeroHash
    ∃ w w', maintenance.Reachable w ∧ w.state.now.known sampleId = some (sampleBegin.longer sampleNew) ∧ Step w w' ∧
      Found w'.state sampleId sampleOperation ∧ w'.state.now.Room sampleId ∧ w'.calls.filterMap effects = [] := by
  let := zeroHash
  have hstart : maintenance.Reachable ⟨noFiles, []⟩ := .start rfl
  have hroom : noFiles.now.Room sampleId := ⟨by decide, Or.inr (Or.inl (by decide))⟩
  obtain ⟨w₁, hstep₁, hrecorded₁, hrevision₁, hcalls₁⟩ :=
    @append_step _ sampleAnswer _ _ _ hstart rfl rfl sample_continues.1 hroom
  have hknown₁ : w₁.state.now.known sampleId = some (sampleBegin.longer sampleNew) := hrecorded₁.known sampleId
  have hle₁ : w₁.state.now.snapshot.elim 0 Snapshot.revision ≤ 2 := hrevision₁
  have hroom₁ : w₁.state.now.Room sampleId := ⟨by omega, Or.inl (by rw [hknown₁]; rfl)⟩
  have hop₁ : sampleBegin.longer sampleNew = (w₁.state.now.known sampleId).getD ⟨sampleId, sampleDigest, []⟩ := by
    rw [hknown₁, Option.getD_some]
  obtain ⟨w₂, hstep₂, hrecorded₂, hrevision₂, hcalls₂⟩ :=
    @append_step _ sampleAnswer _ _ _ (hstart.step hstep₁) rfl hop₁ sample_continues.2.1 hroom₁
  have hfound : Found w₂.state sampleId sampleOperation := hrecorded₂.found sample_continues.2.1 rfl
  have hroom₂ : w₂.state.now.Room sampleId := ⟨by omega, Or.inl (by rw [hfound.1]; rfl)⟩
  exact ⟨w₁, w₂, hstart.step hstep₁, hknown₁, hstep₂, hfound, hroom₂, hcalls₂.trans hcalls₁⟩

theorem dispatch_executes_stop : letI := zeroHash
    ∃ w, maintenance.Reachable w ∧ w.calls.filterMap effects = [] ∧
      (dispatch sampleDigest sampleId .stopSource (head sampleOperation)).Issues sampleAnswer effects
        [(.stopSource, sampleIntent.row sampleOperation)] w := by
  let := zeroHash
  obtain ⟨w, w', hw, -, hstep, hfound, hroom, hcalls⟩ := sample_reachable
  refine ⟨w', hw.step hstep, hcalls, ?_⟩
  exact dispatch_executes (hw.step hstep) rfl hfound rfl sample_allows hroom sample_continues.2.2 rfl
    ⟨_, rfl, rfl⟩ ⟨_, rfl, Nat.le_refl _⟩ rfl rfl

theorem commands_once_stop : letI := zeroHash
    ∃ w, maintenance.Reachable w ∧ (w.calls.filterMap executed).map (fun e => e.2.1) = [.stopSource] ∧
      ∀ e ∈ w.calls.filterMap executed, Dispatched e := by
  let := zeroHash
  obtain ⟨w, w', hw, -, hstep, hfound, hroom, hcalls⟩ := sample_reachable
  have hissues := @issues_dispatch _ sampleAnswer _ _ _ _ _ _ _ (Once.sound (once.reachable (hw.step hstep))) rfl hfound rfl
    sample_allows hroom sample_continues.2.2 rfl ⟨_, rfl, rfl⟩ ⟨_, rfl, Nat.le_refl _⟩ rfl rfl
  rw [Issues, hcalls, List.nil_append] at hissues
  have hreachable := (hw.step hstep).step (.dispatch _ _ _ _ (run_exec sampleAnswer (dispatch sampleDigest sampleId
    .stopSource (head sampleOperation)) w'))
  refine ⟨_, hreachable, ?_, (commands_once hreachable).1⟩
  have hcommands := congrArg (List.map Prod.fst) hissues
  unfold effects at hcommands
  rw [← List.map_filterMap, List.map_map] at hcommands
  exact hcommands

theorem operations_kept_armed : letI := zeroHash
    ∃ w w', maintenance.Reachable w ∧ w.state.now.known sampleId = some (sampleBegin.longer sampleNew) ∧
      w'.state.now.find sampleId = .ok (some sampleOperation) ∧ Relation.ReflTransGen Step w w' := by
  let := zeroHash
  obtain ⟨w, w', hw, hknown, hstep, hfound, -, -⟩ := sample_reachable
  have hrun : Relation.ReflTransGen Step w w' := .single hstep
  exact ⟨w, w', hw, hknown, ((operations_kept hw hrun).1 _ mem_all sampleId).trans (congrArg _ hfound.1), hrun⟩

end SmartHome.Maintenance
