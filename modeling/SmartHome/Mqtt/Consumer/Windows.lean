/-
  The windows that the durable checkpoints tell of: a window with a verdict is final, a window that
  goes on only grows, and a window that is replaced enters the history once.
-/
import SmartHome.Mqtt.Consumer.StoreSafety
import SmartHome.Mqtt.Consumer.CheckpointText

namespace SmartHome.Mqtt.Consumer

open Verif

/-! ## Windows -/

/-- The window has a verdict. -/
def Window.Final (w : Window) : Prop := w.phase = .passed ∨ w.phase = .failed ∨ w.phase = .unknown

theorem Window.Continues.refl (w : Window) : w.Continues w :=
  ⟨fun _ => rfl, rfl, rfl, rfl, rfl, ⟨rfl, rfl⟩, le_rfl, le_rfl, fun _ => le_rfl, fun _ => le_rfl,
    fun _ old hold => ⟨old, hold, le_rfl⟩, fun _ => rfl⟩

theorem Window.Continues.trans {a b c : Window} (h : a.Continues b) (h' : b.Continues c) : a.Continues c := by
  obtain ⟨hfinal, hclock, hstart, hfirst, hbase, hpolicy, hobserved, hlast, hcounts, hviolations, hmax, hcut⟩ := h
  obtain ⟨hfinal', hclock', hstart', hfirst', hbase', hpolicy', hobserved', hlast', hcounts', hviolations',
    hmax', hcut'⟩ := h'
  refine ⟨fun hc => ?_, hclock.trans hclock', hstart.trans hstart', hfirst.trans hfirst', hbase.trans hbase',
    ⟨hpolicy.1.trans hpolicy'.1, hpolicy.2.trans hpolicy'.2⟩, hobserved'.trans hobserved, hlast'.trans hlast,
    fun x => (hcounts' x).trans (hcounts x), fun v => (hviolations' v).trans (hviolations v),
    fun k old hold => ?_, fun hc => ?_⟩
  · have hbc := hfinal' hc
    rw [hfinal (hbc ▸ hc), hbc]
  · obtain ⟨middle, hmiddle, hle⟩ := hmax' k old hold
    obtain ⟨now, hnow, hle'⟩ := hmax k middle hmiddle
    exact ⟨now, hnow, hle.trans hle'⟩
  · have hbc := hcut' hc
    rw [hcut (hbc ▸ hc), hbc]

/-! ## Chains of checkpoints -/

/-- The windows that other windows replaced, in order. -/
def replaced : List Checkpoint → List Window
  | p :: c :: rest =>
    if c.window.idSha256 ≠ p.window.idSha256 then p.window :: replaced (c :: rest) else replaced (c :: rest)
  | _ => []

theorem replaced_concat (cs : List Checkpoint) (p c : Checkpoint) : replaced (cs ++ [p] ++ [c]) =
    replaced (cs ++ [p]) ++ if c.window.idSha256 ≠ p.window.idSha256 then [p.window] else [] := by
  induction cs with
  | nil =>
    simp only [List.nil_append, List.cons_append, replaced]
  | cons x cs ih =>
    cases cs with
    | nil =>
      simp only [List.nil_append, List.cons_append, replaced] at ih ⊢
      split_ifs <;> simp
    | cons y cs =>
      simp only [List.cons_append, replaced] at ih ⊢
      rw [ih]
      split_ifs <;> rfl

section
variable [Sha256]

/-- A checkpoint at the end of a hash chain that starts with the first one. -/
inductive Linked : List Checkpoint → Checkpoint → Prop
  | first {c : Checkpoint} : c.Valid → c.sequence = 1 → c.previousSha256 = none → c.history = [] → Linked [] c
  | next {before : List Checkpoint} {p c : Checkpoint} : Linked before p → c.Valid → c.Follows p →
      Linked (before ++ [p]) c

/-- What a checkpoint says of the windows of the ones before it. -/
structure Recorded (before : List Checkpoint) (last : Checkpoint) : Prop where
  /-- The history has the windows that were replaced, in order. -/
  history : last.history = replaced (before ++ [last])
  distinct : (last.history.map Window.idSha256 ++ [last.window.idSha256]).Nodup
  /-- A window that goes on only grows. -/
  grows : ∀ c ∈ before, c.window.idSha256 = last.window.idSha256 → last.window.Continues c.window
  /-- A window that was replaced is in the history as it was in the end. -/
  kept : ∀ c ∈ before, c.window.idSha256 ≠ last.window.idSha256 →
    ∃ w ∈ last.history, w.idSha256 = c.window.idSha256 ∧ w.Continues c.window

omit [Sha256] in
theorem Recorded.final {before : List Checkpoint} {last c : Checkpoint} (h : Recorded before last)
    (hc : c ∈ before) (hfinal : c.window.Final) :
    (c.window.idSha256 = last.window.idSha256 → last.window = c.window) ∧
      (c.window.idSha256 ≠ last.window.idSha256 → c.window ∈ last.history) := by
  refine ⟨fun hid => (h.grows c hc hid).1 hfinal, fun hid => ?_⟩
  obtain ⟨w, hw, -, hcontinues⟩ := h.kept c hc hid
  rw [← hcontinues.1 hfinal]
  exact hw

omit [Sha256] in
/-- Windows have ids of their own. -/
theorem id_ne_of_mem {c : Checkpoint} (h : (c.history.map Window.idSha256 ++ [c.window.idSha256]).Nodup)
    {w : Window} (hw : w ∈ c.history) : w.idSha256 ≠ c.window.idSha256 :=
  (List.nodup_append.1 h).2.2 _ (List.mem_map_of_mem hw) _ (List.mem_singleton_self _)

omit [Sha256] in
/-- The window of a checkpoint replaces the one before. -/
theorem Recorded.replace {before : List Checkpoint} {p c : Checkpoint} (h : Recorded before p)
    (hdistinct : (c.history.map Window.idSha256 ++ [c.window.idSha256]).Nodup)
    (hid : c.window.idSha256 ≠ p.window.idSha256) (hhistory : c.history = p.history ++ [p.window]) :
    Recorded (before ++ [p]) c := by
  have hmem : p.window ∈ c.history := hhistory ▸ List.mem_append_right _ (List.mem_singleton_self _)
  have hold : ∀ w ∈ p.history, w ∈ c.history := fun w hw => hhistory ▸ List.mem_append_left _ hw
  refine ⟨?_, hdistinct, fun x hx hsame => ?_, fun x hx hother => ?_⟩
  · rw [replaced_concat, if_pos hid, ← h.history, hhistory]
  · -- an id that was used before is in the history
    exfalso
    rcases List.mem_append.1 hx with hx | hx
    · by_cases hp : x.window.idSha256 = p.window.idSha256
      · exact hid (hsame.symm.trans hp)
      · obtain ⟨w, hw, hwid, -⟩ := h.kept x hx hp
        exact id_ne_of_mem hdistinct (hold w hw) (hwid.trans hsame)
    · rw [List.mem_singleton.1 hx] at hsame
      exact hid hsame.symm
  · rcases List.mem_append.1 hx with hx | hx
    · by_cases hp : x.window.idSha256 = p.window.idSha256
      · exact ⟨p.window, hmem, hp.symm, h.grows x hx hp⟩
      · obtain ⟨w, hw, hwid, hcontinues⟩ := h.kept x hx hp
        exact ⟨w, hold w hw, hwid, hcontinues⟩
    · rw [List.mem_singleton.1 hx]
      exact ⟨p.window, hmem, rfl, Window.Continues.refl _⟩

omit [Sha256] in
/-- The window of a checkpoint goes on. -/
theorem Recorded.go_on {before : List Checkpoint} {p c : Checkpoint} (h : Recorded before p)
    (hdistinct : (c.history.map Window.idSha256 ++ [c.window.idSha256]).Nodup)
    (hid : c.window.idSha256 = p.window.idSha256) (hhistory : c.history = p.history)
    (hcontinues : c.window.Continues p.window) : Recorded (before ++ [p]) c := by
  refine ⟨?_, hdistinct, fun x hx hsame => ?_, fun x hx hother => ?_⟩
  · rw [replaced_concat, if_neg (not_not.2 hid), List.append_nil, ← h.history, hhistory]
  · rcases List.mem_append.1 hx with hx | hx
    · exact hcontinues.trans (h.grows x hx (hsame.trans hid))
    · rw [List.mem_singleton.1 hx]
      exact hcontinues
  · rw [hid] at hother
    rw [hhistory]
    rcases List.mem_append.1 hx with hx | hx
    · exact h.kept x hx hother
    · rw [List.mem_singleton.1 hx] at hother
      exact absurd rfl hother

/-- **A chain records its windows.** -/
theorem Linked.recorded {before : List Checkpoint} {last : Checkpoint} (h : Linked before last) :
    Recorded before last := by
  induction h with
  | @first c hvalid _ _ hhistory =>
    refine ⟨hhistory, ?_, fun x hx => (List.not_mem_nil hx).elim, fun x hx => (List.not_mem_nil hx).elim⟩
    obtain ⟨-, -, -, -, -, -, -, -, -, hdistinct, -⟩ := hvalid
    exact hdistinct
  | @next before p c _ hvalid hfollows ih =>
    obtain ⟨-, -, -, -, -, -, -, -, -, hdistinct, -⟩ := hvalid
    obtain ⟨-, -, -, -, hwindow⟩ := hfollows
    split_ifs at hwindow with hid
    · exact ih.replace hdistinct hid hwindow
    · exact ih.go_on hdistinct (not_not.1 hid) hwindow.1 hwindow.2

/-! ## The durable checkpoints -/

/-- The checkpoint of the state. -/
def Files.checkpoint (f : Files) : Option Checkpoint := f.state.bind ConsumerState.canvasCheckpoint

/-- The store, with the durable checkpoints so far and the states that they were taken in. -/
structure Observed where
  files : Files
  taken : List (Checkpoint × ConsumerState)

/-- The checkpoint that is durable now, if it is another one than before. -/
def Files.newCheckpoint (f f' : Files) : List (Checkpoint × ConsumerState) :=
  if f'.checkpoint = f.checkpoint then []
  else (f'.state.bind fun s => s.canvasCheckpoint.map fun c => (c, s)).toList

/-- The runs of the store, observed. -/
def observedMachine : Machine Observed where
  start o := storeMachine.start o.files ∧ o.taken = []
  step o o' := storeMachine.step o.files o'.files ∧ o'.taken = o.taken ++ o.files.newCheckpoint o'.files

/-- What a step does to the checkpoint: nothing, or it takes one that is bound to the one before, in
    the state that it writes. -/
def Files.TakesCheckpoint (f f' : Files) : Prop :=
  f'.checkpoint = f.checkpoint ∨ ∃ s c sha, f'.state = some s ∧ s.canvasCheckpoint = some c ∧
    c.Binds f.checkpoint s.lastReceipt s.ackedCounts sha

variable {f f' : Files} {proposal : String} {checkpoint : Option Json}

theorem Files.commit_takesCheckpoint (h : Interrupted Files.write (f.writes (.commit proposal checkpoint)) f f') :
    f.TakesCheckpoint f' := by
  rcases writes_of h with rfl | ⟨ws, r, hok, h⟩
  · exact Or.inl rfl
  rcases commit_cases hok with ⟨rfl, -⟩ | ⟨plan, result, s, hc, rfl, -⟩
  · rw [interrupted_nil.1 h]
    exact Or.inl rfl
  rcases interrupted_cons.1 h with rfl | h
  · exact Or.inl rfl
  have hstate : f'.state = some s := by
    refine h.keeps (p := fun t : Files => t.state = some s) rfl fun t ht w hw => ?_
    obtain ⟨a, -, rfl⟩ := Option.map_eq_some_iff.1 (Option.mem_toList.1 hw)
    exact ht
  obtain ⟨-, -, hnone⟩ := hc.state
  rcases withCheckpoint_ok hc.bound with ⟨hno, hprevious, -⟩ | ⟨j, c, -, -, hbinds, rfl, -⟩
  · left
    rw [Files.checkpoint, Files.checkpoint, hstate, hprevious]
    exact (hnone hno).2
  · exact Or.inr ⟨_, c, _, hstate, rfl, hbinds⟩

theorem Files.commitCheckpoint_takesCheckpoint
    (h : Interrupted Files.write (f.writes (.commitCheckpoint proposal checkpoint)) f f') :
    f.TakesCheckpoint f' := by
  rcases writes_of h with rfl | ⟨ws, r, hok, h⟩
  · exact Or.inl rfl
  simp only [commitCheckpoint, bind_ok, orFail_eq_ok, readState_ok] at hok
  obtain ⟨sha, -, j, -, old, ⟨rfl, -⟩, s, hs, hok⟩ := hok
  split_ifs at hok with hne
  · obtain ⟨rfl, -⟩ := Prod.mk.inj (pure_ok.1 hok)
    rw [interrupted_nil.1 h]
    exact Or.inl rfl
  simp only [bind_ok, need_eq_ok, exists_unit, orFail_eq_ok, pure_ok, Prod.mk.injEq] at hok
  obtain ⟨c, -, hbinds, -, -, rfl, -⟩ := hok
  rcases interrupted_cons.1 h with rfl | h
  · exact Or.inl rfl
  rw [interrupted_nil.1 h]
  refine Or.inr ⟨{ s with canvasCheckpoint := some c }, c, sha, rfl, rfl, ?_⟩
  rw [Files.checkpoint, hs]
  exact hbinds

theorem Files.takesCheckpoint (h : storeMachine.step f f') : f.TakesCheckpoint f' := by
  obtain ⟨op, h⟩ := h
  cases op with
  | prepare report =>
    left
    rcases writes_of h with rfl | ⟨ws, r, hok, h⟩
    · rfl
    simp only [Files.prepare, bind_ok, orFail_eq_ok, need_eq_ok, exists_unit, pure_ok, Prod.mk.injEq] at hok
    obtain ⟨old, -, raw, -, e, -, o, -, -, rfl, -⟩ := hok
    rcases interrupted_cons.1 h with rfl | h
    · rfl
    · rw [interrupted_nil.1 h]
      rfl
  | commit proposal checkpoint => exact commit_takesCheckpoint h
  | prepareCheckpoint =>
    rw [interrupted_nil.1 h]
    exact Or.inl rfl
  | commitCheckpoint proposal checkpoint => exact commitCheckpoint_takesCheckpoint h

/-! ## Runs -/

/-- A durable checkpoint, after those before it. -/
structure Durable (before : List (Checkpoint × ConsumerState)) (c : Checkpoint) (s : ConsumerState) : Prop where
  taken : s.canvasCheckpoint = some c
  anchored : c.Anchored s.lastReceipt s.ackedCounts
  linked : Linked (before.map Prod.fst) c

/-- The durable checkpoints are a chain, and the last one is that of the state. -/
structure Observed.Chained (o : Observed) : Prop where
  durable : ∀ before c s after, o.taken = before ++ (c, s) :: after → Durable before c s
  last : o.files.checkpoint = (o.taken.getLast?).map Prod.fst

theorem newCheckpoint_spec (h : f.TakesCheckpoint f') : (f.newCheckpoint f' = [] ∧ f'.checkpoint = f.checkpoint) ∨
    ∃ s c sha, f.newCheckpoint f' = [(c, s)] ∧ s.canvasCheckpoint = some c ∧ f'.checkpoint = some c ∧
      c.Binds f.checkpoint s.lastReceipt s.ackedCounts sha := by
  unfold Files.newCheckpoint
  by_cases hsame : f'.checkpoint = f.checkpoint
  · rw [if_pos hsame]
    exact Or.inl ⟨rfl, hsame⟩
  rw [if_neg hsame]
  rcases h with heq | ⟨s, c, sha, hs, hc, hbinds⟩
  · exact absurd heq hsame
  · refine Or.inr ⟨s, c, sha, ?_, hc, ?_, hbinds⟩
    · rw [hs, Option.bind_some, hc]
      rfl
    · rw [Files.checkpoint, hs, Option.bind_some, hc]

theorem chained_invariant : observedMachine.Invariant Observed.Chained where
  start o hstart := by
    obtain ⟨hfiles, htaken⟩ := hstart
    refine ⟨fun before c s after hsplit => ?_, ?_⟩
    · rw [htaken] at hsplit
      exact absurd hsplit.symm (List.append_ne_nil_of_right_ne_nil _ (List.cons_ne_nil _ _))
    · rw [show o.files = Files.empty from hfiles, htaken]
      rfl
  step o o' _ h hstep := by
    obtain ⟨hfiles, htaken⟩ := hstep
    rcases newCheckpoint_spec (Files.takesCheckpoint hfiles) with ⟨hnone, hsame⟩ | ⟨s, c, sha, hnew, hs, hc, hbinds⟩
    · rw [hnone, List.append_nil] at htaken
      exact ⟨htaken ▸ h.durable, by rw [hsame, htaken]; exact h.last⟩
    · rw [hnew] at htaken
      refine ⟨fun before c' s' after hsplit => ?_, by rw [hc, htaken, List.getLast?_concat]; rfl⟩
      rw [htaken] at hsplit
      rcases List.eq_nil_or_concat after with rfl | ⟨rest, x, rfl⟩
      · obtain ⟨rfl, hlast⟩ := List.append_inj' hsplit rfl
        obtain ⟨rfl, rfl⟩ := Prod.mk.inj (List.cons.inj hlast).1
        refine ⟨hs, hbinds.1, ?_⟩
        obtain ⟨hanchored, -, hfirst, hnext⟩ := hbinds
        rw [h.last] at hfirst hnext
        -- the new checkpoint is the first one, or follows the last one
        rcases List.eq_nil_or_concat o.taken with hempty | ⟨earlier, p, hconcat⟩
        · rw [hempty] at hfirst ⊢
          obtain ⟨hsequence, hprevious, hhistory⟩ := hfirst rfl
          exact .first hanchored.1 hsequence hprevious hhistory
        · obtain ⟨p, sp⟩ := p
          rw [List.concat_eq_append] at hconcat
          rw [hconcat, List.getLast?_concat] at hnext
          rw [hconcat, List.map_append]
          exact .next (h.durable earlier p sp [] hconcat).linked hanchored.1 (hnext p rfl)
      · rw [List.concat_eq_append, ← List.cons_append, ← List.append_assoc] at hsplit
        obtain ⟨hearlier, -⟩ := List.append_inj' hsplit rfl
        exact h.durable before c' s' rest hearlier

/-- A window that has just started. -/
def openedWindow : Window where
  idSha256 := sha256 []
  phase := .tracking
  reason := .collecting
  clockDomainSha256 := sha256 []
  startedAtNs := 0
  observedAtNs := 0
  firstReceiptId := 0
  lastReceiptId := 0
  baselineCounts := 0
  acknowledgedCounts := 0
  maxUpperNsByKind := fun _ => none
  violations := fun _ => 0
  eventLatencyMs := 1000
  windowDurationNs := 86400000000000
  cut := none

/-- A report without packets, on an empty store. -/
def emptyReport : Envelope := ⟨none, none, 0, 0, sha256 []⟩

def emptyPlan : Plan := ⟨none, emptyReport⟩

/-- The state after it. -/
def reported : ConsumerState := initialState.noteClock (sha256 [])

/-- The first checkpoint. -/
def openedCheckpoint : Checkpoint where
  schemaVersion := 1
  sequence := 1
  previousSha256 := none
  proposalSha := emptyPlan.sha256
  receiptId := 0
  acknowledgedCountsSha256 := Checkpoint.countsDigest 0
  window := openedWindow
  history := []
  readerObservation := none
  windowRequest := none

def openedState : ConsumerState := { reported with canvasCheckpoint := some openedCheckpoint }

omit [Sha256] in
theorem zero_valid : (0 : Totals).Valid := ⟨fun _ => Nat.two_pow_pos 128, by simp [Totals.Balanced]⟩

theorem emptyReport_valid : emptyReport.Valid where
  ackedBuckets := Nat.two_pow_pos 64
  ackedCounts := zero_valid
  lastAck r hr := by cases hr
  noAck _ := rfl
  packet p hp := by cases hp

theorem openedWindow_valid : openedWindow.Valid := by
  have h0 := zero_valid
  constructor
  all_goals simp [openedWindow, h0]

theorem length_openedCheckpoint : openedCheckpoint.json.render.length ≤ 17000 :=
  Checkpoint.length_opening rfl rfl (by norm_num [openedCheckpoint]) (by norm_num [openedCheckpoint])
    openedWindow_valid

theorem openedCheckpoint_valid : openedCheckpoint.Valid := by
  have hlength : openedCheckpoint.json.canonical.length ≤ maxCheckpointBytes := by
    rw [Json.length_canonical]
    exact length_openedCheckpoint.trans (by norm_num [maxCheckpointBytes])
  refine ⟨.inl ⟨rfl, rfl, rfl⟩, ?_, ?_, ?_, ?_, openedWindow_valid, ?_, ?_, ?_, ?_, hlength⟩
  all_goals simp [openedCheckpoint, maxWindowHistory, openedWindow]

theorem reported_valid : reported.Valid := by
  have h0 := zero_valid
  constructor
  all_goals simp [reported, initialState, ConsumerState.noteClock, h0]

theorem openedState_valid : openedState.Valid := by
  obtain ⟨-, hids, hwidth, hpacket, hreceipt, hchanges, hacked, hreceived, -, hsettled, htiming⟩ := reported_valid
  refine ⟨?_, hids, hwidth, hpacket, hreceipt, hchanges, hacked, hreceived, ?_, hsettled, htiming⟩
  · rintro c ⟨⟩
    exact ⟨openedCheckpoint_valid, le_rfl⟩
  · rintro p ⟨⟩

theorem transition_emptyReport : transition none emptyReport.text = .ok ⟨reported, none, true, []⟩ := by
  refine transition_ok.2 ⟨emptyReport, reported, decodeEnvelope_text emptyReport_valid, fun _ => rfl, ?_, rfl,
    ⟨rfl, rfl⟩, rfl, reported_valid, rfl, rfl⟩
  rintro s ⟨⟩

theorem prepare_emptyReport :
    Files.empty.writes (.prepare (some emptyReport.text)) = [.prepared emptyPlan] := by
  have hplan : emptyPlan.json.render.length ≤ 66000 := by
    have hreport := emptyReport_valid.capacity
    have hbase : (optHexJson (none : Option (Hex 64))).render.length ≤ 66 := length_optHex _
    have hversion : (Json.int 1).render.length = 1 := by decide
    rw [Envelope.text, Json.length_canonical, reportLimit] at hreport
    refine (Json.length_obj_le _).trans ?_
    simp [Json.memberLen, Json.quote, Json.escape, emptyPlan]
    omega
  have hcapacity : (wrapper emptyPlan.json).canonical.length ≤ limit := by
    have hsha := length_hex (digest emptyPlan.json)
    have hversion : (Json.int 1).render.length = 1 := by decide
    rw [Json.length_canonical, limit]
    refine (Json.length_obj_le _).trans ?_
    simp [Json.memberLen, Json.quote, Json.escape]
    omega
  have hread : Files.empty.readState = .ok none := rfl
  unfold emptyPlan at hcapacity
  simp [Files.writes, Files.prepare, hread, need, orFail, transition_emptyReport,
    decodeEnvelope_text emptyReport_valid, hcapacity, Except.toOption, emptyPlan]

theorem length_openedState : openedState.json.render.length ≤ 60000 := by
  have hcheckpoint := length_openedCheckpoint
  have hcounts := length_totals narrow_num zero_valid.1
  have hzero := narrow_num 0 (by norm_num)
  have hnone : (optHexJson (none : Option (Hex 64))).render.length ≤ 66 := length_optHex _
  have hdomain : (optHexJson (some (sha256 []))).render.length ≤ 66 := length_optHex _
  have hnull : Json.null.render.length = 4 := rfl
  have hversion : (Json.int 2).render.length = 1 := by decide
  have htiming : (kindJson fun _ => (TimingRow.mk 0 0 0 none).json).render.length ≤ 7 * (500 + 42) + 2 := by
    refine length_kinds fun _ => (Json.length_obj_le _).trans ?_
    simp [Json.memberLen, Json.quote, Json.escape, optNum]
    omega
  refine (Json.length_obj_le _).trans ?_
  simp [Json.memberLen, Json.quote, Json.escape, openedState, reported, initialState, ConsumerState.noteClock]
  generalize (kindJson fun _ => (TimingRow.mk 0 0 0 none).json).render.length = timing at htiming ⊢
  generalize openedCheckpoint.json.render.length = checkpoint at hcheckpoint ⊢
  generalize (Totals.json num 0).render.length = counts at hcounts ⊢
  generalize (num 0).render.length = width at hzero ⊢
  generalize (optHexJson none).render.length = absent at hnone ⊢
  generalize (optHexJson (some (sha256 []))).render.length = domain at hdomain ⊢
  generalize Json.null.render.length = null at hnull ⊢
  generalize (Json.int 2).render.length = version at hversion ⊢
  omega

/-- The commit of the first checkpoint. -/
theorem commits_opened : (Files.empty.write (.prepared emptyPlan)).Commits emptyPlan.sha256.1
    (some openedCheckpoint.json) emptyPlan ⟨reported, none, true, []⟩ openedState where
  proposal := hex?_str _
  prepared := rfl
  stored s hs := by cases hs
  base := rfl
  transition := transition_emptyReport
  bound := by
    have hread := Checkpoint.read_json openedCheckpoint_valid
    have hbinds : openedCheckpoint.Binds none reported.lastReceipt reported.ackedCounts emptyPlan.sha256 := by
      refine ⟨⟨openedCheckpoint_valid, rfl, rfl, fun _ => le_rfl⟩, rfl, fun _ => ⟨rfl, rfl, rfl⟩, ?_⟩
      rintro p ⟨⟩
    simp only [Files.withCheckpoint, bind_ok, orFail_eq_ok, need_eq_ok, exists_unit, pure_ok]
    exact ⟨_, hread, hbinds, openedState_valid, rfl⟩
  capacity := by
    have hstate := length_openedState
    have hsha := length_hex (digest openedState.json)
    have hversion : (Json.int 1).render.length = 1 := by decide
    rw [Json.length_canonical, limit]
    refine (Json.length_obj_le _).trans ?_
    simp [Json.memberLen, Json.quote, Json.escape]
    omega

/-- The store after the first commit. -/
def opened : Observed :=
  ⟨(Files.empty.write (.prepared emptyPlan)).write (.state openedState), [(openedCheckpoint, openedState)]⟩

theorem opened_reachable : observedMachine.Reachable opened := by
  have h0 : observedMachine.Reachable ⟨Files.empty, []⟩ := .start ⟨rfl, rfl⟩
  have h1 : observedMachine.Reachable ⟨Files.empty.write (.prepared emptyPlan), []⟩ := by
    refine .step h0 ⟨⟨.prepare (some emptyReport.text), ?_⟩, rfl⟩
    rw [prepare_emptyReport]
    exact interrupted_foldl _ _
  refine .step h1 ⟨⟨.commit emptyPlan.sha256.1 (some openedCheckpoint.json), ?_⟩, rfl⟩
  rw [Files.writes, commits_opened.run]
  exact interrupted_foldl _ _

end

end SmartHome.Mqtt.Consumer
