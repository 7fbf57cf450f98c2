/-
  The stamps of the native sender in every run of its threads: a stamp covers every callback that has
  read an earlier time, and the stamps do not go back as long as no callback's frame is later than the
  time that the end of the plugin has read.
-/
import SmartHome.Mqtt.Native.Coverage

namespace SmartHome.Mqtt.Native

open Verif Verif.Program

/-! ## The order of the stamps -/

/-- A stamp is not later than its frame. -/
theorem Logged.stamp_le {log : List Sent} (h : Logged log) :
    ∀ a ∈ log, ∀ c ∈ a.coveredBeforeNs, c ≤ a.plugin.lastAttempt := by
  induction h with
  | nil => exact fun a ha => by cases ha
  | snoc hlog hrec ih =>
    intro a ha c hc
    rcases List.mem_append.1 ha with ha | ha
    · exact ih a ha c hc
    · obtain rfl := List.mem_singleton.1 ha
      exact (hrec.stamped.stamp c hc).1

/-- The log of a run is in order. -/
theorem Logged.pairwise {log : List Sent} (h : Logged log) : log.Pairwise fun a b =>
    a.plugin.frameSeq < b.plugin.frameSeq ∧
      ∀ c ∈ a.coveredBeforeNs, ∀ c' ∈ b.coveredBeforeNs, c ≤ c' := by
  induction h with
  | nil => exact .nil
  | snoc hlog hrec ih =>
    refine List.pairwise_append.2 ⟨ih, List.pairwise_singleton _ _, fun a ha b hb => ?_⟩
    obtain rfl := List.mem_singleton.1 hb
    refine ⟨(hrec.live.since a ha).frameSeq, fun c hc c' hc' => ?_⟩
    exact (hlog.stamp_le a ha c hc).trans (hrec.after c' hc' a ha)

theorem Logged.recorded {pre post : List Sent} {a : Sent} (h : Logged (pre ++ a :: post)) :
    Recorded pre a := by
  rw [List.append_cons] at h
  exact (Logged.snoc_iff.1 h.of_append).2

/-- The frame's stamp is not before the last one. -/
theorem check_ne_reversed {f : Frame} {prior : Option State} {t : ℕ}
    (h : ∀ p ∈ prior, ∀ c ∈ f.coveredBeforeNs, ∀ l ∈ p.lastCoveredBeforeNs, l ≤ c) :
    f.check prior t ≠ .error "source_coverage_reversed" := by
  have hother : ∀ {p : Prop} [Decidable p] {e : String}, e ≠ "source_coverage_reversed" →
      need p e ≠ .error "source_coverage_reversed" := fun he => need_ne_error (.inr he)
  unfold Frame.check
  refine bind_ne_error (hother (by decide)) fun _ => ?_
  refine bind_ne_error (hother (by decide)) fun _ => ?_
  refine bind_ne_error (hother (by decide)) fun _ => ?_
  refine bind_ne_error (hother (by decide)) fun _ => ?_
  refine bind_ne_error (hother (by decide)) fun _ => ?_
  refine bind_ne_error (hother (by decide)) fun _ => ?_
  refine bind_ne_error (need_ne_error (.inl h)) fun _ => ?_
  refine bind_ne_error (hother (by decide)) fun _ => ?_
  refine bind_ne_error (hother (by decide)) fun _ => ?_
  refine bind_ne_error (hother (by decide)) fun _ => ?_
  refine bind_ne_error (hother (by decide)) fun _ => ?_
  refine bind_ne_error (checkAll_ne_error (fun r => ?_) _) fun _ => ?_
  · exact bind_ne_error (hother (by decide)) fun _ => hother (by decide)
  refine bind_ne_error (hother (by decide)) fun _ => ?_
  refine bind_ne_error (hother (by decide)) fun _ => ?_
  refine bind_ne_error (hother (by decide)) fun _ => ?_
  exact bind_ne_error (hother (by decide)) fun _ => hother (by decide)

section
variable [Sha256]

/-- What the receiver knows of the stamps: the last one is from a frame that has arrived. -/
structure Stamps (ds : List Delivery) (s : Option State) : Prop where
  valid : ∀ p ∈ s, p.Valid
  covered : ∀ p ∈ s, ∀ l ∈ p.lastCoveredBeforeNs, ∃ d ∈ ds, l ∈ d.sent.coveredBeforeNs

/-- A further frame, whenever it arrives. -/
theorem Stamps.receive {ds : List Delivery} {s : Option State} {sent : List Sent} {d : Delivery}
    (h : Stamps ds s) (hd : Recorded sent d.sent) : Stamps (ds ++ [d]) (receive s d) := by
  have hold : Stamps (ds ++ [d]) s := ⟨h.valid, fun p hp l hl => by
    obtain ⟨d', hd', hl'⟩ := h.covered p hp l hl
    exact ⟨d', List.mem_append_left _ hd', hl'⟩⟩
  unfold Native.receive
  cases d.arrivedNs with
  | none => exact hold
  | some t =>
    refine ⟨accept_valid h.valid _ _ _, fun p hp l hl => ?_⟩
    rcases accept_cases h.valid d.sent.raw t true with ⟨f, -, hf, hs⟩ | ⟨-, hs⟩
    · simp only [hs, Option.mem_def, Option.some.injEq] at hp
      subst hp
      have hframe : f = d.sent.frame := Except.ok.inj (hf.decoded.symm.trans hd.decode)
      have hl : l ∈ f.coveredBeforeNs.or ((f.prior s).bind State.lastCoveredBeforeNs) := by
        by_cases hversion : f.wireVersion = 3 ∨ (s.any fun p => p.version = 4) = true
        · simpa [Frame.nextState, hversion] using hl
        · simp [Frame.nextState, hversion] at hl
      cases hcov : f.coveredBeforeNs with
      | some c =>
        rw [hcov, Option.some_or] at hl
        refine ⟨d, List.mem_append_right _ (List.mem_singleton_self d), ?_⟩
        rw [hframe] at hcov
        exact hcov.trans hl
      | none =>
        rw [hcov, Option.none_or, Option.mem_def, Option.bind_eq_some_iff] at hl
        obtain ⟨q, hq, hl⟩ := hl
        exact hold.covered q (Option.filter_eq_some_iff.1 hq).1 l hl
    · simp only [hs] at hp
      exact hold.covered p hp l hl

theorem stamps_feed {ds : List Delivery} (h : Logged (ds.map Delivery.sent)) : Stamps ds (feed ds) := by
  induction ds using List.reverseRecOn with
  | nil =>
    constructor
    · intro p hp
      cases hp
    · intro p hp
      cases hp
  | append_singleton ds d ih =>
    rw [List.map_append, List.map_singleton, Logged.snoc_iff] at h
    rw [feed, List.foldl_append, ← feed]
    exact (ih h.1).receive h.2

/-- A frame whose stamp is not before those that have arrived. -/
theorem accept_ne_reversed {s : Option State} {sent : List Sent} {a : Sent} {t : ℕ}
    (hv : ∀ p ∈ s, p.Valid) (ha : Recorded sent a)
    (h : ∀ p ∈ s, ∀ c ∈ a.coveredBeforeNs, ∀ l ∈ p.lastCoveredBeforeNs, l ≤ c) :
    (accept s a.raw t true).reason ≠ some "source_coverage_reversed" := by
  have hvalid : acceptValid s a.raw t true ≠ .error "source_coverage_reversed" := by
    unfold acceptValid
    refine bind_ne_error (need_ne_error (.inl rfl)) fun _ => ?_
    refine bind_ne_error (need_ne_error (.inr (by decide))) fun _ => ?_
    rw [ha.decode, ok_bind]
    dsimp only
    split_ifs
    · exact bind_ne_error (need_ne_error (.inr (by decide))) fun _ => ok_ne_error
    · refine bind_ne_error (check_ne_reversed fun p hp c hc l hl => ?_) fun _ => ?_
      · exact h p (Option.filter_eq_some_iff.1 hp).1 c hc l hl
      · exact bind_ne_error (need_ne_error (.inr (by decide))) fun _ => ok_ne_error
  unfold accept
  rw [if_pos hv]
  cases hx : acceptValid s a.raw t true with
  | ok r => exact fun h => by cases h
  | error e =>
    intro he
    obtain rfl := Option.some.inj he
    exact hvalid hx

end

namespace Threads

/-! ## Runs -/

/-- **The coverage frontier is sound**, as long as no atomic counter wraps around. -/
theorem coverage_sound {w : Crew Shared Reply} (hw : machine.Reachable w)
    (hwrap : w.state.wrapped = false) (pre : List Dispatch) (d : Dispatch) (post : List Dispatch)
    (hsent : w.state.sent = pre ++ d :: post) :
    Textual d.sent ∧
    (∀ k, d.sent.plugin.total k = d.counted.countP fun e => e.kind = k) ∧
    (∀ k, d.sent.plugin.dropped k = d.counted.countP fun e => e.kind = k ∧ e.row = none) ∧
    ∀ c ∈ d.sent.coveredBeforeNs, ∀ r ∈ w.state.readings, r.atNs < c →
      ∃ e ∈ d.counted, e.thread = r.thread ∧ e.kind = r.kind ∧ ∀ row ∈ e.row, row.kind = r.kind ∧
        ∃ d' ∈ pre ++ [d], row ∈ d'.sent.plugin.pending := by
  have hinv := inv_reachable hw
  have hframe := hinv.frames pre d post hsent
  refine ⟨hframe.text, hframe.total hwrap, hframe.dropped hwrap, fun c hc r hr hlt => ?_⟩
  have hd : d ∈ w.state.sent := by rw [hsent]; simp
  obtain ⟨-, hcov⟩ := hinv.covers d hd c hc
  obtain ⟨e, he, hthread, hkind⟩ := hcov hwrap r hr hlt
  refine ⟨e, he, hthread, hkind, fun row hrow => ?_⟩
  obtain ⟨h1, h2⟩ := hframe.rows e he row hrow
  exact ⟨h1.trans hkind, h2⟩

/-! ### A run -/

/-- Each reading of the clock is 300 ms after the one before, and everything is allowed. -/
def sampleAnswer : ∀ q, Reply q
  | .clock => some 300000000
  | .authorized => true
  | .sendto => Outcome.sent
  | .unregister => true

/-- The broker's thread and two callbacks. -/
def sampleStart : Crew Shared Reply :=
  let crew : Crew Shared Reply := ⟨launch (hexText fun _ => 0) (some 1) 1, fun _ => none, 0⟩
  ((crew.spawn main).spawn (metadataCallback 1 (.observed .connect))).spawn
    (metadataCallback 2 (.observed .connect))

/-- Some steps of each thread in turn. -/
def sampleRun (turns : List (ℕ × ℕ)) : Crew Shared Reply :=
  (turns.flatMap fun turn => List.replicate turn.2 turn.1).foldl (Crew.advance sampleAnswer) sampleStart

theorem sampleRun_reachable (turns : List (ℕ × ℕ)) : machine.Reachable (sampleRun turns) := by
  refine Crew.reachable_schedule sampleAnswer _ ?_
  refine Crew.reachable_spawn ⟨_, rfl⟩ (Crew.reachable_spawn ⟨_, rfl⟩ (Crew.reachable_spawn rfl ?_))
  refine .start ⟨⟨_, _, _, rfl, ?_⟩, fun _ => rfl, rfl⟩
  rintro b hb
  obtain rfl := Option.some.inj hb
  exact ⟨le_rfl, by decide⟩

/-- The start, and a callback that sends a frame. -/
def sampleSent : Crew Shared Reply := sampleRun [(0, 53), (1, 60)]

/-- The start, a callback that sends a frame, and the end. -/
def sampleEnded : Crew Shared Reply := sampleRun [(0, 53), (1, 60), (0, 60)]

theorem sampleRun_ends : sampleSent.state.wrapped = false ∧ (sampleSent.state.sent.any fun d =>
      d.sent.coveredBeforeNs.any fun c => sampleSent.state.readings.any fun r => r.atNs < c) = true ∧
    sampleEnded.state.late = false ∧ sampleEnded.state.log.length = 3 := by
  decide +kernel

theorem coverage_sound_sample : ∃ d ∈ sampleSent.state.sent, ∃ c ∈ d.sent.coveredBeforeNs,
    ∃ r ∈ sampleSent.state.readings, r.atNs < c ∧ ∃ e ∈ d.counted, e.thread = r.thread := by
  obtain ⟨hwrapped, hsent, -⟩ := sampleRun_ends
  obtain ⟨d, hd, hc⟩ := List.any_eq_true.1 hsent
  obtain ⟨c, hc, hr⟩ := (Option.any_eq_true _ _).1 hc
  obtain ⟨r, hr, hlt⟩ := List.any_eq_true.1 hr
  have hlt : r.atNs < c := by simpa using hlt
  obtain ⟨pre, post, hsplit⟩ := List.append_of_mem hd
  have hw : machine.Reachable sampleSent := sampleRun_reachable _
  obtain ⟨-, -, -, hcov⟩ := coverage_sound hw hwrapped pre d post hsplit
  obtain ⟨e, he, hthread, -⟩ := hcov c hc r hr hlt
  exact ⟨d, hd, c, hc, r, hr, hlt, e, he, hthread⟩

/-! ### A counter that wraps around -/

/-- A callback has read the clock, and another one is about to count those in progress. -/
def samplePaused : Crew Shared Reply := sampleRun [(0, 53), (1, 5), (2, 30)]

/-- The two callbacks and `m` more. -/
def crowd : ℕ → Finset ℕ
  | 0 => {1, 2}
  | m + 1 => insert (3 + m) (crowd m)

theorem samplePaused_run : samplePaused.state.callbacks = 2 ∧ samplePaused.state.inside = crowd 0 ∧
    samplePaused.started = 3 ∧ (samplePaused.threads 2).isSome = true := by
  decide +kernel

/-- `m` more callbacks have come in. -/
def crowded (s : Shared) (m : ℕ) (wrapped : Bool) : Shared :=
  { s with callbacks := (2 + m) % 2 ^ 32, wrapped := wrapped, inside := crowd m }

theorem crowded_zero {s : Shared} (h1 : s.callbacks = 2) (h2 : s.inside = crowd 0) :
    s = crowded s 0 s.wrapped := by
  have h1 : s.callbacks = (2 + 0) % 2 ^ 32 := h1
  rw [crowded, ← h2, ← h1]

theorem crowded_enter (s : Shared) (m : ℕ) (b : Bool) : (crowded s m b).enter (3 + m) =
    crowded s (m + 1) ((crowded s m b).enter (3 + m)).wrapped := by
  have hcount : ((2 + m) % 2 ^ 32 + 1) % 2 ^ 32 = (2 + (m + 1)) % 2 ^ 32 := by omega
  simp only [Shared.enter, crowded, crowd, hcount]

theorem crowded_reachable (m : ℕ) : ∃ w b, machine.Reachable w ∧
    w.threads 2 = samplePaused.threads 2 ∧ w.started = 3 + m ∧
      w.state = crowded samplePaused.state m b := by
  induction m with
  | zero =>
    obtain ⟨hcount, hinside, hstarted, -⟩ := samplePaused_run
    exact ⟨samplePaused, _, sampleRun_reachable _, rfl, hstarted, crowded_zero hcount hinside⟩
  | succ m ih =>
    obtain ⟨w, b, hw, hthread, hstarted, hstate⟩ := ih
    have hcallback : Starts w.started (metadataCallback w.started .tick) := by
      rw [Starts, if_neg (by omega)]
      exact ⟨_, rfl⟩
    have hspawn := Crew.reachable_spawn hcallback hw
    have hnew : (w.spawn (metadataCallback w.started .tick)).threads w.started =
        some (metadataCallback w.started .tick) := Function.update_self _ _ _
    have henter : w.state.enter w.started = crowded samplePaused.state (m + 1)
        ((crowded samplePaused.state m b).enter (3 + m)).wrapped := by
      rw [hstate, hstarted]
      exact crowded_enter _ m b
    refine ⟨_, _, .step hspawn (.atomic hnew), ?_, ?_, henter⟩
    · have hne : 2 ≠ w.started := by omega
      exact (Function.update_of_ne hne _ _).trans ((Function.update_of_ne hne _ _).trans hthread)
    · exact congrArg (· + 1) hstarted

/-- What the other callback still has to do. -/
def sampleRest : Action Unit := (samplePaused.threads 2).getD (pure ())

/-- A stamp that leaves out a callback that has read an earlier time. -/
def leavesOut (s : Shared) : Bool :=
  s.sent.any fun d => d.sent.coveredBeforeNs.any fun c => s.readings.any fun r =>
    r.atNs < c && d.counted.all fun e => e.thread ≠ r.thread

/-- With 2^32 + 1 callbacks in progress the count of callbacks wraps around. -/
theorem coverage_wraps : ∃ w, machine.Reachable w ∧ ∃ d ∈ w.state.sent, ∃ c ∈ d.sent.coveredBeforeNs,
    ∃ r ∈ w.state.readings, r.atNs < c ∧ ∀ e ∈ d.counted, e.thread ≠ r.thread := by
  obtain ⟨w, b, hw, hthread, -, hstate⟩ := crowded_reachable (2 ^ 32 - 1)
  obtain ⟨-, -, -, hsome⟩ := samplePaused_run
  have hrest : samplePaused.threads 2 = some sampleRest := by
    obtain ⟨p, hp⟩ := Option.isSome_iff_exists.1 hsome
    rw [sampleRest, hp, Option.getD_some]
  obtain ⟨w', hw', hend⟩ := Crew.reachable_solo sampleAnswer 40 (hthread.trans hrest) hw
  have hrun : ∀ b, leavesOut (Crew.solo sampleAnswer 40 sampleRest
      (crowded samplePaused.state (2 ^ 32 - 1) b)).2 = true := by decide +kernel
  rw [hstate] at hend
  have hleft := hrun b
  rw [← hend] at hleft
  obtain ⟨d, hd, hc⟩ := List.any_eq_true.1 hleft
  obtain ⟨c, hc, hr⟩ := (Option.any_eq_true _ _).1 hc
  obtain ⟨r, hr, hlt⟩ := List.any_eq_true.1 hr
  simp only [Bool.and_eq_true, decide_eq_true_eq, List.all_eq_true] at hlt
  exact ⟨w', hw', d, hd, c, hc, r, hr, hlt.1, hlt.2⟩

/-- **The stamps do not go back**, as long as no callback's frame is later than the end's clock. -/
theorem coverage_monotone [Sha256] {w : Crew Shared Reply} (hw : machine.Reachable w)
    (hlate : w.state.late = false) :
    (w.state.log.Pairwise fun a b => a.plugin.frameSeq < b.plugin.frameSeq ∧
      ∀ c ∈ a.coveredBeforeNs, ∀ c' ∈ b.coveredBeforeNs, c ≤ c') ∧
    ∀ ds : List Delivery, ds.map Delivery.sent = w.state.log → ∀ pre d post, ds = pre ++ d :: post →
      ∀ t ∈ d.arrivedNs, (accept (feed pre) d.sent.raw t true).reason ≠ some "source_coverage_reversed" := by
  have hlog := (inv_reachable hw).logged hlate
  refine ⟨hlog.pairwise, fun ds hds pre d post hsplit t _ => ?_⟩
  rw [← hds, hsplit, List.map_append, List.map_cons] at hlog
  have hpre := stamps_feed hlog.of_append
  refine accept_ne_reversed hpre.valid hlog.recorded fun p hp c hc l hl => ?_
  obtain ⟨d', hd', hl'⟩ := hpre.covered p hp l hl
  have hpair := (List.pairwise_append.1 hlog.pairwise).2.2
  exact (hpair _ (List.mem_map_of_mem hd') _ List.mem_cons_self).2 l hl' c hc

theorem coverage_monotone_sample : sampleEnded.state.log.length = 3 ∧
    sampleEnded.state.log.Pairwise fun a b => a.plugin.frameSeq < b.plugin.frameSeq ∧
      ∀ c ∈ a.coveredBeforeNs, ∀ c' ∈ b.coveredBeforeNs, c ≤ c' := by
  obtain ⟨-, -, hlate, hlength⟩ := sampleRun_ends
  have hw : machine.Reachable sampleEnded := sampleRun_reachable _
  exact ⟨hlength, (@coverage_monotone zeroHash _ hw hlate).1⟩

/-- The end reads the clock while a callback holds the lock, which then reads it for its frame. -/
def sampleLate : Crew Shared Reply := sampleRun [(0, 53), (1, 6), (0, 2), (1, 60), (0, 60)]

/-- All frames but the last one arrive at the given time. -/
def sampleDeliveries (t : ℕ) : List Delivery :=
  sampleLate.state.log.dropLast.map fun a => ⟨a, some t⟩

/-- The stamp goes back, and the receiver refuses the final frame. -/
theorem coverage_reversed : ∃ w, machine.Reachable w ∧
    (¬ w.state.log.Pairwise fun a b => a.plugin.frameSeq < b.plugin.frameSeq ∧
      ∀ c ∈ a.coveredBeforeNs, ∀ c' ∈ b.coveredBeforeNs, c ≤ c') ∧
    ∃ pre d, (pre ++ [d]).map Delivery.sent = w.state.log ∧ d.sent.plugin.final = true ∧
      ∃ t ∈ d.arrivedNs, (@accept zeroHash (@feed zeroHash pre) d.sent.raw t true).reason =
        some "source_coverage_reversed" := by
  have hrun : (sampleLate.state.log.getLast?.any fun a => a.plugin.final &&
      (sampleLate.state.log.dropLast.any fun b => b.coveredBeforeNs.any fun c =>
        a.coveredBeforeNs.any fun c' => c' < c) &&
      decide ((@accept zeroHash (@feed zeroHash (sampleDeliveries 2000000000)) a.raw 2000000000 true).reason =
        some "source_coverage_reversed")) = true := by decide +kernel
  obtain ⟨a, ha, hrun⟩ := (Option.any_eq_true _ _).1 hrun
  simp only [Bool.and_eq_true, decide_eq_true_eq] at hrun
  obtain ⟨⟨hfinal, hback⟩, hreason⟩ := hrun
  have hlog : sampleLate.state.log.dropLast ++ [a] = sampleLate.state.log :=
    List.dropLast_append_getLast? a ha
  refine ⟨sampleLate, sampleRun_reachable _, fun hpair => ?_, sampleDeliveries 2000000000,
    ⟨a, some 2000000000⟩, ?_, hfinal, 2000000000, rfl, hreason⟩
  · obtain ⟨b, hb, hc⟩ := List.any_eq_true.1 hback
    obtain ⟨c, hc, hc'⟩ := (Option.any_eq_true _ _).1 hc
    obtain ⟨c', hc', hlt⟩ := (Option.any_eq_true _ _).1 hc'
    have hlt : c' < c := by simpa using hlt
    rw [← hlog, List.pairwise_append] at hpair
    have hle := (hpair.2.2 b hb a (List.mem_singleton_self a)).2 c hc c' hc'
    omega
  · rw [List.map_append, sampleDeliveries, List.map_map]
    exact (congrArg (· ++ [a]) (List.map_id _)).trans hlog

end Threads
end SmartHome.Mqtt.Native
