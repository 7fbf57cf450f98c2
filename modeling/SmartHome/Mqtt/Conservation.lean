/-
  Source accounting is a conservation law: whatever frames arrive, in each epoch the
  counters of the state equal what the accepted frames of the epoch contain, and the past
  counters equal the sums over the earlier epochs.

  A run is a list of arrivals folded through `accept`.  Beside the state it keeps, for the
  proofs only, the frames accepted in each epoch (`Log.epochs`, the current epoch first).
-/
import SmartHome.Mqtt.Accept

namespace SmartHome.Mqtt

open Verif

/-! ## Runs -/

/-- One call of `accept`: the bytes, the arrival time and the result of the binding check. -/
structure Arrival where
  raw : Bytes
  arrivedNs : ℕ
  verified : Bool

/-- The frames accepted from one source instance, newest first, and the state after the
    newest of them. -/
structure Epoch where
  frames : List Frame
  last : State

/-- The accounting state and the epochs behind it, the current one first. -/
structure Log where
  state : Option State
  epochs : List Epoch

/-- Enter an accepted frame: it belongs to the current epoch if its source instance is the
    same, and starts a new epoch otherwise. -/
def extend (epochs : List Epoch) (f : Frame) (s : State) : List Epoch :=
  match epochs with
  | [] => [⟨[f], s⟩]
  | e :: es => if e.last.source = f.source then ⟨f :: e.frames, s⟩ :: es else ⟨[f], s⟩ :: e :: es

def Log.empty : Log := ⟨none, []⟩

section
variable [Sha256]

def Log.step (l : Log) (a : Arrival) : Log :=
  let r := accept l.state a.raw a.arrivedNs a.verified
  ⟨r.state, match r.status, decode a.raw, r.state with
    | .accepted, .ok f, some s => extend l.epochs f s
    | _, _, _ => l.epochs⟩

def Log.run (as : List Arrival) : Log := as.foldl Log.step Log.empty

/-- The state of a run is the fold of `accept`. -/
theorem Log.run_state (as : List Arrival) : (Log.run as).state =
    as.foldl (fun s a => (accept s a.raw a.arrivedNs a.verified).state) none := by
  have h : ∀ (as : List Arrival) (l : Log), (as.foldl Log.step l).state =
      as.foldl (fun s a => (accept s a.raw a.arrivedNs a.verified).state) l.state := by
    intro as
    induction as with
    | nil => intro l; rfl
    | cons a as ih => intro l; rw [List.foldl_cons, ih]; rfl
  exact h as Log.empty

end

/-! ## The law -/

namespace Epoch

/-- The sequence numbers of the event rows of an epoch, in order of acceptance. -/
def seqs (e : Epoch) : List ℕ := (e.frames.reverse.flatMap Frame.events).map EventRow.seq

/-- The counters of an epoch's last state against its frames. -/
structure Counted (e : Epoch) : Prop where
  source : ∀ f ∈ e.frames, f.source = e.last.source
  expected : ∀ k, (e.last.stats k).col .expected = e.last.lastTotals k
  sourceDropped : ∀ k, (e.last.stats k).col .sourceDropped = e.last.lastSourceDropped k
  observed : ∀ k, (e.last.stats k).col .observed =
    (e.frames.map fun f => f.events.countP fun r => r.kind = k).sum
  reportGaps : e.last.reportGaps = e.last.lastFrameSeq - e.frames.length
  frames : e.frames.length ≤ e.last.lastFrameSeq
  increasing : e.seqs.Pairwise (· < ·)
  bounded : ∀ n ∈ e.seqs, n ≤ e.last.lastEventSeq

end Epoch

/-- The conservation law. -/
structure Log.Conserved (l : Log) : Prop where
  valid : ∀ s ∈ l.state, s.Valid
  current : l.epochs.head?.map Epoch.last = l.state
  counted : ∀ e ∈ l.epochs, e.Counted
  epoch : ∀ s ∈ l.state, s.epoch = l.epochs.length
  pastStats : ∀ s ∈ l.state, ∀ k c,
    (s.pastStats k).col c = (l.epochs.tail.map fun e => (e.last.stats k).col c).sum
  pastMaximum : ∀ s ∈ l.state, ∀ k, (s.pastStats k).maxSourceToReaderNs =
    (l.epochs.tail.map fun e => (e.last.stats k).maxSourceToReaderNs).foldr Row.maxOpt none
  pastReportGaps : ∀ s ∈ l.state, s.pastReportGaps = (l.epochs.tail.map fun e => e.last.reportGaps).sum
  pastClockFaults : ∀ s ∈ l.state,
    s.pastClockFaults = (l.epochs.tail.map fun e => e.last.clockFaults).sum
  pastSendFailures : ∀ s ∈ l.state,
    s.pastSendFailures = (l.epochs.tail.map fun e => e.last.sendFailures).sum

namespace Frame
variable {f : Frame} {s : State}

/-! ## A frame that starts an epoch -/

/-- The first frame of an epoch is counted in full. -/
theorem counted_first (previous : Option State) (digest : Hex 64) (arrivedNs : ℕ) (hd : f.Decoded) :
    Epoch.Counted ⟨[f], f.nextState previous none digest arrivedNs⟩ where
  source := by simp [nextState]
  expected k := by simp [nextState, Row.add, Row.zero, batch, delta]
  sourceDropped k := by simp [nextState, Row.add, Row.zero, batch, sourceDrop]
  observed k := by simp [nextState, Row.add, Row.zero, batch, length_rowsOf]
  reportGaps := by simp [nextState]
  frames := by have := hd.frameSeq.1; simp [nextState]; omega
  increasing := by simpa [Epoch.seqs] using hd.increasing
  bounded n hn := by
    simp only [Epoch.seqs, List.reverse_singleton, List.flatMap_singleton, List.mem_map] at hn
    obtain ⟨r, hr, rfl⟩ := hn
    exact (hd.bounded r hr).2

/-! ## A frame that continues an epoch -/

theorem seqs_cons (fs : List Frame) (s t : State) :
    Epoch.seqs ⟨f :: fs, t⟩ = Epoch.seqs ⟨fs, s⟩ ++ f.events.map EventRow.seq := by
  simp [Epoch.seqs, List.flatMap_append]

/-- A further frame of an epoch adds exactly its own counts. -/
theorem counted_next {fs : List Frame} {arrivedNs : ℕ} (digest : Hex 64) (hc : Epoch.Counted ⟨fs, s⟩) (hs : s.source = f.source)
    (hd : f.Decoded) (ha : f.Admits (some s) arrivedNs) :
    Epoch.Counted ⟨f :: fs, f.nextState (some s) (some s) digest arrivedNs⟩ := by
  have hseq : s.lastFrameSeq < f.frameSeq := ha.frameSeq
  have hlen : fs.length ≤ s.lastFrameSeq := hc.frames
  have hgaps : s.reportGaps = s.lastFrameSeq - fs.length := hc.reportGaps
  refine ⟨?_, fun k => ?_, fun k => ?_, fun k => ?_, ?_, ?_, ?_, ?_⟩
  · intro g hg
    rcases List.mem_cons.1 hg with rfl | hg
    · rfl
    · exact (hc.source g hg).trans hs
  · have h1 : (s.stats k).col .expected = s.lastTotals k := hc.expected k
    have h2 : s.lastTotals k ≤ f.totals k := (ha.totals k).1
    simp only [nextState, Row.add, batch, delta, Option.elim_some, h1]; omega
  · have h1 : (s.stats k).col .sourceDropped = s.lastSourceDropped k := hc.sourceDropped k
    have h2 : s.lastSourceDropped k ≤ f.sourceDropped k := (ha.totals k).2
    simp only [nextState, Row.add, batch, sourceDrop, Option.elim_some, h1]; omega
  · have h1 : (s.stats k).col .observed =
        (fs.map fun g => g.events.countP fun r => r.kind = k).sum := hc.observed k
    simp only [nextState, Row.add, batch, Option.elim_some, length_rowsOf, h1, List.map_cons,
      List.sum_cons]
    omega
  · simp only [nextState, Option.elim_some, List.length_cons, hgaps]; omega
  · simp only [nextState, List.length_cons]; omega
  · rw [seqs_cons fs s, List.pairwise_append]
    refine ⟨hc.increasing, hd.increasing, fun a ha' b hb => ?_⟩
    obtain ⟨r, hr, rfl⟩ := List.mem_map.1 hb
    exact (hc.bounded a ha').trans_lt (ha.fresh r hr)
  · intro n hn
    rw [seqs_cons fs s, List.mem_append] at hn
    rcases hn with hn | hn
    · exact (hc.bounded n hn).trans ha.eventSeq
    · obtain ⟨r, hr, rfl⟩ := List.mem_map.1 hn
      exact (hd.bounded r hr).2

end Frame

/-! ## Every step keeps the law -/

theorem Log.conserved_empty : Log.empty.Conserved := by
  constructor <;> simp [Log.empty]

section
variable [Sha256]

/-- Entering an accepted frame keeps the law. -/
theorem Log.conserved_extend {l : Log} (hl : l.Conserved) {raw : Bytes} {arrivedNs : ℕ} {f : Frame}
    (hf : Accepts l.state raw arrivedNs f) :
    (⟨some (f.nextState l.state (f.prior l.state) (sha256 raw) arrivedNs),
      extend l.epochs f (f.nextState l.state (f.prior l.state) (sha256 raw) arrivedNs)⟩ :
        Log).Conserved := by
  have hd := decode_ok hf.decoded
  have ha := hf.admits
  have hv := hf.valid
  obtain ⟨state, epochs⟩ := l
  have hcur := hl.current
  cases epochs with
  | nil =>
    obtain rfl : state = none := by simpa using hcur.symm
    rw [Frame.prior_none] at ha hv ⊢
    have hc := Frame.counted_first none (sha256 raw) arrivedNs hd
    refine ⟨by simpa using hv, rfl, by simpa [extend] using hc, ?_, ?_, ?_, ?_, ?_, ?_⟩ <;>
      simp [extend, Frame.nextState, Row.zero]
  | cons e es =>
    obtain rfl : state = some e.last := by simpa using hcur.symm
    have hepoch := hl.epoch e.last rfl
    have hstats := hl.pastStats e.last rfl
    have hmax := hl.pastMaximum e.last rfl
    have hgaps := hl.pastReportGaps e.last rfl
    have hfaults := hl.pastClockFaults e.last rfl
    have hfails := hl.pastSendFailures e.last rfl
    have hce := hl.counted e (by simp)
    have hces : ∀ e' ∈ es, e'.Counted := fun e' h => hl.counted e' (by simp [h])
    by_cases hs : e.last.source = f.source
    · rw [Frame.prior_same hs] at ha hv ⊢
      have hc := Frame.counted_next (sha256 raw) hce hs hd ha
      simp only [extend, hs, if_true]
      refine ⟨by simpa using hv, rfl, ?_, ?_, ?_, ?_, ?_, ?_, ?_⟩
      · simpa using ⟨hc, hces⟩
      all_goals rintro _ ⟨⟩; simp_all [Frame.nextState]
    · rw [Frame.prior_other hs] at ha hv ⊢
      have hc := Frame.counted_first (some e.last) (sha256 raw) arrivedNs hd
      simp only [extend, hs, if_false]
      refine ⟨by simpa using hv, rfl, ?_, ?_, ?_, ?_, ?_, ?_, ?_⟩
      · simpa using ⟨hc, hce, hces⟩
      all_goals rintro _ ⟨⟩; simp_all [Frame.nextState, Row.add, Row.maxOpt_comm, Nat.add_comm]

/-- A call enters the frame that it accepts, or changes nothing. -/
theorem Log.step_cases {l : Log} (hv : ∀ s ∈ l.state, s.Valid) (a : Arrival) :
    (∃ f, (accept l.state a.raw a.arrivedNs a.verified).status = .accepted ∧
        Accepts l.state a.raw a.arrivedNs f ∧
        l.step a = ⟨some (f.nextState l.state (f.prior l.state) (sha256 a.raw) a.arrivedNs),
          extend l.epochs f (f.nextState l.state (f.prior l.state) (sha256 a.raw) a.arrivedNs)⟩) ∨
      ((accept l.state a.raw a.arrivedNs a.verified).status ≠ .accepted ∧ l.step a = l) := by
  rcases accept_cases hv a.raw a.arrivedNs a.verified with ⟨f, hstatus, hf, hs⟩ | ⟨hstatus, hs⟩
  · refine .inl ⟨f, hstatus, hf, ?_⟩
    rw [Log.step, hstatus, hf.decoded, hs]
  · refine .inr ⟨hstatus, ?_⟩
    rw [Log.step, hs]
    split
    · exact absurd ‹_› hstatus
    · rfl

theorem Log.conserved_step {l : Log} (hl : l.Conserved) (a : Arrival) : (l.step a).Conserved := by
  rcases Log.step_cases hl.valid a with ⟨f, -, hf, hs⟩ | ⟨-, hs⟩
  · exact hs ▸ Log.conserved_extend hl hf
  · rwa [hs]

/-- **Source accounting is a conservation law over whole runs.** -/
theorem source_accounting_conserved (as : List Arrival) : (Log.run as).Conserved := by
  have h : ∀ (as : List Arrival) (l : Log), l.Conserved → (as.foldl Log.step l).Conserved := by
    intro as
    induction as with
    | nil => intro l hl; exact hl
    | cons a as ih => intro l hl; exact ih _ (Log.conserved_step hl a)
  exact h as Log.empty Log.conserved_empty

end

end SmartHome.Mqtt
