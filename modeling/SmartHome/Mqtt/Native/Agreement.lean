/-
  The plugin and the receiver agree: whatever frames are lost, each frame that arrives is
  accepted, and the receiver's statistics are the plugin's counters.

  The receiver's state after some deliveries is described by the last frame that arrived
  (`Follows`); the rest of the account is the plugin's own (`Live.counts`).
-/
import SmartHome.Mqtt.Native.Counting
import SmartHome.Mqtt.Admission

namespace SmartHome.Mqtt.Native

open Verif

/-- What becomes of a datagram: when it arrives, or `none` if it is lost. -/
structure Delivery where
  sent : Sent
  arrivedNs : Option ℕ

/-- The rows of a kind in the datagrams that arrived. -/
def arrivedRows (ds : List Delivery) (k : Kind) : ℕ :=
  ((ds.filter fun d => d.arrivedNs.isSome).map fun d => d.sent.plugin.rows k).sum

/-- The rows of a kind in the datagrams that were lost. -/
def lostRows (ds : List Delivery) (k : Kind) : ℕ :=
  ((ds.filter fun d => d.arrivedNs.isNone).map fun d => d.sent.plugin.rows k).sum

theorem arrivedRows_add_lostRows (ds : List Delivery) (k : Kind) :
    arrivedRows ds k + lostRows ds k = (ds.map fun d => d.sent.plugin.rows k).sum := by
  induction ds with
  | nil => rfl
  | cons d ds ih =>
    cases h : d.arrivedNs <;> simp [arrivedRows, lostRows, h] at ih ⊢ <;> omega

section
variable [Sha256]

/-- The receiver takes what arrives, in order. -/
def receive (s : Option State) (d : Delivery) : Option State :=
  match d.arrivedNs with
  | none => s
  | some t => (accept s d.sent.raw t true).state

def feed (ds : List Delivery) : Option State := ds.foldl receive none

end

/-- The receiver's state after the deliveries `ds`, seen from the last frame that arrived. -/
structure Follows (ds : List Delivery) (s : State) (pre : List Sent) (d : Sent) (post : List Sent) :
    Prop where
  split : ds.map Delivery.sent = pre ++ d :: post
  recorded : Recorded pre d
  valid : s.Valid
  source : s.source = d.plugin.source
  epoch : s.epoch = 1
  startedNs : s.startedNs = d.plugin.started
  sourceClosed : s.sourceClosed = d.plugin.final
  wire : s.lastSourceWireVersion = 3
  lastFrameSeq : s.lastFrameSeq = d.plugin.frameSeq + 1
  lastEventSeq : s.lastEventSeq = d.plugin.eventSeq
  lastTotals : s.lastTotals = d.plugin.total
  lastSourceDropped : s.lastSourceDropped = d.plugin.dropped
  lastReaderNs : ∃ e ∈ ds, e.arrivedNs = some s.lastReaderNs
  lastEmittedNs : s.lastEmittedNs = some d.plugin.lastAttempt
  lastCovered : ∀ c ∈ s.lastCoveredBeforeNs, c ≤ d.plugin.lastAttempt
  clockFaults : s.clockFaults = d.plugin.clockFaults
  sendFailures : s.sendFailures = d.plugin.sendFailures
  reportGaps : s.reportGaps ≤ s.lastFrameSeq
  expected : ∀ k, (s.stats k).col .expected = d.plugin.total k
  sourceDropped : ∀ k, (s.stats k).col .sourceDropped = d.plugin.dropped k
  observed : ∀ k, (s.stats k).col .observed = arrivedRows ds k

/-! ## The frame that arrives -/

namespace Sent

/-- The frame in a datagram. -/
def frame (a : Sent) : Frame := a.plugin.frame a.coveredBeforeNs a.plugin.lastAttempt

end Sent

section
variable {sent pre post : List Sent} {a d : Sent} {ds : List Delivery} {s : State} {t : ℕ}

theorem Recorded.decode (h : Recorded sent a) : decode a.raw = .ok a.frame := by
  rw [h.raw]
  exact Plugin.decode_json h.live.sound h.stamped

theorem length_rowsOf_frame (a : Sent) (k : Kind) : (a.frame.rowsOf k).length = a.plugin.rows k :=
  a.frame.length_rowsOf k

/-- The checks of a frame on its own clock. -/
theorem Recorded.clocks (h : Recorded sent a) (ht : a.plugin.lastAttempt ≤ t) :
    (∀ b ∈ a.plugin.started, b ≤ t ∧ b ≤ a.plugin.lastAttempt) ∧
      ∀ r ∈ a.plugin.pending, ∀ n ∈ r.atNs, n ≤ t ∧ n ≤ a.plugin.lastAttempt ∧
        ∀ b ∈ a.plugin.started, b ≤ n := by
  refine ⟨fun b hb => ⟨(h.live.started b hb).trans ht, h.live.started b hb⟩, fun r hr n hn => ?_⟩
  obtain ⟨h1, h2⟩ := h.live.stamps r hr n hn
  exact ⟨h1.trans ht, h1, h2⟩

/-- The first frame that arrives. -/
theorem Recorded.admits_first (h : Recorded sent a) (ht : a.plugin.lastAttempt ≤ t) :
    a.frame.Admits none t := by
  obtain ⟨hstart, hstamps⟩ := h.clocks ht
  have hcounts : ∀ k, a.plugin.rows k + a.plugin.dropped k ≤ a.plugin.total k := by
    intro k
    have := h.live.counts k
    omega
  refine ⟨nofun, nofun, Nat.succ_pos _, Nat.zero_le _, nofun, nofun, nofun, nofun, ?_, ?_, nofun,
    fun k => ⟨Nat.zero_le _, Nat.zero_le _⟩, fun r hr => (h.live.sound.bounded r hr).1, ?_, ?_,
    h.live.startFault, .inl rfl, fun k => ?_, ?_⟩
  · rintro e ⟨⟩
    exact ht
  · rintro b hb
    refine ⟨(hstart b hb).1, ?_⟩
    rintro e ⟨⟩
    exact (hstart b hb).2
  · intro r hr n hn
    refine ⟨(hstamps r hr n hn).1, ?_, (hstamps r hr n hn).2.2⟩
    rintro e ⟨⟩
    exact (hstamps r hr n hn).2.1
  · exact (Nat.zero_add _).trans_le h.live.unknown
  · rw [length_rowsOf_frame]
    exact hcounts k
  · intro hseq k
    have hlen : sent.length = 0 := by
      have h1 : a.plugin.frameSeq + 1 = 0 + 1 := hseq
      have h2 := h.live.frames
      omega
    have := h.live.counts k
    rw [List.length_eq_zero_iff.1 hlen] at this
    rw [Frame.missing, length_rowsOf_frame]
    simp only [Frame.delta, Frame.sourceDrop, Sent.frame, Plugin.frame, Option.elim_none,
      List.map_nil, List.sum_nil] at this ⊢
    omega

/-- A later frame that arrives. -/
theorem Follows.admits_next (hf : Follows ds s pre d post)
    (h : Recorded (ds.map Delivery.sent) a) (ht : a.plugin.lastAttempt ≤ t)
    (harr : s.lastReaderNs ≤ t) : a.frame.Admits (some s) t := by
  obtain ⟨hstart, hstamps⟩ := h.clocks ht
  have hsince : Since d.plugin a.plugin := h.live.since d (by rw [hf.split]; simp)
  have hcounts : ∀ k, a.plugin.total k + d.plugin.dropped k = a.plugin.dropped k + d.plugin.total k +
      (post.map fun b => b.plugin.rows k).sum + a.plugin.rows k := by
    intro k
    have h1 := h.live.counts k
    have h2 := hf.recorded.live.counts k
    rw [hf.split, List.map_append, List.map_cons, List.sum_append, List.sum_cons] at h1
    omega
  have hdelta : ∀ k, a.frame.delta (some s) k = a.plugin.total k - d.plugin.total k := by
    intro k
    simp only [Frame.delta, Option.elim_some, hf.lastTotals]
    rfl
  have hdrop : ∀ k, a.frame.sourceDrop (some s) k = a.plugin.dropped k - d.plugin.dropped k := by
    intro k
    simp only [Frame.sourceDrop, Option.elim_some, hf.lastSourceDropped]
    rfl
  constructor
  case opened => rintro p ⟨⟩; exact hf.sourceClosed.trans hsince.opened
  case wire => rintro p ⟨⟩; exact hf.wire.le
  case frameSeq =>
    rw [Option.elim_some, hf.lastFrameSeq]
    exact Nat.succ_lt_succ hsince.frameSeq
  case eventSeq => rw [Option.elim_some, hf.lastEventSeq]; exact hsince.eventSeq
  case reader => rintro p ⟨⟩; exact harr
  case faults =>
    rintro p ⟨⟩
    rw [hf.clockFaults, hf.sendFailures]
    exact ⟨(Nat.le_add_right _ _).trans hsince.faults, hsince.failures⟩
  case emitted =>
    rintro p ⟨⟩ e ⟨⟩ l hl
    rw [hf.lastEmittedNs] at hl
    cases hl
    exact hsince.attempt
  case covered =>
    rintro p ⟨⟩ c hc l hl
    exact (hf.lastCovered l hl).trans (h.after c hc d (by rw [hf.split]; simp))
  case emittedPast => rintro e ⟨⟩; exact ht
  case startedPast =>
    intro b hb
    refine ⟨(hstart b hb).1, ?_⟩
    rintro e ⟨⟩
    exact (hstart b hb).2
  case started => rintro p ⟨⟩; exact hsince.started.trans hf.startedNs.symm
  case totals =>
    intro k
    rw [Option.elim_some, Option.elim_some, hf.lastTotals, hf.lastSourceDropped]
    exact ⟨hsince.total k, hsince.dropped k⟩
  case fresh =>
    intro r hr
    rw [Option.elim_some, hf.lastEventSeq]
    exact hsince.fresh r hr
  case stamps =>
    intro r hr n hn
    refine ⟨(hstamps r hr n hn).1, ?_, (hstamps r hr n hn).2.2⟩
    rintro e ⟨⟩
    exact (hstamps r hr n hn).2.1
  case clocks => rw [Option.elim_some, hf.clockFaults]; exact hsince.faults
  case startedFault => exact h.live.startFault
  case emittedFault => exact .inl rfl
  case counts =>
    intro k
    have h1 := hcounts k
    have h2 := hsince.total k
    have h3 := hsince.dropped k
    rw [length_rowsOf_frame, hdelta, hdrop]
    omega
  case consecutive =>
    -- the frame follows `d` at once, so no frame was sent between them
    intro hseq k
    have hpost : post = [] := by
      rw [Option.elim_some, hf.lastFrameSeq] at hseq
      have h1 : a.plugin.frameSeq = (ds.map Delivery.sent).length := h.live.frames
      have h2 : d.plugin.frameSeq = pre.length := hf.recorded.live.frames
      have h3 : a.plugin.frameSeq + 1 = d.plugin.frameSeq + 1 + 1 := hseq
      rw [hf.split, List.length_append, List.length_cons] at h1
      exact List.length_eq_zero_iff.1 (by omega)
    have h1 := hcounts k
    have h2 := hsince.total k
    have h3 := hsince.dropped k
    rw [Frame.missing, length_rowsOf_frame, hdelta, hdrop]
    rw [hpost, List.map_nil, List.sum_nil] at h1
    omega

/-! ## The state after it -/

theorem arrivedRows_concat (ds : List Delivery) (a : Sent) (t : ℕ) (k : Kind) :
    arrivedRows (ds ++ [⟨a, some t⟩]) k = arrivedRows ds k + a.plugin.rows k := by
  simp [arrivedRows, List.filter_append]

theorem arrivedRows_lost (ds : List Delivery) (a : Sent) (k : Kind) :
    arrivedRows (ds ++ [⟨a, none⟩]) k = arrivedRows ds k := by
  simp [arrivedRows, List.filter_append]

theorem arrivedRows_none (h : ∀ d ∈ ds, d.arrivedNs = none) (k : Kind) : arrivedRows ds k = 0 := by
  have : ds.filter (fun d => d.arrivedNs.isSome) = [] :=
    List.filter_eq_nil_iff.2 fun d hd => by simp [h d hd]
  rw [arrivedRows, this]; rfl

section
variable [Sha256]

/-- The first frame that arrives is accepted. -/
theorem Recorded.accepted_first (h : Recorded (ds.map Delivery.sent) a)
    (hlost : ∀ d ∈ ds, d.arrivedNs = none) (ht : a.plugin.lastAttempt ≤ t) (hw : t < 2 ^ 64) :
    ∃ n, accept none a.raw t true = ⟨.accepted, none, some n, false⟩ ∧
      Follows (ds ++ [⟨a, some t⟩]) n (ds.map Delivery.sent) a [] := by
  have hd := decode_ok h.decode
  have ha := h.admits_first ht
  have hseq : a.plugin.frameSeq + 1 < 2 ^ 64 := hd.frameSeq.2
  have hfit : (a.frame.nextState none none (sha256 a.raw) t).Fits := by
    refine ⟨by norm_num [Frame.nextState], ?_, by norm_num [Frame.nextState],
      by norm_num [Frame.nextState], by norm_num [Frame.nextState], by norm_num [Frame.nextState],
      fun k c => ?_, fun k c => by norm_num [Frame.nextState, Row.zero]⟩
    · simp only [Frame.nextState, Option.elim_none, Sent.frame, Plugin.frame]
      omega
    · have := (Frame.batch_valid hd ha hw k).count c
      simpa [Frame.nextState, Row.add, Row.zero] using this
  have hprior : ∀ p ∈ (none : Option State), ∀ c ∈ p.lastCoveredBeforeNs, ∀ e ∈ a.frame.emittedNs,
      c ≤ e := by rintro p ⟨⟩
  have hvalid := Frame.nextState_valid .first (by rintro p ⟨⟩) hd ha hw hprior hfit
  refine ⟨_, accept_accepted (by rintro p ⟨⟩) hw h.decode ha (by rintro p ⟨⟩) hfit, ?_⟩
  refine ⟨by simp, h, hvalid, rfl, rfl, rfl, rfl, rfl, rfl, rfl, rfl, rfl, ?_, rfl, ?_, rfl, rfl,
    ?_, fun k => ?_, fun k => ?_, fun k => ?_⟩
  · exact ⟨⟨a, some t⟩, by simp, rfl⟩
  · intro c hc
    have hcov : c ∈ a.coveredBeforeNs := by
      simpa [Frame.prior, Frame.nextState, Sent.frame, Plugin.frame] using hc
    exact (h.stamped.stamp c hcov).1
  · simp [Frame.prior, Frame.nextState]
  · simp [Frame.prior, Frame.nextState, Row.add, Row.zero, Frame.batch, Frame.delta, Sent.frame,
      Plugin.frame]
  · simp [Frame.prior, Frame.nextState, Row.add, Row.zero, Frame.batch, Frame.sourceDrop,
      Sent.frame, Plugin.frame]
  · rw [arrivedRows_concat, arrivedRows_none hlost]
    simp [Frame.prior, Frame.nextState, Row.add, Row.zero, Frame.batch, length_rowsOf_frame]

/-- A later frame that arrives is accepted. -/
theorem Follows.accepted_next (hf : Follows ds s pre d post)
    (h : Recorded (ds.map Delivery.sent) a) (ht : a.plugin.lastAttempt ≤ t) (hw : t < 2 ^ 64)
    (harr : s.lastReaderNs ≤ t) :
    ∃ n, accept (some s) a.raw t true = ⟨.accepted, none, some n, false⟩ ∧
      Follows (ds ++ [⟨a, some t⟩]) n (ds.map Delivery.sent) a [] := by
  have hd := decode_ok h.decode
  have ha := hf.admits_next h ht harr
  have hv : ∀ p ∈ some s, p.Valid := by rintro p ⟨⟩; exact hf.valid
  have hsince : Since d.plugin a.plugin := h.live.since d (by rw [hf.split]; simp)
  have hsource : s.source = a.frame.source := hf.source.trans hsince.source.symm
  have hseq : a.plugin.frameSeq + 1 < 2 ^ 64 := hd.frameSeq.2
  have hstamp : ∀ p ∈ some s, ∀ c ∈ p.lastCoveredBeforeNs, ∀ e ∈ a.frame.emittedNs, c ≤ e := by
    rintro p ⟨⟩ c hc e ⟨⟩
    exact (hf.lastCovered c hc).trans hsince.attempt
  obtain ⟨hgaps, hfaults, hfails, hpast⟩ := hf.valid.firstEpoch hf.epoch
  have htails : s.unknownEpochTails = 0 := by
    have := hf.valid.tails_le.1
    rw [hf.epoch] at this
    omega
  have hexpected : ∀ k, (s.stats k).col .expected + a.frame.delta (some s) k = a.plugin.total k := by
    intro k
    have h1 : s.lastTotals k ≤ a.plugin.total k := (ha.totals k).1
    simp only [Frame.delta, Option.elim_some, Sent.frame, Plugin.frame, hf.expected]
    rw [hf.lastTotals] at h1 ⊢
    omega
  have hfit : (a.frame.nextState (some s) (some s) (sha256 a.raw) t).Fits := by
    refine ⟨hf.valid.epoch.1, ?_, hf.valid.pastReportGaps, hf.valid.pastClockFaults,
      hf.valid.pastSendFailures, hf.valid.unknownEpochTails, fun k c => ?_, fun k c => ?_⟩
    · have h1 := hf.reportGaps
      have h2 : s.lastFrameSeq < a.plugin.frameSeq + 1 := ha.frameSeq
      simp only [Frame.nextState, Option.elim_some, Sent.frame, Plugin.frame]
      omega
    · have h1 := (hf.valid.stats k).le_expected c
      have h2 := (Frame.batch_valid hd ha hw k).le_expected c
      have h3 := hexpected k
      have h4 := h.live.sound.total k
      have h5 : (a.frame.batch (some s) t k).col .expected = a.frame.delta (some s) k := rfl
      simp only [Frame.nextState, Option.elim_some, Row.add]
      unfold uint64Max at h4
      omega
    · exact (hf.valid.pastStats k).count c
  have hvalid := Frame.nextState_valid (.same s) hv hd ha hw hstamp hfit
  have hacc := accept_accepted hv hw h.decode
    (by rw [Frame.prior_same hsource]; exact ha) (by rw [Frame.prior_same hsource]; exact hstamp)
    (by rw [Frame.prior_same hsource]; exact hfit)
  rw [Frame.prior_same hsource] at hacc
  refine ⟨_, hacc, ?_⟩
  refine ⟨by simp, h, hvalid, rfl, hf.epoch, rfl, rfl, rfl, rfl, rfl, rfl, rfl, ?_, rfl, ?_, rfl,
    rfl, ?_, hexpected, fun k => ?_, fun k => ?_⟩
  · exact ⟨⟨a, some t⟩, by simp, rfl⟩
  · intro c hc
    have hc' : c ∈ a.coveredBeforeNs.or s.lastCoveredBeforeNs := by
      simpa [Frame.nextState, Sent.frame, Plugin.frame] using hc
    cases hcov : a.coveredBeforeNs with
    | some e =>
      rw [hcov, Option.some_or] at hc'
      cases hc'
      exact (h.stamped.stamp c hcov).1
    | none =>
      rw [hcov, Option.none_or] at hc'
      exact (hf.lastCovered c hc').trans hsince.attempt
  · have h1 := hf.reportGaps
    have h2 : s.lastFrameSeq < a.plugin.frameSeq + 1 := ha.frameSeq
    simp only [Frame.nextState, Option.elim_some, Sent.frame, Plugin.frame]
    omega
  · have h1 : s.lastSourceDropped k ≤ a.plugin.dropped k := (ha.totals k).2
    simp only [Frame.nextState, Option.elim_some, Row.add, Frame.batch, Frame.sourceDrop, Sent.frame,
      Plugin.frame, hf.sourceDropped]
    rw [hf.lastSourceDropped] at h1 ⊢
    omega
  · rw [arrivedRows_concat]
    simp only [Frame.nextState, Option.elim_some, Row.add, Frame.batch, length_rowsOf_frame,
      hf.observed]

/-! ## Runs -/

/-- The receiver after some deliveries: nothing has arrived yet, or its state follows the last
    frame that has. -/
def Agrees (ds : List Delivery) (s : Option State) : Prop :=
  (s = none ∧ ∀ d ∈ ds, d.arrivedNs = none) ∨
    ∃ n pre d post, s = some n ∧ Follows ds n pre d post

omit [Sha256] in
/-- A further frame is lost. -/
theorem Agrees.lost {s : Option State} (h : Agrees ds s) (a : Sent) :
    Agrees (ds ++ [⟨a, none⟩]) s := by
  rcases h with ⟨rfl, hlost⟩ | ⟨n, pre, d, post, rfl, hf⟩
  · refine .inl ⟨rfl, fun d hd => ?_⟩
    rcases List.mem_append.1 hd with hd | hd
    · exact hlost d hd
    · rw [List.mem_singleton.1 hd]
  · refine .inr ⟨n, pre, d, post ++ [a], rfl, { hf with split := ?_, lastReaderNs := ?_, observed := ?_ }⟩
    · simp [hf.split]
    · obtain ⟨e, he, hr⟩ := hf.lastReaderNs
      exact ⟨e, List.mem_append_left _ he, hr⟩
    · intro k
      rw [arrivedRows_lost, hf.observed]

/-- A further frame arrives. -/
theorem Agrees.arrived {s : Option State} (h : Agrees ds s)
    (ha : Recorded (ds.map Delivery.sent) a) (ht : a.plugin.lastAttempt ≤ t) (hw : t < 2 ^ 64)
    (harr : ∀ d ∈ ds, ∀ u ∈ d.arrivedNs, u ≤ t) :
    ∃ n, accept s a.raw t true = ⟨.accepted, none, some n, false⟩ ∧
      Follows (ds ++ [⟨a, some t⟩]) n (ds.map Delivery.sent) a [] := by
  rcases h with ⟨rfl, hlost⟩ | ⟨n, pre, d, post, rfl, hf⟩
  · exact ha.accepted_first hlost ht hw
  · obtain ⟨e, he, hr⟩ := hf.lastReaderNs
    exact hf.accepted_next ha ht hw (harr e he _ hr)

omit [Sha256] in
/-- What the receiver's state says about the rows that were lost. -/
theorem Follows.lost (hf : Follows (ds ++ [⟨a, some t⟩]) s (ds.map Delivery.sent) a []) (k : Kind) :
    (s.stats k).col .transportMissing = lostRows ds k := by
  have h1 := (hf.valid.stats k).expected
  have h2 := (hf.valid.stats k).missing
  have h3 := hf.recorded.live.counts k
  have h4 := arrivedRows_add_lostRows ds k
  have h5 := hf.observed k
  rw [hf.expected, h2, hf.sourceDropped, h5, arrivedRows_concat] at h1
  rw [List.map_map, Function.comp_def] at h3
  omega

end

end

/-- Deliveries in order: nothing arrives before it was sent, or before what was sent earlier. -/
structure InOrder (ds : List Delivery) : Prop where
  order : (ds.filterMap Delivery.arrivedNs).Pairwise (· ≤ ·)
  late : ∀ d ∈ ds, ∀ t ∈ d.arrivedNs, d.sent.plugin.lastAttempt ≤ t ∧ t < 2 ^ 64

theorem InOrder.initial {ds es : List Delivery} (h : InOrder (ds ++ es)) : InOrder ds where
  order := by
    have := h.order
    rw [List.filterMap_append, List.pairwise_append] at this
    exact this.1
  late d hd := h.late d (List.mem_append_left _ hd)

/-- What arrived before is not later. -/
theorem InOrder.arrived_le {ds : List Delivery} {a : Sent} {t : ℕ} (h : InOrder (ds ++ [⟨a, some t⟩])) :
    ∀ d ∈ ds, ∀ u ∈ d.arrivedNs, u ≤ t := by
  intro d hd u hu
  have := h.order
  rw [List.filterMap_append, List.pairwise_append] at this
  exact this.2.2 u (List.mem_filterMap.2 ⟨d, hd, hu⟩) t (by simp)

theorem Logged.snoc_iff {sent : List Sent} {a : Sent} :
    Logged (sent ++ [a]) ↔ Logged sent ∧ Recorded sent a := by
  constructor
  · intro h
    generalize hs : sent ++ [a] = l at h
    cases h with
    | nil => simp at hs
    | snoc h ha =>
      obtain ⟨rfl, h1⟩ := List.append_inj' hs rfl
      cases h1
      exact ⟨h, ha⟩
  · rintro ⟨h, ha⟩
    exact h.snoc ha

theorem Logged.of_append {sent sent' : List Sent} (h : Logged (sent ++ sent')) : Logged sent := by
  induction sent' using List.reverseRecOn with
  | nil => rwa [List.append_nil] at h
  | append_singleton l a ih =>
    rw [← List.append_assoc, Logged.snoc_iff] at h
    exact ih h.1

section
variable [Sha256]

/-- The receiver agrees with the plugin after every delivery. -/
theorem agrees_feed {ds : List Delivery} (hl : Logged (ds.map Delivery.sent)) (h : InOrder ds) :
    Agrees ds (feed ds) := by
  induction ds using List.reverseRecOn with
  | nil => exact .inl ⟨rfl, nofun⟩
  | append_singleton ds d ih =>
    rw [List.map_append, List.map_singleton, Logged.snoc_iff] at hl
    have hds := ih hl.1 h.initial
    rw [feed, List.foldl_append, ← feed, List.foldl_cons, List.foldl_nil]
    obtain ⟨a, o⟩ := d
    cases o with
    | none => exact hds.lost a
    | some t =>
      have ht := h.late ⟨a, some t⟩ (by simp) t rfl
      obtain ⟨n, hn, hf⟩ := hds.arrived hl.2 ht.1 ht.2 h.arrived_le
      refine .inr ⟨n, _, a, [], ?_, hf⟩
      simp only [receive, hn]

/-- **The native sender and the receiver agree on every run.** -/
theorem native_sender_agrees (i : Startup) (ops : List Op)
    (hclock : (i.readings ++ ops.flatMap Op.readings).Pairwise (· ≤ ·)) (ds : List Delivery)
    (hds : ds.map Delivery.sent = (World.run i ops).sent) (horder : InOrder ds) :
    (∀ a ∈ (World.run i ops).sent, a.raw.length ≤ maxFrameBytes ∧ ∃ f, decode a.raw = .ok f ∧
      f.emittedNs = some a.plugin.lastAttempt ∧ f.events = a.plugin.pending ∧
        f.events.length ≤ maxEvents) ∧
    ∀ pre d post, ds = pre ++ d :: post → ∀ t ∈ d.arrivedNs, ∃ s,
      accept (feed pre) d.sent.raw t true = ⟨.accepted, none, some s, false⟩ ∧ ∀ k,
        (s.stats k).col .expected = d.sent.plugin.total k ∧
        (s.stats k).col .sourceDropped = d.sent.plugin.dropped k ∧
        (s.stats k).col .observed = arrivedRows (pre ++ [d]) k ∧
        (s.stats k).col .transportMissing = lostRows pre k ∧
        (s.stats k).col .expected - (s.stats k).col .sourceDropped - (s.stats k).col .observed =
          lostRows pre k := by
  obtain ⟨clock, hkept⟩ := kept_run hclock
  have hlog := hkept.logged
  constructor
  · intro a ha
    obtain ⟨pre, post, hsplit⟩ := List.append_of_mem ha
    rw [hsplit, List.append_cons] at hlog
    have hrec := (Logged.snoc_iff.1 hlog.of_append).2
    refine ⟨?_, a.frame, hrec.decode, rfl, rfl, hrec.live.sound.rows⟩
    have := Plugin.length_json hrec.live.sound hrec.stamped
    rw [hrec.raw, ascii, List.length_map, maxFrameBytes]
    omega
  · rintro pre ⟨a, o⟩ post hsplit t ⟨⟩
    rw [← hds, hsplit, List.append_cons, List.map_append, List.map_append] at hlog
    obtain ⟨hpre, ha⟩ := Logged.snoc_iff.1 hlog.of_append
    rw [hsplit, List.append_cons] at horder
    have hone := horder.initial
    have ht := hone.late ⟨a, some t⟩ (by simp) t rfl
    obtain ⟨n, hn, hf⟩ := (agrees_feed hpre hone.initial).arrived ha ht.1 ht.2 hone.arrived_le
    refine ⟨n, hn, fun k => ⟨hf.expected k, hf.sourceDropped k, hf.observed k, hf.lost k, ?_⟩⟩
    have h1 := (hf.valid.stats k).expected
    have h2 := (hf.valid.stats k).missing
    rw [← hf.lost k]
    omega

end

/-! ## A run -/

/-- A start at the given second, with an attempt that sends the first frame. -/
def Startup.at (sec : ℤ) (a : Attempt) : Startup where
  identifier := true
  count := 0
  allowed := true
  lockFree := true
  random := some fun _ => 0
  socket := true
  registered := true
  clock := ⟨true, sec, 0⟩
  locked := false
  attempt := a

/-- An attempt at the given second. -/
def Attempt.at (sec : ℤ) (callbacks : ℕ) (outcome : Outcome) : Attempt where
  clock := ⟨true, sec, 0⟩
  allowed := true
  early := []
  late := []
  callbacks := callbacks
  outcome := outcome

/-- A publication, a connection whose frame fails to be sent, and the end. -/
def shortRun : List Op :=
  [.callback ⟨.observed .publishIn, true, ⟨true, 3, 0⟩⟩ (.at 3 1 .sent),
    .contended ⟨.observed .publishOut, true, ⟨true, 3, 0⟩⟩,
    .callback ⟨.observed .connect, true, ⟨true, 4, 0⟩⟩ (.at 4 1 .failed),
    .cleanup ⟨⟨true, 5, 0⟩, false, true, .at 5 0 .sent⟩]

/-- The frames of the short run, of which the second is lost. -/
def shortDeliveries : List Delivery :=
  (World.run (.at 1 (.at 2 0 .sent)) shortRun).sent.map fun a =>
    ⟨a, if a.plugin.frameSeq = 1 then none else some (a.plugin.lastAttempt + 1)⟩

theorem shortDeliveries_run : shortDeliveries.length = 3 ∧
    (shortDeliveries.filterMap Delivery.arrivedNs).Pairwise (· ≤ ·) ∧
    ∀ d ∈ shortDeliveries, d.arrivedNs.all fun t => d.sent.plugin.lastAttempt ≤ t ∧ t < 2 ^ 64 := by
  decide +kernel

theorem inOrder_shortDeliveries : InOrder shortDeliveries where
  order := shortDeliveries_run.2.1
  late := by
    intro d hd t ht
    have := shortDeliveries_run.2.2 d hd
    rw [Option.mem_def.1 ht] at this
    simpa using this

theorem native_sender_agrees_shortRun : shortDeliveries.length = 3 ∧
    ∀ pre d post, shortDeliveries = pre ++ d :: post → ∀ t ∈ d.arrivedNs, ∃ s,
      @accept zeroHash (@feed zeroHash pre) d.sent.raw t true = ⟨.accepted, none, some s, false⟩ ∧
        ∀ k, (s.stats k).col .expected = d.sent.plugin.total k ∧
          (s.stats k).col .transportMissing = lostRows pre k := by
  refine ⟨shortDeliveries_run.1, fun pre d post h t ht => ?_⟩
  have hds : shortDeliveries.map Delivery.sent =
      (World.run (.at 1 (.at 2 0 .sent)) shortRun).sent := by
    rw [shortDeliveries, List.map_map]
    exact List.map_id _
  obtain ⟨s, hs, hk⟩ := (@native_sender_agrees zeroHash (.at 1 (.at 2 0 .sent)) shortRun
    (by decide +kernel) shortDeliveries hds inOrder_shortDeliveries).2 pre d post h t ht
  exact ⟨s, hs, fun k => ⟨(hk k).1, (hk k).2.2.2.1⟩⟩

end SmartHome.Mqtt.Native
