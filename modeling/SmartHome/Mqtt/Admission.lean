/-
  When `accept` takes a frame.  `accept` validates the state that it has built; this module
  shows that the validation adds nothing to the checks of the frame as long as the sums stay
  below `2 ^ 128` (`Frame.nextState_valid`), so an admitted frame is accepted
  (`accept_accepted`).
-/
import SmartHome.Mqtt.Accept
import Mathlib.Algebra.Order.BigOperators.Group.Finset

namespace SmartHome.Mqtt

open Verif

namespace Row

theorem Valid.add {a b : Row} (ha : a.Valid) (hb : b.Valid)
    (h : ∀ c, (a.add b).col c < 2 ^ 128) : (a.add b).Valid where
  count := h
  expected := by
    have h1 := ha.expected; have h2 := hb.expected
    simp only [Row.add]; omega
  observed := by
    have h1 := ha.observed; have h2 := hb.observed
    simp only [Row.add]; omega
  missing := by
    have h1 := ha.missing; have h2 := hb.missing
    simp only [Row.add]; omega
  maximum := by
    rcases ha.maximum with ⟨hm, ht⟩ | ⟨m, hm, hw, ht⟩ <;>
      rcases hb.maximum with ⟨hm', ht'⟩ | ⟨m', hm', hw', ht'⟩
    · exact .inl ⟨by simp [Row.add, hm, hm', maxOpt], by simp [Row.add, ht, ht']⟩
    · rw [Option.mem_def] at hm'
      exact .inr ⟨m', by simp [Row.add, hm, hm', maxOpt], hw', by simp [Row.add]; omega⟩
    · rw [Option.mem_def] at hm
      exact .inr ⟨m, by simp [Row.add, hm, hm', maxOpt], hw, by simp [Row.add]; omega⟩
    · rw [Option.mem_def] at hm hm'
      exact .inr ⟨max m m', by simp [Row.add, hm, hm', maxOpt], max_lt hw hw',
        by simp [Row.add]; omega⟩

/-- The expected events of a row bound all its columns. -/
theorem Valid.le_expected {r : Row} (h : r.Valid) (c : Column) : r.col c ≤ r.col .expected := by
  have h1 := h.expected; have h2 := h.observed; have h3 := h.missing
  cases c <;> omega

theorem valid_zero : zero.Valid where
  count _ := by simp [zero]
  expected := rfl
  observed := rfl
  missing := rfl
  maximum := .inl ⟨rfl, rfl⟩

end Row

namespace Frame
variable {f : Frame} {previous : Option State} {digest : Hex 64} {arrivedNs : ℕ}

/-- The statistics of an admitted frame are consistent. -/
theorem batch_valid {prior : Option State} (hd : f.Decoded) (ha : f.Admits prior arrivedNs)
    (harr : arrivedNs < 2 ^ 64) (k : Kind) : (f.batch prior arrivedNs k).Valid := by
  have hcount := ha.counts k
  have hlat := f.length_latencies_le arrivedNs k
  have hdelta : f.delta prior k < 2 ^ 64 := by
    have h1 : f.totals k ≤ ∑ j, f.totals j :=
      Finset.single_le_sum (fun _ _ => Nat.zero_le _) (Finset.mem_univ k)
    have := hd.totals; have := hd.eventSeq
    unfold delta; omega
  refine ⟨fun c => ?_, ?_, ?_, ?_, ?_⟩
  · cases c <;> simp only [batch, missing] <;> omega
  · simp only [batch, missing]; omega
  · simp only [batch]; omega
  · simp only [batch, missing]; omega
  · simp only [batch]
    cases hl : f.latencies arrivedNs k with
    | nil => exact .inl ⟨rfl, rfl⟩
    | cons m ms =>
      obtain ⟨x, hx⟩ : ∃ x, (m :: ms).max? = some x := ⟨_, List.max?_cons'⟩
      have hmem : x ∈ f.latencies arrivedNs k := hl ▸ List.max?_mem hx
      have hle := f.latencies_le x hmem
      exact .inr ⟨x, hx, by omega, Nat.succ_pos _⟩

end Frame

/-- The sums of a state that the checks of a frame do not bound. -/
structure State.Fits (s : State) : Prop where
  epoch : s.epoch < 2 ^ 128
  reportGaps : s.reportGaps < 2 ^ 128
  pastReportGaps : s.pastReportGaps < 2 ^ 128
  pastClockFaults : s.pastClockFaults < 2 ^ 128
  pastSendFailures : s.pastSendFailures < 2 ^ 128
  unknownEpochTails : s.unknownEpochTails < 2 ^ 128
  stats : ∀ k c, (s.stats k).col c < 2 ^ 128
  pastStats : ∀ k c, (s.pastStats k).col c < 2 ^ 128

/-- How many epochs of unknown end a valid state may have, whatever its version. -/
theorem State.Valid.tails_le {s : State} (h : s.Valid) : s.unknownEpochTails ≤ s.epoch - 1 ∧
    if s.epoch = 1 then s.previousEpochTailUnknown = false
    else if s.previousEpochTailUnknown then 0 < s.unknownEpochTails
    else s.unknownEpochTails ≤ s.epoch - 2 := by
  have ht := h.tails
  have hpos := h.epoch.2
  unfold State.TailsValid at ht
  by_cases hv : s.version = 2
  · rw [if_pos hv] at ht
    obtain ⟨h1, h2⟩ := ht
    refine ⟨h1.le, ?_⟩
    by_cases he : s.epoch = 1
    · rw [if_pos he]
      cases hb : s.previousEpochTailUnknown with
      | false => rfl
      | true => have := h2.1 hb; omega
    · have hb := h2.2 (by omega)
      rw [if_neg he, if_pos hb]
      omega
  · rwa [if_neg hv] at ht

namespace Frame

/-- How the state before a frame relates to the state of the frame's own source: there is
    none, it is the same, or it is of another source. -/
inductive Meets : Option State → Option State → Prop
  | first : Meets none none
  | same (p : State) : Meets (some p) (some p)
  | other (p : State) : Meets (some p) none

theorem meets_prior (f : Frame) (previous : Option State) : Meets previous (f.prior previous) := by
  cases previous with
  | none => exact .first
  | some p =>
    by_cases hs : p.source = f.source
    · rw [prior_same hs]; exact .same p
    · rw [prior_other hs]; exact .other p

section
variable {f : Frame} {previous prior : Option State} {digest : Hex 64} {arrivedNs : ℕ}

theorem nextState_version (f : Frame) (previous prior : Option State) (digest : Hex 64)
    (arrivedNs : ℕ) : (f.nextState previous prior digest arrivedNs).version = 3 ∨
      (f.nextState previous prior digest arrivedNs).version = 4 := by
  simp only [nextState]
  split_ifs <;> simp

theorem nextState_covered (h : Meets previous prior) (hv : ∀ p ∈ previous, p.Valid)
    (hd : f.Decoded) (ha : f.Admits prior arrivedNs)
    (hstamp : ∀ p ∈ prior, ∀ c ∈ p.lastCoveredBeforeNs, ∀ e ∈ f.emittedNs, c ≤ e) :
    (f.nextState previous prior digest arrivedNs).CoveredValid := by
  unfold State.CoveredValid
  by_cases h4 : (f.nextState previous prior digest arrivedNs).version = 4
  swap
  · rw [if_neg h4]
    simp only [nextState] at h4 ⊢
    rw [if_neg h4]
  rw [if_pos h4]
  intro c hc
  have hc' : c ∈ f.coveredBeforeNs.or (prior.bind State.lastCoveredBeforeNs) := by
    simp only [nextState] at h4 hc
    rwa [if_pos h4] at hc
  cases hcov : f.coveredBeforeNs with
  | some d =>
    rw [hcov, Option.some_or] at hc'
    cases hc'
    obtain ⟨hw, hlt, ⟨e, he, hce⟩, hst⟩ := hd.covered c hcov
    refine ⟨hlt, hw, hce.trans (ha.emittedPast e he), ?_, hst⟩
    intro e' he'
    obtain rfl : e = e' := Option.some.inj (he.symm.trans he')
    exact hce
  | none =>
    rw [hcov, Option.none_or] at hc'
    cases h with
    | first => cases hc'
    | other p => cases hc'
    | same p =>
      have hcp : c ∈ p.lastCoveredBeforeNs := hc'
      have hp := (hv p rfl).covered
      unfold State.CoveredValid at hp
      by_cases hp4 : p.version = 4
      · rw [if_pos hp4] at hp
        obtain ⟨hlt, hwire, hle, -, hst⟩ := hp c hcp
        have hw : p.lastSourceWireVersion ≤ f.wireVersion := ha.wire p rfl
        have h3 := hd.wire
        refine ⟨hlt, ?_, hle.trans (ha.reader p rfl), hstamp p rfl c hcp, ?_⟩
        · show f.wireVersion = 3
          omega
        · show ∀ b ∈ f.startedNs, b ≤ c
          rw [ha.started p rfl]
          exact hst
      · rw [if_neg hp4] at hp
        rw [hp] at hcp
        cases hcp

theorem nextState_tails (h : Meets previous prior) (hv : ∀ p ∈ previous, p.Valid) :
    (f.nextState previous prior digest arrivedNs).TailsValid := by
  have hver : (f.nextState previous prior digest arrivedNs).version ≠ 2 := by
    rcases nextState_version f previous prior digest arrivedNs with h | h <;> omega
  rw [State.TailsValid, if_neg hver]
  cases h with
  | first => simp [nextState]
  | same p =>
    have := (hv p rfl).tails_le
    simpa [nextState] using this
  | other p =>
    obtain ⟨h1, h2⟩ := (hv p rfl).tails_le
    have hpos := (hv p rfl).epoch.2
    cases hc : p.sourceClosed <;> simp [nextState, hc] <;> omega

theorem nextState_summary (h : Meets previous prior) (hv : ∀ p ∈ previous, p.Valid) :
    (f.nextState previous prior digest arrivedNs).SummaryValid := by
  cases h with
  | first => simp [nextState, State.SummaryValid]
  | same p =>
    have := (hv p rfl).summary
    simpa [nextState, State.SummaryValid] using this
  | other p =>
    have hp := hv p rfl
    rintro q ⟨⟩
    exact ⟨hp.epoch.1, hp.epoch.2, Nat.lt_succ_self _, hp.reportGaps, by simp [nextState], hp.stats,
      Nat.le_add_left _ _, Nat.le_add_left _ _⟩

/-- **The state after an admitted frame is valid if its sums fit.** -/
theorem nextState_valid (h : Meets previous prior) (hv : ∀ p ∈ previous, p.Valid)
    (hd : f.Decoded) (ha : f.Admits prior arrivedNs) (harr : arrivedNs < 2 ^ 64)
    (hstamp : ∀ p ∈ prior, ∀ c ∈ p.lastCoveredBeforeNs, ∀ e ∈ f.emittedNs, c ≤ e)
    (hfit : (f.nextState previous prior digest arrivedNs).Fits) :
    (f.nextState previous prior digest arrivedNs).Valid := by
  have hver := nextState_version f previous prior digest arrivedNs
  have hwide : (2 : ℕ) ^ 64 < 2 ^ 128 := by norm_num
  have htotal : ∀ k, f.totals k ≤ f.eventSeq := fun k =>
    (Finset.single_le_sum (fun _ _ => Nat.zero_le _) (Finset.mem_univ k)).trans_eq hd.totals
  have hbatch := batch_valid hd ha harr
  have hwire := hd.wire
  refine ⟨?_, rfl, ?_, nextState_covered h hv hd ha hstamp, ⟨hfit.epoch, ?_⟩,
    ⟨hd.frameSeq.2.trans hwide, hd.frameSeq.1⟩, hd.eventSeq.trans hwide, harr.trans hwide,
    hd.clockFaults.trans hwide, hd.sendFailures.trans hwide, hfit.reportGaps, hfit.pastReportGaps,
    hfit.pastClockFaults, hfit.pastSendFailures, hfit.unknownEpochTails, nextState_tails h hv,
    fun n hn => (hd.startedNs n hn).trans hwide, fun n hn => (hd.emittedNs n hn).trans hwide,
    fun k => ((htotal k).trans_lt hd.eventSeq).trans hwide,
    fun k => (((hd.dropped k).trans (htotal k)).trans_lt hd.eventSeq).trans hwide, hd.totals,
    fun k => ?_, hbatch, fun k => ?_, ?_, nextState_summary h hv⟩
  · omega
  · rw [if_neg (by omega)]
    refine ⟨?_, hd.final⟩
    show f.wireVersion = 1 ∨ f.wireVersion = 2 ∨ _ ∧ f.wireVersion = 3
    rcases hwire with h1 | h1 | h1
    · exact .inl h1
    · exact .inr (.inl h1)
    · exact .inr (.inr ⟨by simp [nextState, h1], h1⟩)
  · cases h with
    | first => exact Nat.one_pos
    | same p => exact (hv p rfl).epoch.2
    | other p => exact Nat.succ_pos _
  · refine Row.Valid.add ?_ (hbatch k) fun c => hfit.stats k c
    cases h with
    | first => exact Row.valid_zero
    | same p => exact (hv p rfl).stats k
    | other p => exact Row.valid_zero
  · cases h with
    | first => exact Row.valid_zero
    | same p => exact (hv p rfl).pastStats k
    | other p =>
      exact ((hv p rfl).pastStats k).add ((hv p rfl).stats k) fun c => hfit.pastStats k c
  · cases h with
    | first => intro _; exact ⟨rfl, rfl, rfl, fun _ _ => rfl⟩
    | same p => simpa [nextState] using (hv p rfl).firstEpoch
    | other p =>
      intro he
      have := (hv p rfl).epoch.2
      simp only [nextState, Option.elim_none, Option.elim_some] at he
      omega

end

end Frame

section
variable [Sha256]

/-- **An admitted frame whose sums fit is accepted.** -/
theorem accept_accepted {previous : Option State} {raw : Bytes} {arrivedNs : ℕ} {f : Frame}
    (hv : ∀ p ∈ previous, p.Valid) (harr : arrivedNs < 2 ^ 64) (hdec : decode raw = .ok f)
    (ha : f.Admits (f.prior previous) arrivedNs)
    (hstamp : ∀ p ∈ f.prior previous, ∀ c ∈ p.lastCoveredBeforeNs, ∀ e ∈ f.emittedNs, c ≤ e)
    (hfit : (f.nextState previous (f.prior previous) (sha256 raw) arrivedNs).Fits) :
    accept previous raw arrivedNs true =
      ⟨.accepted, none, some (f.nextState previous (f.prior previous) (sha256 raw) arrivedNs),
        false⟩ := by
  have hvalid := Frame.nextState_valid (f.meets_prior previous) hv (decode_ok hdec) ha harr hstamp hfit
  have hnew : ¬ ∃ p ∈ f.prior previous, f.frameSeq = p.lastFrameSeq := by
    rintro ⟨p, hp, he⟩
    have := ha.frameSeq
    rw [Option.mem_def.1 hp, Option.elim_some] at this
    omega
  have h : acceptValid previous raw arrivedNs true = .ok (.accepted,
      some (f.nextState previous (f.prior previous) (sha256 raw) arrivedNs)) := by
    simp only [acceptValid, bind_ok, need_eq_ok, exists_unit]
    refine ⟨trivial, harr, f, hdec, ?_⟩
    rw [← Frame.prior, if_neg hnew]
    simp only [bind_ok, need_eq_ok, exists_unit, pure_ok, Frame.check_ok]
    exact ⟨ha, hvalid, trivial⟩
  rw [accept, if_pos hv, h]

end

end SmartHome.Mqtt
