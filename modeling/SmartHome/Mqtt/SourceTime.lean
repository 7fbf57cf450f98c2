/-
  Source time over whole runs of `accept`: whether the known emission times of the accepted
  frames of an instance ever run backwards, and whether the validation that closes `accept`
  refuses a frame that its guards have let pass.

  `accept` compares a frame with the last stored emission time only, and a frame of unknown
  clock overwrites it with null.  `source_time_forward` says exactly which frames a run must
  not contain for source time to keep its order: where the state keeps no emission time of
  the instance, the frame may not be older than an accepted frame of the instance, and the
  sums over the past epochs have to fit into their width.
-/
import SmartHome.Mqtt.Admission
import SmartHome.Mqtt.Conservation

namespace SmartHome.Mqtt

open Verif

/-! ## Accepted frames of a run -/

/-- The accepted frames, in order of acceptance. -/
def Log.frames (l : Log) : List Frame := l.epochs.reverse.flatMap fun e => e.frames.reverse

/-- The known emission times of the accepted frames of an instance, in order of acceptance. -/
def Log.emitted (l : Log) (source : Hex 32) : List ℕ :=
  (l.frames.filter fun f => f.source = source).filterMap Frame.emittedNs

/-- What a frame adds to the emission times of an instance. -/
def Frame.stamp (f : Frame) (source : Hex 32) : List ℕ :=
  if f.source = source then f.emittedNs.toList else []

@[simp] theorem Log.emitted_empty (source : Hex 32) : Log.empty.emitted source = [] := rfl

theorem flatMap_extend (es : List Epoch) (f : Frame) (s : State) :
    ((extend es f s).reverse.flatMap fun e => e.frames.reverse) =
      (es.reverse.flatMap fun e => e.frames.reverse) ++ [f] := by
  cases es with
  | nil => simp [extend]
  | cons e es =>
    by_cases hs : e.last.source = f.source
    · simp [extend, hs, List.flatMap_append]
    · simp [extend, hs, List.flatMap_append]

/-- An accepted frame puts its emission time behind those before it. -/
theorem Log.emitted_extend (l : Log) (f : Frame) (s : State) (source : Hex 32) :
    (⟨some s, extend l.epochs f s⟩ : Log).emitted source = l.emitted source ++ f.stamp source := by
  rw [Log.emitted, Log.frames, flatMap_extend, List.filter_append, List.filterMap_append]
  congr 1
  by_cases h : f.source = source
  · cases he : f.emittedNs <;> simp [Frame.stamp, h, he]
  · simp [Frame.stamp, h]

/-! ## Guards and the closing validation -/

/-- The call passes every guard of `accept` before the closing validation. -/
structure Passes (previous : Option State) (a : Arrival) (f : Frame) : Prop where
  verified : a.verified = true
  arrived : a.arrivedNs < 2 ^ 64
  decoded : decode a.raw = .ok f
  admits : f.Admits (f.prior previous) a.arrivedNs

/-- The sums that grow by the closing figures of an epoch stay within their width. -/
structure State.Closes (p : State) : Prop where
  epoch : p.epoch + 1 < 2 ^ 128
  reportGaps : p.pastReportGaps + p.reportGaps < 2 ^ 128
  clockFaults : p.pastClockFaults + p.clockFaults < 2 ^ 128
  sendFailures : p.pastSendFailures + p.sendFailures < 2 ^ 128
  stats : ∀ k c, (p.pastStats k).col c + (p.stats k).col c < 2 ^ 128

/-- An epoch's own counters never leave their width; only those of the past can. -/
theorem Frame.nextState_fits {f : Frame} {previous prior : Option State} {digest : Hex 64}
    {arrivedNs : ℕ} (hm : Meets previous prior) (hv : ∀ p ∈ previous, p.Valid) (hd : f.Decoded)
    (ha : f.Admits prior arrivedNs) (harr : arrivedNs < 2 ^ 64)
    (hexp : ∀ p ∈ prior, ∀ k, (p.stats k).col .expected = p.lastTotals k)
    (hgaps : ∀ p ∈ prior, p.reportGaps ≤ p.lastFrameSeq)
    (hclose : prior = none → ∀ p ∈ previous, p.Closes) :
    (f.nextState previous prior digest arrivedNs).Fits := by
  have htotal : ∀ k, f.totals k < 2 ^ 64 := fun k =>
    ((Finset.single_le_sum (fun _ _ => Nat.zero_le _) (Finset.mem_univ k)).trans_eq
      hd.totals).trans_lt hd.eventSeq
  have hseq := hd.frameSeq.2
  have hbatch := fun k => batch_valid hd ha harr k
  cases hm with
  | first =>
    refine ⟨by simp [nextState], ?_, by simp [nextState], by simp [nextState], by simp [nextState],
      by simp [nextState], fun k c => ?_, fun k c => by simp [nextState, Row.zero]⟩
    · simp only [nextState, Option.elim_none]; omega
    · have := (hbatch k).count c
      simpa [nextState, Row.add, Row.zero] using this
  | same p =>
    have hp := hv p rfl
    have hg := hgaps p rfl
    refine ⟨hp.epoch.1, ?_, ?_, ?_, ?_, ?_, fun k c => ?_, fun k c => (hp.pastStats k).count c⟩
    · simp only [nextState, Option.elim_some]; omega
    · simpa [nextState] using hp.pastReportGaps
    · simpa [nextState] using hp.pastClockFaults
    · simpa [nextState] using hp.pastSendFailures
    · simpa [nextState] using hp.unknownEpochTails
    · -- a column is at most the expected events, which add up to the total of the frame
      have h1 := (hp.stats k).le_expected c
      have h2 := (hbatch k).le_expected c
      have h3 := hexp p rfl k
      have h4 : p.lastTotals k ≤ f.totals k := (ha.totals k).1
      have h5 := htotal k
      have h6 : (f.batch (some p) arrivedNs k).col .expected = f.totals k - p.lastTotals k := rfl
      show (p.stats k).col c + (f.batch (some p) arrivedNs k).col c < 2 ^ 128
      omega
  | other p =>
    have hp := hv p rfl
    have hc := hclose rfl p rfl
    have ht := hp.tails_le.1
    have hpos := hp.epoch.2
    refine ⟨hc.epoch, ?_, hc.reportGaps, hc.clockFaults, hc.sendFailures, ?_, fun k c => ?_,
      fun k c => hc.stats k c⟩
    · simp only [nextState, Option.elim_none]; omega
    · have h1 : (!p.sourceClosed).toNat ≤ 1 := Bool.toNat_le _
      have h2 := hc.epoch
      show p.unknownEpochTails + (!p.sourceClosed).toNat < 2 ^ 128
      omega
    · have := (hbatch k).count c
      simpa [nextState, Row.add, Row.zero] using this

/-- What a call may not do for source time to keep its order. -/
structure Log.Steady (l : Log) (a : Arrival) : Prop where
  /-- Where the state keeps no emission time of the instance, a known one is not below those
      of the accepted frames of the instance. -/
  stamp : ∀ f, Passes l.state a f → (f.prior l.state).bind State.lastEmittedNs = none →
    ∀ e ∈ f.emittedNs, ∀ t ∈ l.emitted f.source, t ≤ e
  /-- An epoch ends only while the past sums have room for it. -/
  closes : ∀ f, Passes l.state a f → f.prior l.state = none → ∀ p ∈ l.state, p.Closes

/-- What the run so far says about source time. -/
structure Log.Forward (l : Log) : Prop where
  conserved : l.Conserved
  ordered : ∀ source, (l.emitted source).Pairwise (· ≤ ·)
  last : ∀ p ∈ l.state, ∀ e ∈ p.lastEmittedNs, ∀ t ∈ l.emitted p.source, t ≤ e
  covered : ∀ p ∈ l.state, ∀ c ∈ p.lastCoveredBeforeNs, ∃ t ∈ l.emitted p.source, c ≤ t

namespace Log
variable {l : Log} {a : Arrival} {f : Frame}

theorem forward_empty : empty.Forward where
  conserved := conserved_empty
  ordered source := by simp
  last p hp := by cases hp
  covered p hp := by cases hp

/-- The state of a run is that of the newest epoch. -/
theorem Forward.counted (h : l.Forward) {p : State} (hp : p ∈ l.state) :
    (∀ k, (p.stats k).col .expected = p.lastTotals k) ∧ p.reportGaps ≤ p.lastFrameSeq := by
  have hcur := h.conserved.current
  rw [Option.mem_def.1 hp, Option.map_eq_some_iff] at hcur
  obtain ⟨e, he, rfl⟩ := hcur
  have hc := h.conserved.counted e (List.mem_of_mem_head? he)
  exact ⟨hc.expected, hc.reportGaps.trans_le (Nat.sub_le _ _)⟩

/-- A frame that passes the guards is not older than the accepted frames of its instance. -/
theorem Forward.le_stamp (h : l.Forward) (hs : l.Steady a) (hp : Passes l.state a f) :
    ∀ e ∈ f.emittedNs, ∀ t ∈ l.emitted f.source, t ≤ e := by
  intro e he t ht
  cases hb : (f.prior l.state).bind State.lastEmittedNs with
  | none => exact hs.stamp f hp hb e he t ht
  | some last =>
    -- the guard compares the frame with the last time, which is the largest so far
    obtain ⟨p, hprior, hlast⟩ := Option.bind_eq_some_iff.1 hb
    obtain ⟨hstate, hsource⟩ := Option.filter_eq_some_iff.1 hprior
    have hsource' : p.source = f.source := by simpa using hsource
    have h1 : t ≤ last := h.last p hstate last hlast t (hsource' ▸ ht)
    exact h1.trans (hp.admits.emitted p hprior e he last hlast)

section
variable [Sha256]

/-- **The closing validation refuses no frame that the guards let pass.** -/
theorem Forward.accepted (h : l.Forward) (hs : l.Steady a) (hp : Passes l.state a f) :
    (accept l.state a.raw a.arrivedNs a.verified).status = .accepted := by
  have hmem : ∀ p ∈ f.prior l.state, p ∈ l.state ∧ p.source = f.source := by
    intro p hprior
    obtain ⟨hstate, hsource⟩ := Option.filter_eq_some_iff.1 hprior
    exact ⟨hstate, by simpa using hsource⟩
  have hfit : (f.nextState l.state (f.prior l.state) (sha256 a.raw) a.arrivedNs).Fits :=
    Frame.nextState_fits (f.meets_prior l.state) h.conserved.valid (decode_ok hp.decoded) hp.admits
      hp.arrived (fun p hprior => (h.counted (hmem p hprior).1).1)
      (fun p hprior => (h.counted (hmem p hprior).1).2) (hs.closes f hp)
  have hstamp : ∀ p ∈ f.prior l.state, ∀ c ∈ p.lastCoveredBeforeNs, ∀ e ∈ f.emittedNs, c ≤ e := by
    intro p hprior c hc e he
    obtain ⟨hstate, hsource⟩ := hmem p hprior
    obtain ⟨t, ht, hct⟩ := h.covered p hstate c hc
    exact hct.trans (h.le_stamp hs hp e he t (hsource ▸ ht))
  rw [hp.verified,
    accept_accepted h.conserved.valid hp.arrived hp.decoded hp.admits hstamp hfit]

/-- What is accepted has passed the guards. -/
theorem passes_of_accepts (h : l.Conserved) (hf : Accepts l.state a.raw a.arrivedNs f)
    (hst : (accept l.state a.raw a.arrivedNs a.verified).status = .accepted) :
    Passes l.state a f where
  verified := by
    by_contra hv
    rw [accept, if_pos h.valid, acceptValid, need, if_neg hv] at hst
    cases hst
  arrived := hf.arrived
  decoded := hf.decoded
  admits := hf.admits

/-- A steady call keeps source time in order. -/
theorem Forward.step (h : l.Forward) (hs : l.Steady a) : (l.step a).Forward := by
  rcases step_cases h.conserved.valid a with ⟨f, hst, hf, he⟩ | ⟨-, he⟩
  swap
  · rwa [he]
  have hp := passes_of_accepts h.conserved hf hst
  have hle := h.le_stamp hs hp
  have hcons := conserved_step h.conserved a
  rw [he] at hcons ⊢
  have hmem : ∀ e ∈ f.emittedNs, e ∈ f.stamp f.source := by
    intro e hfe
    simpa [Frame.stamp, eq_comm] using hfe
  refine ⟨hcons, fun source => ?_, ?_, ?_⟩
  · rw [emitted_extend, List.pairwise_append]
    refine ⟨h.ordered source, ?_, fun t ht e hfe => ?_⟩
    · unfold Frame.stamp
      split
      · cases f.emittedNs <;> simp
      · exact List.Pairwise.nil
    · unfold Frame.stamp at hfe
      split at hfe
      · rename_i hsource
        exact hle e (by simpa using hfe) t (hsource ▸ ht)
      · cases hfe
  · rintro p ⟨⟩ e hfe t ht
    rw [emitted_extend] at ht
    rcases List.mem_append.1 ht with ht | ht
    · exact hle e hfe t ht
    · have hte : t ∈ f.emittedNs := by simpa [Frame.stamp, Frame.nextState] using ht
      exact (Option.some.inj (hte.symm.trans hfe)).le
  · rintro p ⟨⟩ c hc
    rw [emitted_extend]
    have hc' : c ∈ f.coveredBeforeNs.or ((f.prior l.state).bind State.lastCoveredBeforeNs) := by
      simp only [Frame.nextState] at hc
      split at hc
      · split at hc
        · exact hc
        · cases hc
      · cases hc
    cases hcov : f.coveredBeforeNs with
    | some d =>
      rw [hcov, Option.some_or] at hc'
      cases hc'
      obtain ⟨-, -, ⟨e, hfe, hce⟩, -⟩ := (decode_ok hf.decoded).covered c hcov
      exact ⟨e, List.mem_append_right _ (hmem e hfe), hce⟩
    | none =>
      rw [hcov, Option.none_or] at hc'
      obtain ⟨p, hprior, hpc⟩ := Option.bind_eq_some_iff.1 hc'
      obtain ⟨hstate, hsource⟩ := Option.filter_eq_some_iff.1 hprior
      obtain ⟨t, ht, hct⟩ := h.covered p hstate c hpc
      have hsource' : p.source = f.source := by simpa using hsource
      rw [hsource'] at ht
      exact ⟨t, List.mem_append_left _ ht, hct⟩

/-! ## Runs -/

theorem run_concat (as : List Arrival) (a : Arrival) : run (as ++ [a]) = (run as).step a := by
  rw [run, List.foldl_append]
  rfl

/-- Later calls only add emission times. -/
theorem emitted_append (as bs : List Arrival) (source : Hex 32) :
    (run as).emitted source <+: (run (as ++ bs)).emitted source := by
  induction bs using List.reverseRecOn with
  | nil => rw [List.append_nil]
  | append_singleton bs b ih =>
    rw [← List.append_assoc, run_concat]
    refine ih.trans ?_
    rcases step_cases (source_accounting_conserved (as ++ bs)).valid b with ⟨f, -, -, he⟩ | ⟨-, he⟩
    · rw [he, emitted_extend]
      exact List.prefix_append _ _
    · rw [he]

/-- A run of steady calls keeps source time in order. -/
theorem forward_run (as : List Arrival)
    (h : ∀ bs a cs, as = bs ++ a :: cs → (run bs).Steady a) : (run as).Forward := by
  induction as using List.reverseRecOn with
  | nil => exact forward_empty
  | append_singleton as a ih =>
    rw [run_concat]
    refine (ih fun bs b cs he => ?_).step (h as a [] rfl)
    exact h bs b (cs ++ [a]) (by rw [he, List.append_assoc, List.cons_append])

/-- The state after an accepted frame that ends an epoch is valid, so its sums fit. -/
theorem closes_of_accepts {l : Log} {a : Arrival} {f : Frame}
    (hf : Accepts l.state a.raw a.arrivedNs f) (hprior : f.prior l.state = none) :
    ∀ p ∈ l.state, p.Closes := by
  intro p hp
  have hv := hf.valid
  rw [hprior, Option.mem_def.1 hp] at hv
  exact ⟨hv.epoch.1, hv.pastReportGaps, hv.pastClockFaults, hv.pastSendFailures,
    fun k c => (hv.pastStats k).count c⟩

/-- The known emission times of the accepted frames of each instance never decrease, and every
    frame that passes the guards is accepted. -/
structure TimeForward (as : List Arrival) : Prop where
  ordered : ∀ source, ((run as).emitted source).Pairwise (· ≤ ·)
  accepted : ∀ bs a cs, as = bs ++ a :: cs → ∀ f, Passes (run bs).state a f →
    (accept (run bs).state a.raw a.arrivedNs a.verified).status = .accepted

/-- Source time keeps its order only if every call is steady. -/
theorem TimeForward.steady {as : List Arrival} (h : TimeForward as) {bs : List Arrival} {a : Arrival}
    {cs : List Arrival} (he : as = bs ++ a :: cs) : (run bs).Steady a := by
  have hacc : ∀ f, Passes (run bs).state a f → Accepts (run bs).state a.raw a.arrivedNs f ∧
      ∀ source, (run (bs ++ [a])).emitted source = (run bs).emitted source ++ f.stamp source := by
    intro f hp
    have hst := h.accepted bs a cs he f hp
    rcases step_cases (source_accounting_conserved bs).valid a with ⟨g, -, hg, hs⟩ | ⟨hne, -⟩
    swap
    · exact absurd hst hne
    obtain rfl : g = f := Except.ok.inj (hg.decoded.symm.trans hp.decoded)
    exact ⟨hg, fun source => by rw [run_concat, hs, emitted_extend]⟩
  refine ⟨fun f hp _ e hfe t ht => ?_, fun f hp hprior => closes_of_accepts (hacc f hp).1 hprior⟩
  have hpre : (run (bs ++ [a])).emitted f.source <+: (run as).emitted f.source := by
    have := emitted_append (bs ++ [a]) cs f.source
    rwa [List.append_assoc, List.singleton_append, ← he] at this
  have hord := (h.ordered f.source).sublist hpre.sublist
  rw [(hacc f hp).2, List.pairwise_append] at hord
  exact hord.2.2 t ht e (by simpa [Frame.stamp, eq_comm] using hfe)

end

end Log

section
variable [Sha256]

/-- **Source time keeps its order exactly in the runs of steady calls**: the known emission
    times of the accepted frames of each instance never decrease, and what passes the guards
    is never refused by the closing validation. -/
theorem source_time_forward (as : List Arrival) : Log.TimeForward as ↔
    ∀ bs a cs, as = bs ++ a :: cs → (Log.run bs).Steady a := by
  refine ⟨fun h bs a cs he => h.steady he, fun h => ⟨(Log.forward_run as h).ordered, ?_⟩⟩
  intro bs a cs he f hp
  have hbs : (Log.run bs).Forward := by
    refine Log.forward_run bs fun ds b es hb => h ds b (es ++ a :: cs) ?_
    rw [he, hb, List.append_assoc, List.cons_append]
  exact hbs.accepted (h bs a cs he) hp

end

/-- A frame without events that is sent at the given time. -/
def idleFrame (frameSeq clockFaults : String) (emitted covered : Json) : Bytes :=
  let none' := .obj (kinds.map fun k => (k.name, .str "0"))
  ascii (Json.obj [("v", .int 3), ("instance", .str "aaaaaaaaaaaaaaaaaaaaaaaaaaaaaaaa"),
    ("started_ns", .str "100"), ("frame_seq", .str frameSeq), ("event_seq", .str "0"),
    ("totals", none'), ("source_dropped", none'), ("clock_faults", .str clockFaults),
    ("send_failures", .str "0"), ("emitted_ns", emitted), ("events", .arr []), ("final", .bool false),
    ("covered_before_ns", covered)]).render

/-- A frame sent at 200, one of unknown clock, and one sent at 150. -/
def clockLost (covered : Json) : List Arrival :=
  [⟨idleFrame "1" "0" (.str "200") covered, 300, true⟩, ⟨idleFrame "2" "1" .null .null, 300, true⟩,
    ⟨idleFrame "3" "1" (.str "150") .null, 300, true⟩]

/-- The third frame goes back in time: it is accepted if the first one states no coverage, and
    refused by the closing validation alone if it does. -/
theorem source_time_reversed : letI := zeroHash
    ¬ Log.TimeForward (clockLost .null) ∧ ¬ Log.TimeForward (clockLost (.str "190")) := by
  let := zeroHash
  constructor
  · intro h
    have he : (Log.run (clockLost .null)).emitted ⟨"aaaaaaaaaaaaaaaaaaaaaaaaaaaaaaaa", by decide⟩ =
        [200, 150] := by decide +kernel
    have := h.ordered ⟨"aaaaaaaaaaaaaaaaaaaaaaaaaaaaaaaa", by decide⟩
    rw [he] at this
    exact absurd this (by decide)
  · intro h
    have hpass : ((decode (idleFrame "3" "1" (.str "150") .null)).toOption.any fun f =>
        (f.check (f.prior (Log.run ((clockLost (.str "190")).take 2)).state) 300).toBool) = true := by
      decide +kernel
    have hrefused : (accept (Log.run ((clockLost (.str "190")).take 2)).state
        (idleFrame "3" "1" (.str "150") .null) 300 true).status ≠ .accepted := by decide +kernel
    obtain ⟨f, hf, hc⟩ := (Option.any_eq_true _ _).1 hpass
    have hdec : decode (idleFrame "3" "1" (.str "150") .null) = .ok f := by
      cases hd : decode (idleFrame "3" "1" (.str "150") .null) with
      | error e => rw [hd] at hf; cases hf
      | ok g => rw [hd] at hf; cases hf; rfl
    have hadm : f.Admits (f.prior (Log.run ((clockLost (.str "190")).take 2)).state) 300 := by
      cases hk : f.check (f.prior (Log.run ((clockLost (.str "190")).take 2)).state) 300 with
      | error e => rw [hk] at hc; cases hc
      | ok u => exact Frame.check_ok.1 hk
    exact hrefused (h.accepted ((clockLost (.str "190")).take 2)
      ⟨idleFrame "3" "1" (.str "150") .null, 300, true⟩ [] rfl f ⟨rfl, by decide, hdec, hadm⟩)

end SmartHome.Mqtt
