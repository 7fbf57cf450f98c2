/-
  What a successful `decode`, `check` or `accept` says: one lemma for each function, from
  which the invariants are derived.
-/
import SmartHome.Mqtt.Protocol

namespace SmartHome.Mqtt

open Verif

/-! ## Decoded frames -/

theorem uint_lt {j : Json} {n : ℕ} (h : uint j = .ok n) : n < 2 ^ 64 := by
  cases j with
  | str s =>
    simp only [uint, bind_ok, need_eq_ok, exists_unit, pure_ok] at h
    obtain ⟨m, -, hm, rfl⟩ := h
    exact hm
  | _ => simp [uint] at h

theorem optionalUint_lt {j : Json} {o : Option ℕ} (h : optionalUint j = .ok o) :
    ∀ n ∈ o, n < 2 ^ 64 := by
  have hmap : ∀ x : Except String ℕ, x.map some = .ok o → ∃ n, x = .ok n ∧ o = some n := by
    intro x hx
    cases x with
    | error e => simp [Except.map] at hx
    | ok n =>
      simp only [Except.map, Except.ok.injEq] at hx
      exact ⟨n, rfl, hx.symm⟩
  cases j with
  | null =>
    simp only [optionalUint, Except.ok.injEq] at h
    subst h; simp
  | str s =>
    obtain ⟨n, hn, rfl⟩ := hmap _ h
    rintro m hm
    simp only [Option.mem_def, Option.some.injEq] at hm
    exact hm ▸ uint_lt hn
  | _ => simp [optionalUint, uint, Except.map] at h

theorem decodeRows_ok {eventSeq : ℕ} : ∀ {rows : List Json} {seq : ℕ} {es : List EventRow},
    decodeRows eventSeq seq rows = .ok es →
      (es.map EventRow.seq).Pairwise (· < ·) ∧ (∀ e ∈ es, seq < e.seq ∧ e.seq ≤ eventSeq) ∧
        es.length = rows.length
  | [], seq, es, h => by
    simp only [decodeRows, Except.ok.injEq] at h
    subst h; simp
  | row :: rows, seq, es, h => by
    simp only [decodeRows, bind_ok, need_eq_ok, exists_unit, pure_ok] at h
    obtain ⟨-, n, -, ⟨hn, hle⟩, kind, -, atNs, -, rest, hrest, rfl⟩ := h
    obtain ⟨hp, hb, hl⟩ := decodeRows_ok hrest
    refine ⟨?_, ?_, by simp [hl]⟩
    · rw [List.map_cons, List.pairwise_cons]
      refine ⟨fun m hm => ?_, hp⟩
      obtain ⟨e, he, rfl⟩ := List.mem_map.1 hm
      exact (hb e he).1
    · rintro e he
      rcases List.mem_cons.1 he with rfl | he
      · exact ⟨hn, hle⟩
      · exact ⟨hn.trans (hb e he).1, (hb e he).2⟩

theorem kindTable_ok {value : Json} {t : Kind → ℕ} (h : kindTable value = .ok t) :
    ∀ k, uint (member value k.name) = .ok (t k) := by
  simp only [kindTable, bind_ok, pure_ok, kinds, List.mapM_cons, List.mapM_nil] at h
  obtain ⟨-, -, row, ⟨a, ha, _, ⟨b, hb, _, ⟨c, hc, _, ⟨d, hd, _, ⟨e, he, _, ⟨f, hf, _, ⟨g, hg, _,
    rfl, rfl⟩, rfl⟩, rfl⟩, rfl⟩, rfl⟩, rfl⟩, rfl⟩, rfl⟩ := h
  intro k
  cases k
  exacts [ha, hb, hc, hd, he, hf, hg]

/-- What every decoded frame satisfies. -/
structure Frame.Decoded (f : Frame) : Prop where
  frameSeq : 0 < f.frameSeq ∧ f.frameSeq < 2 ^ 64
  eventSeq : f.eventSeq < 2 ^ 64
  clockFaults : f.clockFaults < 2 ^ 64
  sendFailures : f.sendFailures < 2 ^ 64
  startedNs : ∀ n ∈ f.startedNs, n < 2 ^ 64
  emittedNs : ∀ n ∈ f.emittedNs, n < 2 ^ 64
  covered : ∀ c ∈ f.coveredBeforeNs, f.wireVersion = 3 ∧ c < 2 ^ 64 ∧
    (∃ e ∈ f.emittedNs, c ≤ e) ∧ ∀ s ∈ f.startedNs, s ≤ c
  wire : f.wireVersion = 1 ∨ f.wireVersion = 2 ∨ f.wireVersion = 3
  final : f.final = true → 2 ≤ f.wireVersion
  totals : ∑ k, f.totals k = f.eventSeq
  dropped : ∀ k, f.sourceDropped k ≤ f.totals k
  rows : f.events.length ≤ maxEvents
  increasing : (f.events.map EventRow.seq).Pairwise (· < ·)
  bounded : ∀ e ∈ f.events, 0 < e.seq ∧ e.seq ≤ f.eventSeq

theorem decodeValue_ok {value : Json} {f : Frame} (h : decodeValue value = .ok f) : f.Decoded := by
  simp only [decodeValue, bind_ok, need_eq_ok, exists_unit, pure_ok] at h
  obtain ⟨version, hv, -, final, hf, source, -, covered, hcov, frameSeq, hfs, eventSeq, hes,
    clockFaults, hcf, sendFailures, hsf, hpos, started, hst, emitted, hem, hcover, totals, -,
    dropped, -, hsum, hle, rows, -, hrows, events, hev, rfl⟩ := h
  have hver : version = 1 ∨ version = 2 ∨ version = 3 := by
    unfold wireVersion at hv
    split at hv <;> simp_all
  obtain ⟨hinc, hbound, hlen⟩ := decodeRows_ok hev
  refine ⟨⟨hpos, uint_lt hfs⟩, uint_lt hes, uint_lt hcf, uint_lt hsf, optionalUint_lt hst,
    optionalUint_lt hem, ?_, hver, ?_, hsum, hle, by simpa [hlen] using hrows, hinc, hbound⟩
  · intro c hc
    simp only [Option.mem_def] at hc
    have h3 : version = 3 := by
      by_contra h3
      rw [coverage, if_neg h3] at hcov
      simp_all
    rw [coverage, if_pos h3] at hcov
    exact ⟨h3, optionalUint_lt hcov c hc, hcover c hc⟩
  · intro hfin
    by_contra h2
    rw [finalMark, if_neg h2] at hf
    simp_all

theorem decode_ok {raw : Bytes} {f : Frame} (h : decode raw = .ok f) : f.Decoded := by
  simp only [decode, bind_ok, need_eq_ok, exists_unit] at h
  obtain ⟨-, value, -, h⟩ := h
  exact decodeValue_ok h

/-! ## Admitted frames -/

/-- What `check` has checked: a frame against the state of its own source instance. -/
structure Frame.Admits (f : Frame) (prior : Option State) (arrivedNs : ℕ) : Prop where
  opened : ∀ p ∈ prior, p.sourceClosed = false
  wire : ∀ p ∈ prior, p.lastSourceWireVersion ≤ f.wireVersion
  frameSeq : prior.elim 0 State.lastFrameSeq < f.frameSeq
  eventSeq : prior.elim 0 State.lastEventSeq ≤ f.eventSeq
  reader : ∀ p ∈ prior, p.lastReaderNs ≤ arrivedNs
  faults : ∀ p ∈ prior, p.clockFaults ≤ f.clockFaults ∧ p.sendFailures ≤ f.sendFailures
  emitted : ∀ p ∈ prior, ∀ e ∈ f.emittedNs, ∀ l ∈ p.lastEmittedNs, l ≤ e
  covered : ∀ p ∈ prior, ∀ c ∈ f.coveredBeforeNs, ∀ l ∈ p.lastCoveredBeforeNs, l ≤ c
  emittedPast : ∀ e ∈ f.emittedNs, e ≤ arrivedNs
  startedPast : ∀ b ∈ f.startedNs, b ≤ arrivedNs ∧ ∀ e ∈ f.emittedNs, b ≤ e
  started : ∀ p ∈ prior, f.startedNs = p.startedNs
  totals : ∀ k, (prior.elim 0 fun p => p.lastTotals k) ≤ f.totals k ∧
    (prior.elim 0 fun p => p.lastSourceDropped k) ≤ f.sourceDropped k
  fresh : ∀ r ∈ f.events, prior.elim 0 State.lastEventSeq < r.seq
  stamps : ∀ r ∈ f.events, ∀ at' ∈ r.atNs, at' ≤ arrivedNs ∧ (∀ e ∈ f.emittedNs, at' ≤ e) ∧
    ∀ b ∈ f.startedNs, b ≤ at'
  clocks : prior.elim 0 State.clockFaults + f.unknownClocks ≤ f.clockFaults
  startedFault : f.startedNs.isSome ∨ 0 < f.clockFaults
  emittedFault : f.emittedNs.isSome ∨ prior.elim 0 State.clockFaults < f.clockFaults
  counts : ∀ k, (f.rowsOf k).length + f.sourceDrop prior k ≤ f.delta prior k
  consecutive : f.frameSeq = prior.elim 0 State.lastFrameSeq + 1 →
    ∀ k, f.missing prior k = f.sourceDrop prior k

theorem Frame.check_ok {f : Frame} {prior : Option State} {arrivedNs : ℕ} {u : Unit} :
    f.check prior arrivedNs = .ok u ↔ f.Admits prior arrivedNs := by
  simp only [check, checkRow, bind_ok, need_eq_ok, exists_unit, checkAll_ok]
  constructor
  · rintro ⟨h1, h2, ⟨h3, h4⟩, h5, h6, h7, h8, h9, h10, h11, h12, h13, h14, h15, h16, h17, h18⟩
    exact ⟨h1, h2, h3, h4, h5, h6, h7, h8, h9, h10, h11, h12, fun r hr => (h13 r hr).1,
      fun r hr => (h13 r hr).2, h14, h15, h16, h17, h18⟩
  · rintro ⟨h1, h2, h3, h4, h5, h6, h7, h8, h9, h10, h11, h12, h13, h13', h14, h15, h16, h17, h18⟩
    exact ⟨h1, h2, ⟨h3, h4⟩, h5, h6, h7, h8, h9, h10, h11, h12,
      fun r hr => ⟨h13 r hr, h13' r hr⟩, h14, h15, h16, h17, h18⟩

/-! ## The transition -/

/-- The state of the frame's own source instance. -/
def Frame.prior (f : Frame) (previous : Option State) : Option State :=
  previous.filter fun p => p.source = f.source

section
variable {f : Frame} {s : State}

theorem Frame.prior_none : f.prior none = none := rfl

theorem Frame.prior_same (h : s.source = f.source) : f.prior (some s) = some s := by
  simp [prior, h]

theorem Frame.prior_other (h : s.source ≠ f.source) : f.prior (some s) = none := by
  simp [prior, h]

end

section
variable [Sha256]

/-- A frame that `accept` takes as new. -/
structure Accepts (previous : Option State) (raw : Bytes) (arrivedNs : ℕ) (f : Frame) : Prop where
  arrived : arrivedNs < 2 ^ 64
  decoded : decode raw = .ok f
  admits : f.Admits (f.prior previous) arrivedNs
  valid : (f.nextState previous (f.prior previous) (sha256 raw) arrivedNs).Valid

/-- **The three outcomes of `accept` on a valid state**: only an accepted frame changes it. -/
theorem accept_cases {previous : Option State} (hv : ∀ p ∈ previous, p.Valid) (raw : Bytes)
    (arrivedNs : ℕ) (verified : Bool) :
    (∃ f, (accept previous raw arrivedNs verified).status = .accepted ∧
        Accepts previous raw arrivedNs f ∧ (accept previous raw arrivedNs verified).state =
          some (f.nextState previous (f.prior previous) (sha256 raw) arrivedNs)) ∨
      ((accept previous raw arrivedNs verified).status ≠ .accepted ∧
        (accept previous raw arrivedNs verified).state = previous) := by
  rw [accept, if_pos hv]
  cases h : acceptValid previous raw arrivedNs verified with
  | error e => exact Or.inr ⟨by simp, rfl⟩
  | ok r =>
    simp only [acceptValid, bind_ok, need_eq_ok, exists_unit] at h
    obtain ⟨-, harr, f, hdec, h⟩ := h
    split_ifs at h with hdup
    · simp only [bind_ok, need_eq_ok, exists_unit, pure_ok] at h
      obtain ⟨-, rfl⟩ := h
      exact Or.inr ⟨by simp, rfl⟩
    · simp only [bind_ok, need_eq_ok, exists_unit, pure_ok, Frame.check_ok] at h
      obtain ⟨hadm, hval, rfl⟩ := h
      exact Or.inl ⟨f, rfl, ⟨harr, hdec, hadm, hval⟩, rfl⟩

theorem accept_valid {previous : Option State} (hv : ∀ p ∈ previous, p.Valid) (raw : Bytes)
    (arrivedNs : ℕ) (verified : Bool) :
    ∀ s ∈ (accept previous raw arrivedNs verified).state, s.Valid := by
  rcases accept_cases hv raw arrivedNs verified with ⟨f, -, hf, hs⟩ | ⟨-, hs⟩
  · rw [hs]; rintro s hs; cases hs; exact hf.valid
  · rwa [hs]

end

/-! ## Rows of a frame -/

theorem Row.maxOpt_comm (a b : Option ℕ) : maxOpt a b = maxOpt b a := by
  cases a <;> cases b <;> simp [maxOpt, Nat.max_comm]

namespace Frame
variable (f : Frame)

theorem length_rowsOf (k : Kind) : (f.rowsOf k).length = f.events.countP fun r => r.kind = k := by
  simp [rowsOf, List.countP_eq_length_filter]

theorem length_latencies_le (arrivedNs : ℕ) (k : Kind) :
    (f.latencies arrivedNs k).length ≤ (f.rowsOf k).length := by
  unfold latencies
  split_ifs
  · simpa using List.reduceOption_length_le (f.rowsOf k)
  · simp

theorem latencies_le {arrivedNs : ℕ} {k : Kind} : ∀ m ∈ f.latencies arrivedNs k, m ≤ arrivedNs := by
  intro m hm
  unfold latencies at hm
  split_ifs at hm
  · obtain ⟨t, -, rfl⟩ := List.mem_map.1 hm
    exact Nat.sub_le _ _
  · simp at hm

end Frame

end SmartHome.Mqtt
