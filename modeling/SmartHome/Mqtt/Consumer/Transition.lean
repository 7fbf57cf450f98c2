/-
  What a transition of the consumer does: a receipt settles the pending packet or is the last
  one again, a packet is counted or is the pending one again, and every counter grows.
-/
import SmartHome.Mqtt.Consumer.State
import SmartHome.Mqtt.Accept

namespace SmartHome.Mqtt.Consumer

open Verif

section
variable [Sha256]

/-! ## Decoded reports -/

/-- The numbers of a decoded report. -/
structure Envelope.Numbered (e : Envelope) : Prop where
  receipt : ∀ r ∈ e.lastAck, r.bucketId = e.ackedBuckets
  noReceipt : e.lastAck = none → e.ackedBuckets = 0
  packet : ∀ p ∈ e.packet, p.body.bucketId = e.ackedBuckets + 1

omit [Sha256] in
theorem onlyIf_eq_some {α : Type} {p : Prop} [Decidable p] {f : Json → Option α} {j : Json}
    {o : Option α} (h : onlyIf p f j = some o) : ∀ a ∈ o, p ∧ f j = some a := by
  unfold onlyIf at h
  split_ifs at h with hp hj
  · obtain ⟨a, ha, rfl⟩ := Option.map_eq_some_iff.1 h
    rintro b ⟨⟩
    exact ⟨hp, ha⟩
  · cases h
    rintro a ⟨⟩

theorem packet_bucketId {j lastJson : Json} {last : Option Receipt} {acked : ℕ} {p : Packet}
    (h : packet j lastJson last acked = some p) : p.body.bucketId = acked + 1 := by
  simp only [packet, bind_some, guard_some, exists_unit, pure_some] at h
  obtain ⟨m, -, -, sha, -, -, b, -, id, -, hid, atNs, -, domain, -, -, bucket, -, rfl⟩ := h
  exact hid

theorem envelopeBody_numbered {j : Json} {e : Envelope} (h : envelopeBody j = some e) :
    e.Numbered := by
  simp only [envelopeBody, bind_some, pure_some] at h
  obtain ⟨b, -, domain, -, ackedCounts, -, acked, -, last, hlast, pkt, hpkt, rfl⟩ := h
  simp only [lastReceipt, bind_some, guard_some, exists_unit, pure_some] at hlast
  obtain ⟨last, -, hg, rfl⟩ := hlast
  refine ⟨hg.2, hg.1, fun p hp => ?_⟩
  exact packet_bucketId (onlyIf_eq_some hpkt p hp).2

theorem decodeEnvelope_numbered {raw : List Char} {e : Envelope} (h : decodeEnvelope raw = some e) :
    e.Numbered := by
  simp only [decodeEnvelope, envelopeValue, bind_some, guard_some, exists_unit] at h
  obtain ⟨-, value, -, -, m, -, -, sha, -, -, h⟩ := h
  exact envelopeBody_numbered h

/-! ## What a transition does -/

section
variable {s s' : ConsumerState} {fs : List Facts}

/-- A receipt is the last one again, or it settles the pending packet. -/
theorem ConsumerState.takeReceipt_cases {o : Option Receipt} (h : s.takeReceipt o = .ok (s', fs)) :
    (s' = s ∧ fs = [] ∧ (o = none → s.lastReceipt = 0) ∧
      ∀ r ∈ o, r.bucketId = s.lastReceipt ∧ s.lastReceiptSha = some (receiptDigest r)) ∨
    ∃ r p f, o = some r ∧ s.pending = some p ∧ r.bucketId = s.lastReceipt + 1 ∧
      r.bucketId = p.body.bucketId ∧ receiptFacts p r = some f ∧
      (s.ackedCounts + p.body.aggregate.counts).Valid ∧ s' = s.settle p r f ∧ fs = [f] := by
  cases o with
  | none =>
    simp only [takeReceipt, bind_ok, need_eq_ok, exists_unit, pure_ok, Prod.mk.injEq] at h
    obtain ⟨h0, rfl, rfl⟩ := h
    exact Or.inl ⟨rfl, rfl, fun _ => h0, by rintro r ⟨⟩⟩
  | some r =>
    simp only [takeReceipt, bind_ok, need_eq_ok, exists_unit] at h
    obtain ⟨hle, h⟩ := h
    split_ifs at h with hlt
    · simp only [bind_ok, need_eq_ok, exists_unit, orFail_eq_ok, pure_ok, Prod.mk.injEq] at h
      obtain ⟨p, hp, ⟨hid, hpid⟩, f, hf, t, ht, rfl, rfl⟩ := h
      refine Or.inr ⟨r, p, f, rfl, hp, hid, hpid, hf, ?_, rfl, rfl⟩
      unfold sumCounts at ht
      split_ifs at ht with hv
      exact hv.2.2
    · simp only [bind_ok, need_eq_ok, exists_unit, pure_ok, Prod.mk.injEq] at h
      obtain ⟨hsha, rfl, rfl⟩ := h
      refine Or.inl ⟨rfl, rfl, by rintro ⟨⟩, ?_⟩
      rintro r ⟨⟩
      exact ⟨by omega, hsha⟩

omit [Sha256] in
/-- A packet is the pending one again, or it is counted. -/
theorem ConsumerState.takePacket_cases {o : Option Packet} (h : s.takePacket o = .ok s') :
    (s' = s ∧ (o = none → s.pending = none) ∧
      ∀ p ∈ o, p.body.bucketId = s.lastPacket ∧ ∃ q ∈ s.pending, p.sha256 = q.sha256) ∨
    ∃ p, o = some p ∧ s.pending = none ∧ p.body.bucketId = s.lastPacket + 1 ∧ s' = s.count p := by
  cases o with
  | none =>
    simp only [takePacket, bind_ok, need_eq_ok, exists_unit, pure_ok] at h
    obtain ⟨h0, rfl⟩ := h
    exact Or.inl ⟨rfl, fun _ => h0, by rintro p ⟨⟩⟩
  | some p =>
    simp only [takePacket, bind_ok, need_eq_ok, exists_unit] at h
    obtain ⟨hle, h⟩ := h
    split_ifs at h with hlt
    · simp only [bind_ok, need_eq_ok, exists_unit, orFail_eq_ok, pure_ok] at h
      obtain ⟨⟨hp, hid⟩, t, ht, rfl⟩ := h
      exact Or.inr ⟨p, rfl, hp, hid, rfl⟩
    · simp only [bind_ok, need_eq_ok, exists_unit, pure_ok] at h
      obtain ⟨hsha, rfl⟩ := h
      refine Or.inl ⟨rfl, by rintro ⟨⟩, ?_⟩
      rintro p ⟨⟩
      exact ⟨by omega, hsha⟩

end

/-- A transition that does not stop, taken apart. -/
structure Takes (previous : Option ConsumerState) (raw : List Char) (e : Envelope)
    (middle : ConsumerState) (o : Outcome) : Prop where
  decoded : decodeEnvelope raw = some e
  history : previous = none → e.ackedBuckets = 0
  valid : ∀ s ∈ previous, s.Valid
  receipt : ((previous.getD initialState).noteClock e.sourceClockDomainId).takeReceipt e.lastAck =
    .ok (middle, o.receiptFacts)
  acked : e.ackedBuckets = middle.lastReceipt ∧ e.ackedCounts = middle.ackedCounts
  packet : middle.takePacket e.packet = .ok o.state
  next : o.state.Valid
  ack : o.ack = o.state.pending.map ackFor
  changed : o.changed = decide (previous ≠ some o.state)

theorem transition_ok {previous : Option ConsumerState} {raw : List Char} {o : Outcome} :
    transition previous raw = .ok o ↔ ∃ e middle, Takes previous raw e middle o := by
  simp only [transition, bind_ok, need_eq_ok, exists_unit, orFail_eq_ok, pure_ok]
  constructor
  · rintro ⟨e, he, hprev, ⟨middle, fs⟩, hrec, hacked, s, hpkt, hvalid, rfl⟩
    refine ⟨e, middle, he, ?_, ?_, hrec, hacked, hpkt, hvalid, rfl, rfl⟩
    · rintro rfl
      simpa [checkPrevious] using hprev
    · rintro s' ⟨⟩
      simpa [checkPrevious] using hprev
  · rintro ⟨e, middle, he, h0, hv, hrec, hacked, hpkt, hvalid, hack, hchanged⟩
    refine ⟨e, he, ?_, (middle, o.receiptFacts), hrec, hacked, o.state, hpkt, hvalid, ?_⟩
    · cases previous with
      | none => simpa [checkPrevious] using h0 rfl
      | some s => simpa [checkPrevious] using hv s rfl
    · cases o
      simp only at hack hchanged
      rw [hack, hchanged]

/-! ## Repeats -/

omit [Sha256] in
theorem ConsumerState.noteClock_self {s : ConsumerState} {domain : Hex 64}
    (h : s.reportClockDomainId = some domain) : s.noteClock domain = s := by
  obtain ⟨_, _, _, _, _, _, _, clock, _, _, _⟩ := s
  cases h
  simp [noteClock]

/-- What a state says about the report it accepted last. -/
structure Current (e : Envelope) (s : ConsumerState) : Prop where
  clock : s.reportClockDomainId = some e.sourceClockDomainId
  receipt : e.ackedBuckets = s.lastReceipt ∧ e.ackedCounts = s.ackedCounts
  receiptSha : ∀ r ∈ e.lastAck, s.lastReceiptSha = some (receiptDigest r)
  noPacket : e.packet = none → s.pending = none
  packet : ∀ p ∈ e.packet, p.body.bucketId = s.lastPacket ∧ ∃ q ∈ s.pending, p.sha256 = q.sha256

theorem Takes.current {previous : Option ConsumerState} {raw : List Char} {e : Envelope}
    {middle : ConsumerState} {o : Outcome} (h : Takes previous raw e middle o) :
    Current e o.state := by
  have hmid : middle.reportClockDomainId = some e.sourceClockDomainId ∧
      ∀ r ∈ e.lastAck, middle.lastReceiptSha = some (receiptDigest r) := by
    rcases ConsumerState.takeReceipt_cases h.receipt with ⟨hm, -, -, hlast⟩ | ⟨r, p, f, hr, -, -, -, -, -, hm, -⟩
    · rw [hm]; exact ⟨rfl, fun r hr => (hlast r hr).2⟩
    · rw [hm, hr]
      refine ⟨rfl, ?_⟩
      rintro r' ⟨⟩; rfl
  rcases ConsumerState.takePacket_cases h.packet with ⟨hs, hnone, hsome⟩ | ⟨p, hp, -, -, hs⟩
  · rw [hs]
    exact ⟨hmid.1, h.acked, hmid.2, hnone, hsome⟩
  · rw [hs]
    refine ⟨hmid.1, h.acked, hmid.2, ?_, ?_⟩ <;> rw [hp]
    · nofun
    · rintro q ⟨⟩; exact ⟨rfl, p, rfl, rfl⟩

/-- A report that the state accepted last is accepted again, without effect. -/
theorem Current.transition {raw : List Char} {e : Envelope} {s : ConsumerState} (h : Current e s)
    (he : decodeEnvelope raw = some e) (hs : s.Valid) :
    transition (some s) raw = .ok ⟨s, s.pending.map ackFor, false, []⟩ := by
  have hnum := decodeEnvelope_numbered he
  have hreceipt : s.takeReceipt e.lastAck = .ok (s, []) := by
    cases hr : e.lastAck with
    | none =>
      have h0 : s.lastReceipt = 0 := by rw [← h.receipt.1, hnum.noReceipt hr]
      simp [ConsumerState.takeReceipt, need, h0]
    | some r =>
      have hid : r.bucketId = s.lastReceipt := by rw [← h.receipt.1]; exact hnum.receipt r hr
      simp [ConsumerState.takeReceipt, need, hid, h.receiptSha r hr]
  have hpacket : s.takePacket e.packet = .ok s := by
    cases hp : e.packet with
    | none => simp [ConsumerState.takePacket, need, h.noPacket hp]
    | some p =>
      obtain ⟨hid, q, hq, hsha⟩ := h.packet p hp
      simp [ConsumerState.takePacket, need, hid, Option.mem_def.1 hq, hsha]
  refine transition_ok.2 ⟨e, s, he, by rintro ⟨⟩, ?_, ?_, h.receipt, hpacket, hs, rfl, ?_⟩
  · rintro s' ⟨⟩; exact hs
  · rw [Option.getD_some, ConsumerState.noteClock_self h.clock]; exact hreceipt
  · simp

/-- **The envelope just accepted, presented again, changes nothing.** -/
theorem transition_repeat {previous : Option ConsumerState} {raw : List Char} {o : Outcome}
    (h : transition previous raw = .ok o) :
    transition (some o.state) raw = .ok ⟨o.state, o.ack, false, []⟩ := by
  obtain ⟨e, middle, ht⟩ := transition_ok.1 h
  rw [ht.ack]
  exact ht.current.transition ht.decoded ht.next

/-! ## Growth -/

/-- Every counter of a state, against a later state. -/
structure ConsumerState.Grows (s s' : ConsumerState) : Prop where
  lastPacket : s.lastPacket ≤ s'.lastPacket
  lastReceipt : s.lastReceipt ≤ s'.lastReceipt
  received : ∀ c, s.receivedCounts c ≤ s'.receivedCounts c
  acked : ∀ c, s.ackedCounts c ≤ s'.ackedCounts c
  changes : s.clockDomainChanges ≤ s'.clockDomainChanges
  timing : ∀ k, (s.timing k).observed ≤ (s'.timing k).observed ∧
    (s.timing k).timed ≤ (s'.timing k).timed ∧
    (s.timing k).timingUnknown ≤ (s'.timing k).timingUnknown ∧
    ∀ v ∈ (s.timing k).maxUpperNs, ∃ v' ∈ (s'.timing k).maxUpperNs, v ≤ v'

namespace ConsumerState
variable {s s' s'' : ConsumerState}

omit [Sha256] in
theorem Grows.refl (s : ConsumerState) : s.Grows s :=
  ⟨le_rfl, le_rfl, fun _ => le_rfl, fun _ => le_rfl, le_rfl,
    fun _ => ⟨le_rfl, le_rfl, le_rfl, fun v hv => ⟨v, hv, le_rfl⟩⟩⟩

omit [Sha256] in
theorem Grows.trans (h : s.Grows s') (h' : s'.Grows s'') : s.Grows s'' := by
  refine ⟨h.lastPacket.trans h'.lastPacket, h.lastReceipt.trans h'.lastReceipt,
    fun c => (h.received c).trans (h'.received c), fun c => (h.acked c).trans (h'.acked c),
    h.changes.trans h'.changes, fun k => ?_⟩
  obtain ⟨h1, h2, h3, h4⟩ := h.timing k
  obtain ⟨h1', h2', h3', h4'⟩ := h'.timing k
  refine ⟨h1.trans h1', h2.trans h2', h3.trans h3', fun v hv => ?_⟩
  obtain ⟨v', hv', hle⟩ := h4 v hv
  obtain ⟨v'', hv'', hle'⟩ := h4' v' hv'
  exact ⟨v'', hv'', hle.trans hle'⟩

omit [Sha256] in
theorem grows_noteClock (s : ConsumerState) (domain : Hex 64) : s.Grows (s.noteClock domain) where
  lastPacket := le_rfl
  lastReceipt := le_rfl
  received := fun _ => le_rfl
  acked := fun _ => le_rfl
  changes := by simp only [noteClock]; split_ifs <;> omega
  timing := (Grows.refl s).timing

omit [Sha256] in
theorem le_maxOpt {a b : Option ℕ} : ∀ v ∈ a, ∃ v' ∈ Row.maxOpt a b, v ≤ v' := by
  rintro v ⟨⟩
  cases b with
  | none => exact ⟨v, rfl, le_rfl⟩
  | some w => exact ⟨max v w, rfl, le_max_left v w⟩

theorem grows_settle {p : Packet} {r : Receipt} {f : Facts} (hid : r.bucketId = s.lastReceipt + 1) :
    s.Grows (s.settle p r f) where
  lastPacket := le_rfl
  lastReceipt := by simp only [settle]; omega
  received := fun _ => le_rfl
  acked := fun c => Nat.le_add_right _ _
  changes := le_rfl
  timing := fun _ => ⟨Nat.le_add_right _ _, Nat.le_add_right _ _, Nat.le_add_right _ _, le_maxOpt⟩

omit [Sha256] in
theorem grows_count {p : Packet} (hid : p.body.bucketId = s.lastPacket + 1) :
    s.Grows (s.count p) where
  lastPacket := by simp only [count]; omega
  lastReceipt := le_rfl
  received := fun c => Nat.le_add_right _ _
  acked := fun _ => le_rfl
  changes := le_rfl
  timing := (Grows.refl s).timing

end ConsumerState

theorem Takes.grows {previous : Option ConsumerState} {raw : List Char} {e : Envelope}
    {middle : ConsumerState} {o : Outcome} (h : Takes previous raw e middle o) :
    (previous.getD initialState).Grows o.state := by
  have h1 := (previous.getD initialState).grows_noteClock e.sourceClockDomainId
  have h2 : ((previous.getD initialState).noteClock e.sourceClockDomainId).Grows middle := by
    rcases ConsumerState.takeReceipt_cases h.receipt with ⟨hm, -⟩ | ⟨r, p, f, -, -, hid, -, -, -, hm, -⟩
    · rw [hm]; exact ConsumerState.Grows.refl _
    · rw [hm]; exact ConsumerState.grows_settle hid
  have h3 : middle.Grows o.state := by
    rcases ConsumerState.takePacket_cases h.packet with ⟨hs, -⟩ | ⟨p, -, -, hid, hs⟩
    · rw [hs]; exact ConsumerState.Grows.refl _
    · rw [hs]; exact ConsumerState.grows_count hid
  exact h1.trans (h2.trans h3)

theorem ConsumerState.Valid.received_eq {s : ConsumerState} (h : s.Valid) : s.receivedCounts =
    s.ackedCounts + s.pending.elim 0 fun p => p.body.aggregate.counts := by
  cases hp : s.pending with
  | none => rw [(h.settled hp).2, Option.elim_none, add_zero]
  | some p =>
    have hsum := (h.pending p hp).received
    unfold sumCounts at hsum
    split_ifs at hsum
    exact (Option.some.inj hsum).symm

/-! ## Replays -/

/-- A report whose numbers are not ahead of the state changes only the clock domain. -/
theorem Takes.replay {previous : Option ConsumerState} {raw : List Char} {e : Envelope}
    {middle : ConsumerState} {o : Outcome} (h : Takes previous raw e middle o)
    (hack : e.ackedBuckets ≤ (previous.getD initialState).lastReceipt)
    (hpkt : ∀ p ∈ e.packet, p.body.bucketId ≤ (previous.getD initialState).lastPacket) :
    o.state = (previous.getD initialState).noteClock e.sourceClockDomainId ∧ o.receiptFacts = [] := by
  have hmid : middle = (previous.getD initialState).noteClock e.sourceClockDomainId ∧
      o.receiptFacts = [] := by
    rcases ConsumerState.takeReceipt_cases h.receipt with ⟨hm, hf, -⟩ | ⟨r, p, f, -, -, hid, -, -, -, hm, -⟩
    · exact ⟨hm, hf⟩
    · -- a new receipt would be ahead of the state
      have hnew : middle.lastReceipt = (previous.getD initialState).lastReceipt + 1 := by
        rw [hm]; exact hid
      have := h.acked.1
      omega
  refine ⟨?_, hmid.2⟩
  rcases ConsumerState.takePacket_cases h.packet with ⟨hs, -⟩ | ⟨p, hp, -, hid, -⟩
  · rw [hs, hmid.1]
  · have := hpkt p hp
    rw [hid, hmid.1] at this
    exact absurd this (Nat.not_succ_le_self _)

end
end SmartHome.Mqtt.Consumer
