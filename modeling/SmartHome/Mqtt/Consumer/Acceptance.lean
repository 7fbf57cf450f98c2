/-
  The consumer against the producer: given the packets and receipts of the past, what a report
  of the producer says, what the state of the consumer has counted, and that a report which is
  not behind the state is accepted.
-/
import SmartHome.Mqtt.Consumer.Codec
import SmartHome.Mqtt.Consumer.Transition
import SmartHome.Mqtt.HandoffValid

namespace SmartHome.Mqtt.Consumer

open Verif

/-! ## Sums over the first packets -/

/-- The counts of the first `n` packets. -/
def countsOf (ps : List Packet) (n : ℕ) : Totals :=
  ((ps.take n).map fun p => p.body.aggregate.counts).sum

section
variable {ps qs : List Packet} {n : ℕ}

@[simp] theorem countsOf_zero (ps : List Packet) : countsOf ps 0 = 0 := rfl

theorem countsOf_succ {p : Packet} (h : ps[n]? = some p) :
    countsOf ps (n + 1) = countsOf ps n + p.body.aggregate.counts := by
  simp [countsOf, List.take_add_one, h]

theorem countsOf_append (h : n ≤ ps.length) : countsOf (ps ++ qs) n = countsOf ps n := by
  rw [countsOf, List.take_append_of_le_length h, countsOf]

end

section
variable {α : Type} {xs ys : List α} {n : ℕ}

/-- The last of the first `n + 1` elements. -/
theorem getLast?_take_succ {a : α} (h : xs[n]? = some a) : (xs.take (n + 1)).getLast? = some a := by
  rw [List.take_add_one, h]
  simp

theorem getLast?_take_eq_none (h : n ≤ xs.length) : (xs.take n).getLast? = none ↔ n = 0 := by
  rw [List.getLast?_eq_none_iff, List.take_eq_nil_iff]
  constructor
  · rintro (h0 | rfl)
    · exact h0
    · simpa using h
  · exact Or.inl

end

/-! ## The past of the producer -/

section
variable [Sha256]

/-- The packets frozen so far and the receipts recorded so far, oldest first. -/
structure Past (ps : List Packet) (rs : List Receipt) : Prop where
  order : rs.length ≤ ps.length ∧ ps.length ≤ rs.length + 1
  packet : ∀ (n : ℕ) (p : Packet), ps[n]? = some p →
    Sendable p ∧ p.body.bucketId = n + 1 ∧ p.body.previousAck = (rs.take n).getLast?
  receipt : ∀ (n : ℕ) (r : Receipt), rs[n]? = some r → r.Valid ∧
    ∃ (p : Packet) (atNs : ℕ) (domain : Hex 64), ps[n]? = some p ∧
      r = p.body.receipt atNs domain p.sha256

/-- A report that the producer wrote. -/
structure Reports (ps : List Packet) (rs : List Receipt) (e : Envelope) : Prop where
  valid : e.Valid
  acked : e.ackedBuckets ≤ rs.length
  lastAck : e.lastAck = (rs.take e.ackedBuckets).getLast?
  counts : e.ackedCounts = countsOf ps e.ackedBuckets
  packet : ∀ p ∈ e.packet, ps[e.ackedBuckets]? = some p

/-- How far a report has come: two for each acknowledged packet, one for a packet it carries. -/
def Envelope.stage (e : Envelope) : ℕ := 2 * e.ackedBuckets + e.packet.isSome.toNat

/-- How far a state has come: one for each packet and one for each receipt. -/
def ConsumerState.stage (s : ConsumerState) : ℕ := s.lastPacket + s.lastReceipt

/-- A state that counted packets and receipts of the producer. -/
structure Counted (ps : List Packet) (rs : List Receipt) (s : ConsumerState) : Prop where
  packets : s.lastPacket ≤ ps.length
  receipts : s.lastReceipt ≤ rs.length
  pending : ∀ p ∈ s.pending, ps[s.lastReceipt]? = some p
  between : s.lastPacket = s.lastReceipt + s.pending.isSome.toNat
  packetSha : s.lastPacketSha = (ps.take s.lastPacket).getLast?.map Packet.sha256
  receiptSha : s.lastReceiptSha = (rs.take s.lastReceipt).getLast?.map receiptDigest
  received : s.receivedCounts = countsOf ps s.lastPacket
  acked : s.ackedCounts = countsOf ps s.lastReceipt

/-- The counters of a state after a report fit their widths. -/
structure Envelope.Fits (e : Envelope) (s : ConsumerState) : Prop where
  counts : ∀ c, (e.ackedCounts + e.packet.elim 0 fun p => p.body.aggregate.counts) c < 2 ^ 128
  changes : (s.noteClock e.sourceClockDomainId).clockDomainChanges < 2 ^ 128

section
variable {ps : List Packet} {rs : List Receipt} {e : Envelope} {s : ConsumerState}

theorem counted_initial (ps : List Packet) (rs : List Receipt) : Counted ps rs initialState :=
  ⟨Nat.zero_le _, Nat.zero_le _, by rintro p ⟨⟩, rfl, rfl, rfl, rfl, rfl⟩

/-- Nothing that a report or a state says about the past changes with more of it. -/
theorem Reports.append (h : Reports ps rs e) (hps : rs.length ≤ ps.length) (ps' : List Packet)
    (rs' : List Receipt) : Reports (ps ++ ps') (rs ++ rs') e where
  valid := h.valid
  acked := h.acked.trans (by simp)
  lastAck := by rw [List.take_append_of_le_length h.acked]; exact h.lastAck
  counts := by rw [countsOf_append (h.acked.trans hps)]; exact h.counts
  packet := fun p hp => by
    have hlt := (List.getElem?_eq_some_iff.1 (h.packet p hp)).1
    rw [List.getElem?_append_left hlt]
    exact h.packet p hp

theorem Counted.append (h : Counted ps rs s) (hps : rs.length ≤ ps.length) (ps' : List Packet)
    (rs' : List Receipt) : Counted (ps ++ ps') (rs ++ rs') s where
  packets := h.packets.trans (by simp)
  receipts := h.receipts.trans (by simp)
  pending := fun p hp => by
    have hlt := (List.getElem?_eq_some_iff.1 (h.pending p hp)).1
    rw [List.getElem?_append_left hlt]
    exact h.pending p hp
  between := h.between
  packetSha := by rw [List.take_append_of_le_length h.packets]; exact h.packetSha
  receiptSha := by rw [List.take_append_of_le_length h.receipts]; exact h.receiptSha
  received := by rw [countsOf_append h.packets]; exact h.received
  acked := by rw [countsOf_append (h.receipts.trans hps)]; exact h.acked

/-- A report is not ahead of the producer. -/
theorem Reports.stage_le (h : Reports ps rs e) (hpast : Past ps rs) : e.stage ≤ ps.length + rs.length := by
  have h1 := h.acked
  have h2 := hpast.order
  unfold Envelope.stage
  cases hp : e.packet with
  | none => simp; omega
  | some p =>
    have := (List.getElem?_eq_some_iff.1 (h.packet p hp)).1
    simp; omega

/-- A state is not ahead of the producer. -/
theorem Counted.stage_le (h : Counted ps rs s) : s.stage ≤ ps.length + rs.length :=
  Nat.add_le_add h.packets h.receipts

/-! ## What an accepted report does to the counts -/

theorem Counted.noteClock (h : Counted ps rs s) (domain : Hex 64) :
    Counted ps rs (s.noteClock domain) :=
  ⟨h.packets, h.receipts, h.pending, h.between, h.packetSha, h.receiptSha, h.received, h.acked⟩

/-- Settling the pending packet with the next receipt. -/
theorem Counted.settle (h : Counted ps rs s) {p : Packet} {r : Receipt} {f : Facts}
    (hp : s.pending = some p) (hid : r.bucketId = s.lastReceipt + 1)
    (hr : rs[s.lastReceipt]? = some r) : Counted ps rs (s.settle p r f) where
  packets := h.packets
  receipts := by
    show r.bucketId ≤ rs.length
    rw [hid]; exact (List.getElem?_eq_some_iff.1 hr).1
  pending := by rintro q ⟨⟩
  between := by
    have := h.between
    rw [hp] at this
    simpa [ConsumerState.settle, hid] using this
  packetSha := h.packetSha
  receiptSha := by
    show some (receiptDigest r) = (rs.take r.bucketId).getLast?.map receiptDigest
    rw [hid, getLast?_take_succ hr]; rfl
  received := h.received
  acked := by
    show s.ackedCounts + p.body.aggregate.counts = countsOf ps r.bucketId
    rw [hid, countsOf_succ (h.pending p hp), h.acked]

/-- Counting the next packet. -/
theorem Counted.count (h : Counted ps rs s) {p : Packet} (hp : s.pending = none)
    (hid : p.body.bucketId = s.lastPacket + 1) (hget : ps[s.lastPacket]? = some p) :
    Counted ps rs (s.count p) := by
  have hbetween : s.lastPacket = s.lastReceipt := by
    have := h.between
    rwa [hp] at this
  refine ⟨?_, h.receipts, ?_, ?_, ?_, h.receiptSha, ?_, h.acked⟩
  · show p.body.bucketId ≤ ps.length
    rw [hid]; exact (List.getElem?_eq_some_iff.1 hget).1
  · rintro q ⟨⟩
    show ps[s.lastReceipt]? = some p
    rw [← hbetween]; exact hget
  · show p.body.bucketId = s.lastReceipt + 1
    rw [hid, hbetween]
  · show some p.sha256 = (ps.take p.body.bucketId).getLast?.map Packet.sha256
    rw [hid, getLast?_take_succ hget]; rfl
  · show s.receivedCounts + p.body.aggregate.counts = countsOf ps p.body.bucketId
    rw [hid, countsOf_succ hget, h.received]

/-- **A report of the producer moves a state to where the report is**, whatever state it is
    taken in. -/
theorem Takes.counted {previous : Option ConsumerState} {raw : List Char} {middle : ConsumerState}
    {o : Outcome} (ht : Takes previous raw e middle o) (hr : Reports ps rs e)
    (hs : Counted ps rs (previous.getD initialState)) :
    Counted ps rs o.state ∧ o.state.lastReceipt = e.ackedBuckets ∧ o.state.stage = e.stage := by
  have hnum := decodeEnvelope_numbered ht.decoded
  set s := (previous.getD initialState).noteClock e.sourceClockDomainId
  have hmid : Counted ps rs middle := by
    have hclock : Counted ps rs s := hs.noteClock _
    rcases ConsumerState.takeReceipt_cases ht.receipt with ⟨hm, -⟩ | ⟨r, p, f, hlast, hp, hid, -, -, -, hm, -⟩
    · rw [hm]; exact hclock
    · rw [hm]
      refine hclock.settle hp hid ?_
      -- the receipt is the last one that the report tells of
      have hacked : e.ackedBuckets = s.lastReceipt + 1 := by rw [← hnum.receipt r hlast, hid]
      have hlt : s.lastReceipt < rs.length := by have := hr.acked; omega
      have hget := List.getElem?_eq_getElem hlt
      have hl := hr.lastAck
      rw [hacked, getLast?_take_succ hget, hlast] at hl
      rw [hget, hl]
  have hreceipt : o.state.lastReceipt = e.ackedBuckets ∧ Counted ps rs o.state ∧
      (o.state.pending.isSome ↔ e.packet.isSome) := by
    rcases ConsumerState.takePacket_cases ht.packet with ⟨ho, hnone, hsome⟩ | ⟨p, hp, hpend, hid, ho⟩
    · rw [ho]
      refine ⟨ht.acked.1.symm, hmid, ?_⟩
      cases hpkt : e.packet with
      | none => simp [hnone hpkt]
      | some p =>
        obtain ⟨-, q, hq, -⟩ := hsome p hpkt
        simp [Option.mem_def.1 hq]
    · have hacked : middle.lastPacket = e.ackedBuckets := by
        have := hnum.packet p hp
        omega
      rw [ho, hp]
      refine ⟨ht.acked.1.symm, hmid.count hpend hid ?_, by simp [ConsumerState.count]⟩
      rw [hacked]; exact hr.packet p hp
  obtain ⟨hack, hcounted, hpend⟩ := hreceipt
  refine ⟨hcounted, hack, ?_⟩
  have hbetween := hcounted.between
  have hbool : o.state.pending.isSome.toNat = e.packet.isSome.toNat := by
    rw [Bool.eq_iff_iff.2 hpend]
  simp only [ConsumerState.stage, Envelope.stage]
  omega

/-! ## Valid states -/

/-- The parts of validity that are not about packets and receipts. -/
structure Sane (s : ConsumerState) : Prop where
  checkpoint : ∀ c ∈ s.canvasCheckpoint, c.Valid ∧ c.receiptId ≤ s.lastReceipt
  changes : s.clockDomainChanges < 2 ^ 128
  acked : s.ackedCounts.Valid
  received : s.receivedCounts.Valid
  clock : s.pending.isSome → s.reportClockDomainId.isSome
  timing : ∀ k, (s.timing k).observed = (s.timing k).timed + (s.timing k).timingUnknown ∧
    (s.timing k).observed = s.ackedCounts (.stat k .observed) ∧
    (s.timing k).timed ≤ s.ackedCounts (.stat k .timed) ∧
    if 0 < (s.timing k).timed then ∃ v ∈ (s.timing k).maxUpperNs, v < 2 ^ 64
    else (s.timing k).maxUpperNs = none

/-- The receipt before a packet: there is none before the first, and it names the one before. -/
theorem Past.previous (h : Past ps rs) {n : ℕ} {r : Receipt} (hr : (rs.take n).getLast? = some r)
    (hn : n ≤ rs.length) : r.Valid ∧ r.bucketId = n := by
  obtain ⟨m, rfl⟩ : ∃ m, n = m + 1 := by
    refine Nat.exists_eq_succ_of_ne_zero fun h0 => ?_
    rw [h0] at hr; cases hr
  have hget := List.getElem?_eq_getElem (show m < rs.length by omega)
  rw [getLast?_take_succ hget] at hr
  rw [Option.some.inj hr] at hget
  obtain ⟨hv, p, atNs, domain, hp, rfl⟩ := h.receipt m r hget
  exact ⟨hv, (h.packet m p hp).2.1⟩

/-- The ids of the packets of the past. -/
theorem Past.ids (h : Past ps rs) :
    ps.map (fun p => p.body.bucketId) = List.range' 1 ps.length := by
  refine List.ext_getElem? fun n => ?_
  rw [List.getElem?_map]
  cases hp : ps[n]? with
  | none =>
    have hlen := List.getElem?_eq_none_iff.1 hp
    rw [Option.map_none, eq_comm, List.getElem?_eq_none_iff]
    simpa using hlen
  | some p =>
    have hlt := (List.getElem?_eq_some_iff.1 hp).1
    rw [Option.map_some, (h.packet n p hp).2.1, List.getElem?_range' hlt]
    congr 1; omega

theorem Past.width (h : Past ps rs) {n : ℕ} (hn : n ≤ ps.length) : n < 2 ^ 64 := by
  cases n with
  | zero => exact Nat.two_pow_pos 64
  | succ m =>
    obtain ⟨hs, hid, -⟩ := h.packet m _ (List.getElem?_eq_getElem (show m < ps.length by omega))
    rw [← hid]; exact hs.bucketId

/-- **A state that counted the past of the producer is valid**, if its other parts are. -/
theorem Counted.valid (hpast : Past ps rs) (h : Counted ps rs s) (hs : Sane s) : s.Valid := by
  have hk : s.lastReceipt < 2 ^ 64 := hpast.width (h.receipts.trans hpast.order.1)
  have hbetween := h.between
  refine ⟨hs.checkpoint, ?_, ⟨hpast.width h.packets, hk⟩, ?_, ?_, hs.changes, hs.acked, hs.received,
    fun p hp => ?_, fun hp => ?_, hs.timing⟩
  · cases hp : s.pending <;> rw [hp] at hbetween <;> simp at hbetween <;> omega
  · rw [h.packetSha, Option.map_eq_none_iff, getLast?_take_eq_none h.packets]
  · rw [h.receiptSha, Option.map_eq_none_iff, getLast?_take_eq_none h.receipts]
  · have hsent : s.lastPacket = s.lastReceipt + 1 := by rw [Option.mem_def.1 hp] at hbetween; exact hbetween
    have hget := h.pending p hp
    obtain ⟨hsend, hid, hprev⟩ := hpast.packet _ _ hget
    have hacked : s.ackedCounts + p.body.aggregate.counts = s.receivedCounts := by
      rw [h.acked, h.received, hsent, countsOf_succ hget]
    refine ⟨hsent, by rw [hid, hsent], ?_, ?_, ?_, ?_⟩
    · rw [h.packetSha, hsent, getLast?_take_succ hget]; rfl
    · split_ifs with h0
      · rw [hprev, getLast?_take_eq_none h.receipts]; exact h0
      · obtain ⟨r, hr⟩ := Option.ne_none_iff_exists'.1
          (mt (getLast?_take_eq_none h.receipts).1 h0)
        exact ⟨r, by rw [hprev]; exact hr, by rw [h.receiptSha, hr]; rfl⟩
    · obtain ⟨domain, hdomain⟩ := Option.isSome_iff_exists.1 (hs.clock (by rw [Option.mem_def.1 hp]; rfl))
      refine ⟨domain, hdomain, ?_⟩
      have henv : (s.pendingEnvelope p domain).Valid := by
        refine ⟨hk, hs.acked, fun r hr => ?_, fun hn => ?_, ?_⟩
        · exact hpast.previous (hprev.symm.trans hr) h.receipts
        · exact (getLast?_take_eq_none h.receipts).1 (hprev.symm.trans hn)
        · rintro q ⟨⟩; exact ⟨hsend, hid, rfl⟩
      rw [decodeEnvelope_text henv]; rfl
    · rw [sumCounts, hacked, if_pos ⟨hs.acked, hsend.aggregate.counts, hs.received⟩]
  · rw [hp] at hbetween
    refine ⟨hbetween, ?_⟩
    rw [h.received, h.acked, hbetween]; rfl

omit [Sha256] in
theorem sane_initial : Sane initialState where
  checkpoint := by rintro c ⟨⟩
  changes := Nat.two_pow_pos 128
  acked := ⟨fun _ => Nat.two_pow_pos 128, Totals.balanced_zero⟩
  received := ⟨fun _ => Nat.two_pow_pos 128, Totals.balanced_zero⟩
  clock := nofun
  timing := fun _ => ⟨rfl, rfl, le_rfl, rfl⟩

theorem ConsumerState.Valid.sane {domain : Hex 64} (h : s.Valid)
    (hc : (s.noteClock domain).clockDomainChanges < 2 ^ 128) : Sane (s.noteClock domain) :=
  ⟨h.checkpoint, hc, h.acked, h.received, fun _ => rfl, h.timing⟩

/-! ## Receipts -/

/-- The facts of a receipt that the producer made for a packet. -/
theorem receiptFacts_receipt {p : Packet} {atNs : ℕ} {domain : Hex 64} (hp : Sendable p)
    (hr : (p.body.receipt atNs domain p.sha256).Valid) :
    ∃ f, receiptFacts p (p.body.receipt atNs domain p.sha256) = some f ∧
      f.byKind = kindFacts p (p.body.receipt atNs domain p.sha256) := by
  have hlast : ∃ l, p.body.aggregate.lastReaderNs = some l := by
    have := hp.aggregate.readers
    rw [if_neg hp.nonempty] at this
    obtain ⟨-, -, l, hl, -⟩ := this
    exact ⟨l, hl⟩
  obtain ⟨l, hl⟩ := hlast
  have hordered : Ordered p (p.body.receipt atNs domain p.sha256) ↔ p.body.Ordered atNs domain := by
    simp only [Ordered, PacketBody.Ordered, PacketBody.receipt, hl, Option.mem_def,
      Option.some.injEq, exists_eq_left', forall_eq']
    constructor
    · rintro ⟨hd, ha, hc, hle, hr⟩
      exact ⟨hd, by rw [← hd]; exact ha, hc, hle, hr, hr.trans hle⟩
    · rintro ⟨hd, ha, hc, hle, hr, -⟩
      exact ⟨hd, by rw [hd]; exact ha, hc, hle, hr⟩
  -- where the clocks are ordered, the oldest event is not later than the receipt
  have holdest : p.body.Ordered atNs domain → ∀ k, ∀ o ∈ p.body.aggregate.oldestSourceNs k, o ≤ atNs := by
    rintro ⟨-, -, hc, -, -, hle⟩ k o ho
    obtain ⟨l', hl', hol⟩ := hp.aggregate.ordered hc k o ho
    exact hol.trans (hle l' hl')
  have hknown : ∀ k, (kindFacts p (p.body.receipt atNs domain p.sha256) k).timed =
      (p.body.ackRow atNs domain k).timed := by
    intro k
    simp only [kindFacts, PacketBody.ackRow, hordered]
    by_cases ho : p.body.Ordered atNs domain
    · cases hsrc : p.body.aggregate.oldestSourceNs k with
      | none => simp
      | some o => simp [ho, holdest ho k o hsrc]
    · simp [ho]
  have hrow : ∀ k, p.body.ackRow atNs domain k =
      ⟨(kindFacts p (p.body.receipt atNs domain p.sha256) k).observed,
        (kindFacts p (p.body.receipt atNs domain p.sha256) k).timed,
        (kindFacts p (p.body.receipt atNs domain p.sha256) k).timingUnknown,
        (kindFacts p (p.body.receipt atNs domain p.sha256) k).sourceToConsumerUpperNs⟩ := by
    intro k
    have ht := hknown k
    simp only [kindFacts, PacketBody.ackRow] at ht ⊢
    simp only [ht, AckRow.mk.injEq, true_and]
    split_ifs <;> first | rfl | omega
  refine ⟨⟨p.body.bucketId, decide (p.body.Ordered atNs domain),
    kindFacts p (p.body.receipt atNs domain p.sha256), atNs, domain⟩, ?_, rfl⟩
  simp only [receiptFacts, bind_some, guard_some, exists_unit, pure_some]
  refine ⟨hr, ⟨rfl, rfl⟩, ?_, ?_, fun k => hrow k, fun k hk o ho => ?_, rfl⟩
  · exact decide_eq_decide.2 hordered.symm
  · simp only [hordered]; rfl
  · have htimed : p.body.Ordered atNs domain := by
      by_contra hno
      simp [kindFacts, hordered, hno] at hk
    exact holdest htimed k o ho

/-- What the facts of a receipt say about a kind. -/
theorem kindFacts_timing {p : Packet} {atNs : ℕ} (hp : Sendable p) (hat : atNs < 2 ^ 64)
    (domain : Hex 64) (k : Kind) :
    let f := kindFacts p (p.body.receipt atNs domain p.sha256) k
    f.observed = f.timed + f.timingUnknown ∧
    f.observed = p.body.aggregate.counts (.stat k .observed) ∧
    f.timed ≤ p.body.aggregate.counts (.stat k .timed) ∧
    if 0 < f.timed then ∃ v ∈ f.sourceToConsumerUpperNs, v < 2 ^ 64
    else f.sourceToConsumerUpperNs = none := by
  have hbalanced := hp.aggregate.counts.2 k
  simp only [kindFacts]
  by_cases h : Ordered p (p.body.receipt atNs domain p.sha256) ∧
      (p.body.aggregate.oldestSourceNs k).isSome
  · obtain ⟨o, ho⟩ := Option.isSome_iff_exists.1 h.2
    simp only [h, and_self, if_true, le_refl, true_and]
    refine ⟨by omega, ?_⟩
    by_cases h0 : 0 < p.body.aggregate.counts (.stat k .timed)
    · rw [if_pos h0, if_pos h0, ho]
      exact ⟨atNs - o, rfl, by omega⟩
    · rw [if_neg h0, if_neg h0]
  · simp [h]

theorem Sane.settle (h : Sane s) {p : Packet} {atNs : ℕ} {domain : Hex 64} (hp : Sendable p)
    (hat : atNs < 2 ^ 64) (hid : s.lastReceipt ≤ p.body.bucketId) {f : Facts}
    (hf : f.byKind = kindFacts p (p.body.receipt atNs domain p.sha256))
    (hacked : (s.ackedCounts + p.body.aggregate.counts).Valid) :
    Sane (s.settle p (p.body.receipt atNs domain p.sha256) f) where
  checkpoint := fun c hc => ⟨(h.checkpoint c hc).1, (h.checkpoint c hc).2.trans hid⟩
  changes := h.changes
  acked := hacked
  received := h.received
  clock := nofun
  timing := fun k => by
    obtain ⟨hsum, hobs, htimed, hmax⟩ := h.timing k
    obtain ⟨fsum, fobs, ftimed, fmax⟩ := kindFacts_timing hp hat domain k
    simp only [ConsumerState.settle, TimingRow.add, hf, Pi.add_apply]
    refine ⟨by omega, by omega, by omega, ?_⟩
    -- the maximum is there exactly if one of the two is
    split_ifs with h0
    · by_cases hs0 : 0 < (s.timing k).timed
      · rw [if_pos hs0] at hmax
        obtain ⟨v, hv, hlt⟩ := hmax
        rw [Option.mem_def.1 hv]
        cases hu : (kindFacts p (p.body.receipt atNs domain p.sha256) k).sourceToConsumerUpperNs with
        | none => exact ⟨v, rfl, hlt⟩
        | some w =>
          refine ⟨max v w, rfl, ?_⟩
          split_ifs at fmax with hf0
          · obtain ⟨w', hw', hwlt⟩ := fmax
            rw [hu] at hw'; cases hw'
            exact max_lt hlt hwlt
          · rw [hu] at fmax; cases fmax
      · rw [if_neg hs0] at hmax
        rw [if_pos (by omega)] at fmax
        obtain ⟨w, hw, hlt⟩ := fmax
        rw [hmax, Option.mem_def.1 hw]
        exact ⟨w, rfl, hlt⟩
    · rw [if_neg (by omega)] at hmax fmax
      rw [hmax, fmax]; rfl

omit [Sha256] in
theorem Sane.count (h : Sane s) {p : Packet} (hclock : s.reportClockDomainId.isSome)
    (hreceived : (s.receivedCounts + p.body.aggregate.counts).Valid) : Sane (s.count p) where
  checkpoint := h.checkpoint
  changes := h.changes
  acked := h.acked
  received := hreceived
  clock := fun _ => hclock
  timing := h.timing

/-! ## Reports are accepted -/

/-- The receipt of a report that is at most one receipt ahead is taken. -/
theorem Counted.takesReceipt (hpast : Past ps rs) (hr : Reports ps rs e) (h : Counted ps rs s)
    (hs : Sane s) (hle : s.lastReceipt ≤ e.ackedBuckets) (hreach : e.ackedBuckets ≤ s.lastPacket) :
    ∃ middle fs, s.takeReceipt e.lastAck = .ok (middle, fs) ∧ Counted ps rs middle ∧ Sane middle ∧
      middle.lastReceipt = e.ackedBuckets ∧ middle.lastPacket = s.lastPacket ∧
      middle.reportClockDomainId = s.reportClockDomainId := by
  have hbetween := h.between
  have hbool := Bool.toNat_le s.pending.isSome
  by_cases heq : e.ackedBuckets = s.lastReceipt
  · -- the receipt that the state knows
    refine ⟨s, [], ?_, h, hs, heq.symm, rfl, rfl⟩
    cases hl : e.lastAck with
    | none =>
      have h0 : s.lastReceipt = 0 := by rw [← heq]; exact hr.valid.noAck hl
      simp [ConsumerState.takeReceipt, need, h0]
    | some r =>
      have hid : r.bucketId = s.lastReceipt := by rw [← heq]; exact (hr.valid.lastAck r hl).2
      have hsha : s.lastReceiptSha = some (receiptDigest r) := by
        rw [h.receiptSha, ← heq, ← hr.lastAck, hl]; rfl
      simp [ConsumerState.takeReceipt, need, hid, hsha]
  · -- the receipt of the pending packet
    have hacked : e.ackedBuckets = s.lastReceipt + 1 := by omega
    obtain ⟨p, hp⟩ : ∃ p, s.pending = some p := by
      cases hp : s.pending with
      | none => rw [hp] at hbetween; simp at hbetween; omega
      | some p => exact ⟨p, rfl⟩
    have hlt : s.lastReceipt < rs.length := by have := hr.acked; omega
    obtain ⟨r, hget⟩ : ∃ r, rs[s.lastReceipt]? = some r := ⟨_, List.getElem?_eq_getElem hlt⟩
    have hlast : e.lastAck = some r := by rw [hr.lastAck, hacked, getLast?_take_succ hget]
    obtain ⟨hrv, p', atNs, domain, hp', rfl⟩ := hpast.receipt _ r hget
    obtain rfl : p' = p := Option.some.inj (hp'.symm.trans (h.pending p hp))
    obtain ⟨hsend, hid, -⟩ := hpast.packet _ _ hp'
    have hcounts : s.ackedCounts + p'.body.aggregate.counts = e.ackedCounts := by
      rw [h.acked, ← countsOf_succ hp', hr.counts, hacked]
    have hvalid : (s.ackedCounts + p'.body.aggregate.counts).Valid := by
      rw [hcounts]; exact hr.valid.ackedCounts
    have hsum : sumCounts s.ackedCounts p'.body.aggregate.counts =
        some (s.ackedCounts + p'.body.aggregate.counts) := by
      rw [sumCounts, if_pos ⟨hs.acked, hsend.aggregate.counts, hvalid⟩]
    obtain ⟨f, hfacts, hkinds⟩ := receiptFacts_receipt hsend hrv
    have hat : atNs < 2 ^ 64 := hrv.ackAtNs
    refine ⟨s.settle p' (p'.body.receipt atNs domain p'.sha256) f, [f], ?_, h.settle hp hid hget,
      hs.settle hsend hat (by omega) hkinds hvalid, ?_, rfl, rfl⟩
    rotate_left 1
    · rw [hacked]; exact hid
    · have hlt' : s.lastReceipt < (p'.body.receipt atNs domain p'.sha256).bucketId := by
        show s.lastReceipt < p'.body.bucketId
        omega
      have hid' : (p'.body.receipt atNs domain p'.sha256).bucketId = s.lastReceipt + 1 := hid
      rw [hlast]
      simp [ConsumerState.takeReceipt, need, hid', hp, orFail, hid, hfacts, hsum]

/-- The packet of a report that is not behind is taken, if its counts fit. -/
theorem Counted.takesPacket (hpast : Past ps rs) (hr : Reports ps rs e) (h : Counted ps rs s)
    (hs : Sane s) (hack : s.lastReceipt = e.ackedBuckets) (hstage : s.stage ≤ e.stage)
    (hclock : s.reportClockDomainId.isSome)
    (hfits : ∀ c, (e.ackedCounts + e.packet.elim 0 fun p => p.body.aggregate.counts) c < 2 ^ 128) :
    ∃ s', s.takePacket e.packet = .ok s' ∧ Counted ps rs s' ∧ Sane s' := by
  have hbetween := h.between
  simp only [ConsumerState.stage, Envelope.stage] at hstage
  cases hp : e.packet with
  | none =>
    have hnone : s.pending = none := by
      cases hq : s.pending with
      | none => rfl
      | some q => rw [hq] at hbetween; rw [hp] at hstage; simp at hbetween hstage; omega
    exact ⟨s, by simp [ConsumerState.takePacket, need, hnone], h, hs⟩
  | some p =>
    have hget := hr.packet p hp
    obtain ⟨hsend, hid, -⟩ := hpast.packet _ p hget
    cases hq : s.pending with
    | some q =>
      -- the packet is the pending one
      have hget' := h.pending q hq
      rw [hack] at hget'
      obtain rfl : q = p := Option.some.inj (hget'.symm.trans hget)
      rw [hq] at hbetween
      have hid' : q.body.bucketId = s.lastPacket := by rw [hid, hbetween, hack]; rfl
      exact ⟨s, by simp [ConsumerState.takePacket, need, hid', hq], h, hs⟩
    | none =>
      rw [hq] at hbetween
      have hpkt : s.lastPacket = e.ackedBuckets := by rw [hbetween, hack]; rfl
      have hreceived : (s.receivedCounts + p.body.aggregate.counts).Valid := by
        have hsum : s.receivedCounts + p.body.aggregate.counts =
            e.ackedCounts + p.body.aggregate.counts := by rw [h.received, hpkt, hr.counts]
        rw [hsum]
        rw [hp] at hfits
        exact ⟨hfits, hr.valid.ackedCounts.2.add hsend.aggregate.counts.2⟩
      have hsum : sumCounts s.receivedCounts p.body.aggregate.counts =
          some (s.receivedCounts + p.body.aggregate.counts) := by
        rw [sumCounts, if_pos ⟨hs.received, hsend.aggregate.counts, hreceived⟩]
      have hid' : p.body.bucketId = s.lastPacket + 1 := by rw [hid, hpkt]
      refine ⟨s.count p, ?_, h.count hq hid' (by rw [hpkt]; exact hget), hs.count hclock hreceived⟩
      simp [ConsumerState.takePacket, need, hid', hq, orFail, hsum]

/-- **A report of the producer that is not behind the state is accepted**, if the counters fit. -/
theorem Reports.accepted (hpast : Past ps rs) (hr : Reports ps rs e)
    {previous : Option ConsumerState} (hv : ∀ s ∈ previous, s.Valid)
    (h : Counted ps rs (previous.getD initialState))
    (hstage : (previous.getD initialState).stage ≤ e.stage)
    (hreach : e.ackedBuckets ≤ (previous.getD initialState).lastPacket)
    (hfits : e.Fits (previous.getD initialState)) :
    ∃ o, transition previous e.text = .ok o := by
  have hclock := h.noteClock e.sourceClockDomainId
  have hsane : Sane ((previous.getD initialState).noteClock e.sourceClockDomainId) := by
    cases previous with
    | none => exact (h.valid hpast sane_initial).sane hfits.changes
    | some s => exact (hv s rfl).sane hfits.changes
  have hle : (previous.getD initialState).lastReceipt ≤ e.ackedBuckets := by
    have := h.between
    have := Bool.toNat_le e.packet.isSome
    simp only [ConsumerState.stage, Envelope.stage] at hstage
    omega
  obtain ⟨middle, fs, hrec, hmid, hsmid, hack, hpkt, hdomain⟩ :=
    hclock.takesReceipt hpast hr hsane hle hreach
  have hstage' : middle.stage ≤ e.stage := by
    have hpkt' : middle.lastPacket = (previous.getD initialState).lastPacket := hpkt
    have hbetween := h.between
    have hbool := Bool.toNat_le (previous.getD initialState).pending.isSome
    simp only [ConsumerState.stage, Envelope.stage] at hstage ⊢
    omega
  obtain ⟨s', hpacket, hs', hsane'⟩ := hmid.takesPacket hpast hr hsmid hack hstage'
    (by rw [hdomain]; rfl) hfits.counts
  have hacked : e.ackedBuckets = middle.lastReceipt ∧ e.ackedCounts = middle.ackedCounts :=
    ⟨hack.symm, by rw [hmid.acked, hack]; exact hr.counts⟩
  refine ⟨⟨s', s'.pending.map ackFor, decide (previous ≠ some s'), fs⟩, transition_ok.2
    ⟨e, middle, decodeEnvelope_text hr.valid, ?_, hv, hrec, hacked, hpacket, hs'.valid hpast hsane',
      rfl, rfl⟩⟩
  rintro rfl
  exact Nat.le_zero.1 hreach

end
end
end SmartHome.Mqtt.Consumer
