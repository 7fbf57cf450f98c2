/-
  How long the texts are.  A counter that fits its width has at most 39 digits, so the texts
  of a valid ledger body stay below the capacity of the snapshot.
-/
import SmartHome.Mqtt.Ledger
import Mathlib.Algebra.Order.BigOperators.Group.List
import Mathlib.Tactic.Linarith

namespace SmartHome.Mqtt

open Verif Verif.Json

/-! ## Texts of single values -/

/-- The text of a number, quoted or not, has room for 39 digits. -/
def Narrow (n : ℕ → Json) : Prop := ∀ m < 2 ^ 128, (n m).render.length ≤ 41

theorem length_decimal_le {m : ℕ} (h : m < 2 ^ 128) : (decimal m).length ≤ 39 :=
  (Nat.length_toDigits_le_iff (by norm_num) (by norm_num)).2 (h.trans (by norm_num))

theorem narrow_int : Narrow fun m => .int m := by
  intro m hm
  have := length_decimal_le hm
  simp only [render, Int.natAbs_natCast]
  rw [if_neg (by omega)]
  omega

theorem narrow_num : Narrow num := by
  intro m hm
  have := length_decimal_le hm
  rw [num, render, length_quote_plain, String.toList_ofList]
  · omega
  · rw [String.toList_ofList]
    exact fun c hc => plain_of_isDigit (decimal_isDigit c hc)

theorem length_hex {m : ℕ} (h : Hex m) : (hexJson h).render.length = m + 2 := by
  rw [hexJson, render, length_quote_plain (plain_hex h), length_toList_hex]

/-! ## Texts of records -/

/-- An object with short keys whose members have texts of bounded length. -/
theorem length_obj_bounded {kvs : List (String × Json)} {w : ℕ}
    (hk : ∀ m ∈ kvs, (quote m.1).length ≤ 40) (hv : ∀ m ∈ kvs, m.2.render.length ≤ w) :
    (obj kvs).render.length ≤ kvs.length * (w + 42) + 2 := by
  have hsum : (kvs.map memberLen).sum ≤ (kvs.map memberLen).length • (w + 42) := by
    refine List.sum_le_card_nsmul _ _ fun l hl => ?_
    obtain ⟨m, hm, rfl⟩ := List.mem_map.1 hl
    have h1 := hk m hm
    have h2 := hv m hm
    simp only [memberLen]; omega
  rw [List.length_map, smul_eq_mul] at hsum
  exact (length_obj_le kvs).trans (by omega)

section
variable {n : ℕ → Json} (hn : Narrow n)
include hn

theorem length_opt {o : Option ℕ} (ho : ∀ m ∈ o, m < 2 ^ 128) : (optJson n o).render.length ≤ 41 := by
  cases o with
  | none => simp [optJson, render]
  | some m => exact hn m (ho m rfl)

omit hn in
theorem length_bool (b : Bool) : (Json.bool b).render.length ≤ 5 := by
  cases b <;> simp [render]

omit hn in
theorem length_optHex {m : ℕ} (o : Option (Hex (m + 2))) : (optHexJson o).render.length ≤ m + 4 := by
  cases o with
  | none => simp [optHexJson, render]
  | some h => exact (length_hex h).le

omit hn in
theorem length_kinds {f : Kind → Json} {w : ℕ} (hf : ∀ k, (f k).render.length ≤ w) :
    (kindJson f).render.length ≤ 7 * (w + 42) + 2 := by
  refine (length_obj_bounded (w := w) ?_ ?_).trans (by simp)
  · simp [quote, escape]
  · simp [hf]

theorem length_columns {f : Column → ℕ} (hf : ∀ c, f c < 2 ^ 128) :
    (columnJson n f).render.length ≤ 583 := by
  have h := fun c => hn _ (hf c)
  refine (length_obj_bounded (w := 41) ?_ ?_).trans (by simp)
  · simp [quote, escape]
  · simp [h]

theorem length_faults {f : Fault → ℕ} (hf : ∀ c, f c < 2 ^ 128) :
    (faultJson n f).render.length ≤ 583 := by
  have h := fun c => hn _ (hf c)
  refine (length_obj_bounded (w := 41) ?_ ?_).trans (by simp)
  · simp [quote, escape]
  · simp [h]

theorem length_totals {t : Totals} (ht : ∀ c, t c < 2 ^ 128) : (t.json n).render.length ≤ 6000 := by
  have h := fun c => hn _ (ht c)
  have hfaults := length_faults hn fun f => ht (.fault f)
  have hstats := length_kinds fun k => length_columns hn fun c => ht (.stat k c)
  refine (length_obj_le _).trans ?_
  simp [memberLen, quote, escape]
  linarith [h (.header .ackClockConflicts), h (.header .ackRejections), h (.header .duplicates),
    h (.header .frames), h (.header .reportGaps), h (.header .sessions),
    h (.header .sourceClockFaults), h (.header .sourceEpochs), h (.header .sourceSendFailures),
    h (.header .unknownEpochTails)]

theorem length_bucket {b : Bucket} (hb : b.Valid) : (b.json n).render.length ≤ 8000 := by
  have hcounts := length_totals hn hb.counts.1
  have hdomain : (optHexJson b.clockDomainId).render.length ≤ 66 := length_optHex _
  have hopt : ∀ {o : Option ℕ}, (∀ v ∈ o, v < 2 ^ 64) → (optJson n o).render.length ≤ 41 :=
    fun h => length_opt hn fun v hv => (h v hv).trans (by norm_num)
  have hreaders : (∀ v ∈ b.firstReaderNs, v < 2 ^ 64) ∧ ∀ v ∈ b.lastReaderNs, v < 2 ^ 64 := by
    have := hb.readers
    split_ifs at this
    · simp [this]
    · obtain ⟨first, hf, last, hl, h1, h2, -⟩ := this
      rw [Option.mem_def.1 hf, Option.mem_def.1 hl]
      simpa using ⟨h1, h2⟩
  have htimes : ∀ {f : Kind → Option ℕ}, (∀ k, (b.counts (.stat k .timed) = 0 ∧ f k = none) ∨
      (0 < b.counts (.stat k .timed) ∧ ∃ v ∈ f k, v < 2 ^ 64)) →
      (kindJson fun k => optJson n (f k)).render.length ≤ 7 * (41 + 42) + 2 := by
    intro f h
    refine length_kinds fun k => hopt ?_
    rcases h k with ⟨-, h⟩ | ⟨-, v, hv, hlt⟩
    · simp [h]
    · rw [Option.mem_def.1 hv]; simpa using hlt
  have h1 := hopt hreaders.1
  have h2 := hopt hreaders.2
  have h3 := htimes hb.oldest
  have h4 := htimes hb.maximum
  have hbool := length_bool b.clockDomainConflict
  refine (length_obj_le _).trans ?_
  simp [memberLen, quote, escape]
  omega

theorem length_receipt {r : Receipt} (hr : r.Valid) : (r.json n).render.length ≤ 4000 := by
  have hrow : ∀ k, ((r.sourceToAck k).json n).render.length ≤ 4 * (41 + 42) + 2 := by
    intro k
    obtain ⟨h1, h2, h3, -, h4⟩ := hr.rows k
    have hu : ∀ m ∈ (r.sourceToAck k).upperNs, m < 2 ^ 128 := by
      rcases h4 with ⟨-, h4⟩ | ⟨-, ⟨v, hv, hlt⟩, -⟩
      · simp [h4]
      · rw [Option.mem_def.1 hv]; simpa using hlt.trans (by norm_num)
    refine (length_obj_bounded (w := 41) ?_ ?_).trans (by simp)
    · simp [quote, escape]
    · simp [hn _ h1, hn _ h2, hn _ h3, length_opt hn hu]
  have hkinds := length_kinds hrow
  have hid := hn _ (hr.bucketId.1.trans (by norm_num))
  have hat := hn _ (hr.ackAtNs.trans (by norm_num))
  have hpub : (optJson n r.publicationToAckNs).render.length ≤ 41 := by
    refine length_opt hn fun m hm => ?_
    have := hr.publication
    split_ifs at this
    · obtain ⟨v, hv, hlt⟩ := this
      rw [Option.mem_def.1 hv] at hm
      cases hm
      exact hlt.trans (by norm_num)
    · simp [this] at hm
  have hdom := length_hex r.ackClockDomainId
  have hsha := length_hex r.sha256
  have hbool := length_bool r.clockOrdered
  refine (length_obj_le _).trans ?_
  simp [memberLen, quote, escape]
  omega

theorem length_optReceipt {o : Option Receipt} (ho : ∀ r ∈ o, r.Valid) :
    (optReceiptJson n o).render.length ≤ 4000 := by
  cases o with
  | none => simp [optReceiptJson, render]
  | some r => exact length_receipt hn (ho r rfl)

theorem length_packetBody {v : PacketBody} (hid : v.bucketId < 2 ^ 64) (hagg : v.aggregate.Valid)
    (hat : v.publishedAtNs < 2 ^ 64) (hprev : ∀ r ∈ v.previousAck, r.Valid) :
    (v.json n).render.length ≤ 13000 := by
  have h1 := hn _ (hid.trans (by norm_num))
  have h2 := hn _ (hat.trans (by norm_num))
  have h3 := length_bucket hn hagg
  have h4 := length_optReceipt hn hprev
  have h5 := length_hex v.publisherClockDomainId
  refine (length_obj_le _).trans ?_
  simp [memberLen, quote, escape]
  omega

theorem length_row {r : Row} (hr : r.Valid) : (r.json n).render.length ≤ 8 * (41 + 42) + 2 := by
  have h := fun c => hn _ (hr.count c)
  have hm : ∀ m ∈ r.maxSourceToReaderNs, m < 2 ^ 128 := by
    rcases hr.maximum with ⟨h, -⟩ | ⟨v, hv, hlt, -⟩
    · simp [h]
    · rw [Option.mem_def.1 hv]; simpa using hlt
  refine (length_obj_bounded (w := 41) ?_ ?_).trans (by simp)
  · simp [quote, escape]
  · simp [h, length_opt hn hm]

theorem length_rows {f : Kind → Row} (hf : ∀ k, (f k).Valid) :
    (kindJson fun k => (f k).json n).render.length ≤ 5000 :=
  (length_kinds fun k => length_row hn (hf k)).trans (by norm_num)

theorem length_summary {s : State} (hs : s.Valid) {p : EpochSummary}
    (hp : p ∈ s.previousEpochSummary) : (p.json n).render.length ≤ 6000 := by
  obtain ⟨h1, -, -, h2, -, hrows, hcf, hsf⟩ := hs.summary p hp
  have h3 := hn _ (hcf.trans_lt hs.pastClockFaults)
  have h4 := hn _ (hsf.trans_lt hs.pastSendFailures)
  have h5 := hn _ h1
  have h6 := hn _ h2
  have h7 := length_rows hn hrows
  have h8 := length_bool p.tailUnknown
  refine (length_obj_le _).trans ?_
  simp [memberLen, quote, escape]
  omega

omit hn in
theorem sum_memberOpt {k : String} {o : Option Json} {w : ℕ} (hk : (quote k).length ≤ 40)
    (ho : ∀ v ∈ o, v.render.length ≤ w) : ((memberOpt k o).map memberLen).sum ≤ w + 42 := by
  cases o with
  | none => simp [memberOpt]
  | some v =>
    have := ho v rfl
    simp only [memberOpt, List.map_cons, List.map_nil, List.sum_cons, List.sum_nil, memberLen]
    omega

theorem length_state {s : State} (hs : s.Valid) : (s.json n).render.length ≤ 30000 := by
  have hcover : ∀ m ∈ s.lastCoveredBeforeNs, m < 2 ^ 128 := by
    intro m hm
    have h := hs.covered
    simp only [State.CoveredValid] at h
    split_ifs at h
    · exact (h m hm).1.trans (by norm_num)
    · simp [h] at hm
  have hwire : s.lastSourceWireVersion < 2 ^ 128 := by
    have h := hs.wire
    split_ifs at h <;> omega
  have hversion : s.version < 2 ^ 128 := by have := hs.version; omega
  have hkinds : ∀ {f : Kind → ℕ}, (∀ k, f k < 2 ^ 128) →
      (kindJson fun k => n (f k)).render.length ≤ 7 * (41 + 42) + 2 :=
    fun h => length_kinds fun k => hn _ (h k)
  have h1 := hn _ hs.clockFaults
  have h2 := hn _ hs.epoch.1
  have h3 := length_hex s.source
  have h4 := length_rows hn hs.lastBatch
  have h5 := length_opt hn hcover
  have h6 := length_opt hn hs.lastEmittedNs
  have h7 := hn _ hs.lastEventSeq
  have h8 := length_hex s.lastFrameHash
  have h9 := hn _ hs.lastFrameSeq.1
  have h10 := hn _ hs.lastReaderNs
  have h11 := hkinds hs.lastSourceDropped
  have h12 := hn _ hwire
  have h13 := hkinds hs.lastTotals
  have h14 := hn _ hs.pastClockFaults
  have h15 := hn _ hs.pastReportGaps
  have h16 := hn _ hs.pastSendFailures
  have h17 := length_rows hn hs.pastStats
  have h19 := length_bool s.previousEpochTailUnknown
  have h20 := hn _ hs.reportGaps
  have h21 := hn _ hs.sendFailures
  have h22 := length_bool s.sourceClosed
  have h23 := length_opt hn hs.startedNs
  have h24 := length_rows hn hs.stats
  have h25 := hn _ hs.unknownEpochTails
  have h26 := hn _ hversion
  have h27 := length_bool s.full24hProven
  have c1 := sum_memberOpt (k := "last_covered_before_ns") (w := 41) (by decide)
    (o := if s.version = 4 then some (optJson n s.lastCoveredBeforeNs) else none)
    (by split_ifs <;> simp [h5])
  have c2 := sum_memberOpt (k := "last_source_wire_version") (w := 41) (by decide)
    (o := if 3 ≤ s.version then some (n s.lastSourceWireVersion) else none)
    (by split_ifs <;> simp [h12])
  have c3 := sum_memberOpt (k := "source_closed") (w := 41) (by decide)
    (o := if 3 ≤ s.version then some (.bool s.sourceClosed) else none)
    (by split_ifs <;> simp [h22.trans (show 5 ≤ 41 by norm_num)])
  have c4 := sum_memberOpt (k := "previous_epoch_summary") (w := 6000) (by decide)
    (o := s.previousEpochSummary.map fun p => p.json n) (by
      intro v hv
      obtain ⟨p, hp, rfl⟩ := Option.map_eq_some_iff.1 hv
      exact length_summary hn hs hp)
  refine (length_obj_le _).trans ?_
  simp only [List.map_append, List.sum_append]
  simp [memberLen, quote, escape] at c1 c2 c3 c4 ⊢
  omega

section
variable [Sha256]

theorem length_handoff {h : Handoff} {source : Totals} (hh : h.Valid source) :
    (h.json n).render.length ≤ 45000 := by
  have hreceipt : ∀ r ∈ h.lastAck, r.Valid := fun r hr => (hh.lastAck r hr).1
  have hpublished : (h.published.elim .null fun p => p.json n).render.length ≤ 14000 := by
    cases hp : h.published with
    | none => simp [render]
    | some p =>
      have hv := hh.published p hp
      have hid : p.body.bucketId < 2 ^ 64 := by
        rw [hv.bucketId]; exact (Nat.sub_le _ _).trans_lt hh.nextBucketId.1
      have h1 := length_packetBody hn hid hv.aggregate hv.publishedAtNs
        (by rw [hv.previousAck]; exact hreceipt)
      have h2 := length_hex p.sha256
      refine (length_obj_le _).trans ?_
      simp [memberLen, quote, escape]
      omega
  have h1 := hn _ hh.ackClockConflicts
  have h2 := hn _ hh.ackRejections
  have h3 := hn _ hh.ackedBuckets
  have h4 := length_totals hn hh.ackedCounts.1
  have h5 := length_bucket hn hh.active
  have h6 := length_optReceipt hn hreceipt
  have h7 := hn _ (hh.nextBucketId.1.trans (by norm_num))
  have h8 := hn 1 (by norm_num)
  rw [← hh.version] at h8
  refine (length_obj_le _).trans ?_
  simp [memberLen, quote, escape]
  omega

/-- **The text of a valid ledger body is below its capacity.** -/
theorem length_body {b : Body} (hb : b.BaseValid) (hh : b.handoff.Valid b.sourceCounts) :
    (b.json n).render.length ≤ maxBody := by
  have hfault : (b.lastFault.elim .null fun m => m.json n).render.length ≤ 250 := by
    cases hl : b.lastFault with
    | none => simp [render]
    | some m =>
      have h1 := hn _ (hb.lastFault m hl)
      have h2 := length_hex m.clockDomainId
      have h3 : (quote m.kind.name).length ≤ 40 := by cases m.kind <;> decide
      refine (length_obj_le _).trans ?_
      simp only [List.map_cons, List.map_nil, List.sum_cons, List.sum_nil, memberLen, render]
      simp [quote, escape] at h3 ⊢
      omega
  have hstate : (b.state.elim .null fun s => s.json n).render.length ≤ 30000 := by
    cases hs : b.state with
    | none => simp [render]
    | some s => exact length_state hn (hb.state s hs)
  have h1 := hn _ hb.acceptedFrames
  have h2 := length_hex b.clockDomainId
  have h3 := hn _ hb.duplicateFrames
  have h4 := length_faults hn hb.faults
  have h5 := length_handoff hn hh
  have h6 := hn _ hb.readerSessions
  have h7 := hn _ hb.revision
  have h8 := hn 1 (by norm_num)
  rw [← hb.version] at h8
  refine (length_obj_le _).trans ?_
  simp [memberLen, quote, escape, maxBody]
  omega

end
end

section
variable [Sha256]

/-- A valid body fits into the snapshot. -/
theorem Body.length_encode {b : Body} (hb : b.BaseValid) (hh : b.handoff.Valid b.sourceCounts) :
    b.encode.length ≤ maxBody := by
  rw [Body.encode, length_canonical]
  exact length_body narrow_int hb hh

end
end SmartHome.Mqtt
