/-
  Every operation on the handoff record keeps it valid, as long as its counters fit.

  Validity alone is not kept: `touch` writes the clock domain into a bucket without counts,
  so such a bucket must not be in conflict (`Bucket.Good`).
-/
import SmartHome.Mqtt.Handoff

namespace SmartHome.Mqtt

/-! ## Totals -/

namespace Totals

theorem balanced_zero : Balanced 0 := fun _ => ⟨rfl, rfl, rfl⟩

theorem Balanced.add {a b : Totals} (ha : a.Balanced) (hb : b.Balanced) : (a + b).Balanced := by
  intro k
  obtain ⟨h1, h2, h3⟩ := ha k
  obtain ⟨h4, h5, h6⟩ := hb k
  refine ⟨?_, ?_, ?_⟩ <;> simp only [Pi.add_apply] <;> omega

theorem balanced_one (x : Header) : (one (.header x)).Balanced := by
  intro k
  simp [one]

theorem one_ne_zero (c : Counter) : one c ≠ 0 := by
  intro h
  have := congrFun h c
  simp [one] at this

theorem add_ne_zero {a b : Totals} (h : b ≠ 0) : a + b ≠ 0 := by
  intro hab
  apply h
  funext c
  have := congrFun hab c
  simp only [Pi.add_apply, Pi.zero_apply] at this ⊢
  omega

@[simp] theorem one_stat (x : Header) (k : Kind) (c : Column) : one (.header x) (.stat k c) = 0 := by
  simp [one]

end Totals

/-! ## Buckets -/

namespace Bucket

/-- A valid bucket that is not in conflict before it has counts. -/
structure Good (b : Bucket) : Prop where
  valid : b.Valid
  calm : b.counts = 0 → b.clockDomainConflict = false

theorem good_empty (domain : Hex 64) : (empty domain).Good where
  valid := by
    refine ⟨rfl, ⟨fun c => ?_, Totals.balanced_zero⟩, ?_, fun k => Or.inl ⟨rfl, rfl⟩,
      fun k => Or.inl ⟨rfl, rfl⟩, ?_⟩
    · simp [empty]
    · simp [empty]
    · intro _ k v hv
      exact absurd hv (by simp [empty])
  calm := fun _ => rfl

section
variable {b : Bucket} {atNs : ℕ} {domain : Hex 64}

@[simp] theorem touch_counts : (b.touch atNs domain).counts = b.counts := by
  simp only [touch]; split_ifs <;> rfl

@[simp] theorem touch_oldest : (b.touch atNs domain).oldestSourceNs = b.oldestSourceNs := by
  simp only [touch]; split_ifs <;> rfl

@[simp] theorem touch_max : (b.touch atNs domain).maxSocketNs = b.maxSocketNs := by
  simp only [touch]; split_ifs <;> rfl

@[simp] theorem touch_last : (b.touch atNs domain).lastReaderNs = some atNs := rfl

@[simp] theorem touch_first :
    (b.touch atNs domain).firstReaderNs = b.firstReaderNs.or (some atNs) := by
  simp only [touch]; split_ifs <;> rfl

/-- A touched bucket has a clock domain unless it is in conflict. -/
theorem Good.touch_domain (h : b.Good) : if (b.touch atNs domain).clockDomainConflict
    then (b.touch atNs domain).clockDomainId = none else (b.touch atNs domain).clockDomainId.isSome := by
  have hd := h.valid.domain
  by_cases h0 : b.counts = 0
  · simp [touch, h0, h.calm h0]
  by_cases hc : b.clockDomainId ≠ some domain ∨ ∃ l ∈ b.lastReaderNs, atNs < l
  · simp only [touch, if_neg h0, if_pos hc, if_true]
  · simpa only [touch, if_neg h0, if_neg hc] using hd

/-- Without conflict the reader's clock has not gone back. -/
theorem Good.touch_calm (h : b.Good) (hc : (b.touch atNs domain).clockDomainConflict = false) :
    b.clockDomainConflict = false ∧ ∀ l ∈ b.lastReaderNs, l ≤ atNs := by
  have hr := h.valid.readers
  simp only [touch] at hc
  split_ifs at hc with h0 hlt
  · rw [if_pos h0] at hr
    exact ⟨h.calm h0, by simp [hr.2]⟩
  · push Not at hlt
    exact ⟨hc, hlt.2⟩

theorem Good.touch_readers (h : b.Good) (domain : Hex 64) (hat : atNs < 2 ^ 64) :
    ∃ first ∈ (b.touch atNs domain).firstReaderNs, first < 2 ^ 64 ∧
      ((b.touch atNs domain).clockDomainConflict = false → first ≤ atNs) := by
  have hr := h.valid.readers
  rw [touch_first]
  split_ifs at hr with h0
  · exact ⟨atNs, by simp [hr.1], hat, fun _ => le_rfl⟩
  · obtain ⟨first, hf, last, hl, hf64, -, hle⟩ := hr
    refine ⟨first, by simp [Option.mem_def.1 hf], hf64, fun hc => ?_⟩
    obtain ⟨hconf, hlast⟩ := h.touch_calm hc
    exact (hle hconf).trans (hlast last hl)

/-- Counts and times added to a touched bucket keep it good. -/
theorem Good.grow (h : b.Good) (domain : Hex 64) (hat : atNs < 2 ^ 64) {delta : Totals} (hne : delta ≠ 0)
    (hcounts : (b.counts + delta).Valid) (oldest longest : Kind → Option ℕ)
    (hold : ∀ k, ((b.counts + delta) (.stat k .timed) = 0 ∧ oldest k = none) ∨
      (0 < (b.counts + delta) (.stat k .timed) ∧ ∃ v ∈ oldest k, v < 2 ^ 64))
    (hmax : ∀ k, ((b.counts + delta) (.stat k .timed) = 0 ∧ longest k = none) ∨
      (0 < (b.counts + delta) (.stat k .timed) ∧ ∃ v ∈ longest k, v < 2 ^ 64))
    (hord : (b.touch atNs domain).clockDomainConflict = false → ∀ k, ∀ v ∈ oldest k, v ≤ atNs) :
    Good { (b.touch atNs domain).add delta with oldestSourceNs := oldest, maxSocketNs := longest } := by
  have hne' : b.counts + delta ≠ 0 := Totals.add_ne_zero hne
  refine ⟨⟨h.touch_domain, ?_, ?_, ?_, ?_, ?_⟩, fun h0 => ?_⟩
  · simpa [Bucket.add] using hcounts
  · obtain ⟨first, hf, hf64, hle⟩ := h.touch_readers domain hat
    simp only [Bucket.add, touch_counts, if_neg hne']
    exact ⟨first, hf, atNs, rfl, hf64, hat, hle⟩
  · simpa [Bucket.add] using hold
  · simpa [Bucket.add] using hmax
  · intro hc k v hv
    exact ⟨atNs, rfl, hord hc k v hv⟩
  · exact absurd (by simpa [Bucket.add] using h0) hne'

/-- Counts without times added to a touched bucket keep it good. -/
theorem Good.grow_untimed (h : b.Good) (domain : Hex 64) (hat : atNs < 2 ^ 64) {delta : Totals} (hne : delta ≠ 0)
    (hcounts : (b.counts + delta).Valid) (hstat : ∀ k c, delta (.stat k c) = 0) :
    ((b.touch atNs domain).add delta).Good := by
  have hgood : Good { (b.touch atNs domain).add delta with
      oldestSourceNs := b.oldestSourceNs, maxSocketNs := b.maxSocketNs } := by
    refine h.grow domain hat hne hcounts _ _ ?_ ?_ fun hc k v hv => ?_
    · simpa [hstat] using h.valid.oldest
    · simpa [hstat] using h.valid.maximum
    · obtain ⟨hconf, hlast⟩ := h.touch_calm hc
      obtain ⟨last, hl, hle⟩ := h.valid.ordered hconf k v hv
      exact hle.trans (hlast last hl)
  have heq : (b.touch atNs domain).add delta = { (b.touch atNs domain).add delta with
      oldestSourceNs := b.oldestSourceNs, maxSocketNs := b.maxSocketNs } := by
    rw [Bucket.mk.injEq]; simp [Bucket.add]
  rwa [heq]

end
end Bucket

/-! ## Receipts -/

namespace PacketBody
variable {v : PacketBody} {atNs : ℕ} {domain : Hex 64} {sha : Hex 64}

/-- The receipt of a valid packet is valid. -/
theorem receipt_valid (hid : v.bucketId < 2 ^ 64 ∧ 0 < v.bucketId) (hagg : v.aggregate.Valid)
    (hat : atNs < 2 ^ 64) : (v.receipt atNs domain sha).Valid where
  bucketId := hid
  ackAtNs := hat
  publication := by
    by_cases ho : v.Ordered atNs domain
    · simp only [receipt, ho, decide_true, if_true, Option.mem_def]
      exact ⟨_, rfl, by omega⟩
    · simp [receipt, ho]
  rows := by
    intro k
    obtain ⟨hlt, hbal⟩ := hagg.counts
    obtain ⟨-, hobs, -⟩ := hbal k
    have hlo := hlt (.stat k .observed)
    have hlt := hlt (.stat k .timed)
    simp only [receipt, ackRow]
    split_ifs with hknown h0
    · exact ⟨hlo, hlt, by omega, by omega, Or.inl ⟨h0, rfl⟩⟩
    · obtain ⟨ho, o, hmem, hle⟩ := hknown
      refine ⟨hlo, hlt, by omega, by omega, Or.inr ⟨by omega, ⟨atNs - o, ?_, by omega⟩, by simpa using ho⟩⟩
      rw [Option.mem_def.1 hmem]; rfl
    · exact ⟨hlo, by omega, by omega, by omega, Or.inl ⟨rfl, rfl⟩⟩
    · contradiction

end PacketBody

/-! ## The record -/

namespace Handoff

section
variable {h : Handoff} {source : Totals}

/-- The counters of a record fit, for the given source counts. -/
structure Fits (h : Handoff) (source : Totals) : Prop where
  nextBucketId : h.nextBucketId < 2 ^ 64
  counts : ∀ c, h.withAcks source c < 2 ^ 128

theorem Fits.rejections (hf : h.Fits source) : h.ackRejections < 2 ^ 128 :=
  hf.counts (.header .ackRejections)

theorem Fits.conflicts (hf : h.Fits source) : h.ackClockConflicts < 2 ^ 128 :=
  hf.counts (.header .ackClockConflicts)

/-- Each table of a conserving record is below the sum. -/
theorem le_of_conserved (hc : h.ackedCounts + h.active.counts + h.publishedCounts = h.withAcks source)
    (c : Counter) : h.ackedCounts c ≤ h.withAcks source c ∧ h.active.counts c ≤ h.withAcks source c ∧
      h.publishedCounts c ≤ h.withAcks source c := by
  have := congrFun hc c
  simp only [Pi.add_apply] at this
  omega

end

variable [Sha256] {h h' : Handoff} {source : Totals} {atNs : ℕ} {domain : Hex 64}

/-- A valid record whose active bucket is good. -/
structure Good (h : Handoff) (source : Totals) : Prop where
  valid : h.Valid source
  active : h.active.Good

theorem good_initial (domain : Hex 64) : (initial domain).Good 0 where
  active := Bucket.good_empty domain
  valid := by
    refine ⟨rfl, by simp [initial], by simp [initial], by simp [initial], by simp [initial], (Bucket.good_empty domain).valid,
      ⟨fun c => ?_, Totals.balanced_zero⟩, ?_, fun _ => rfl, ?_, rfl, ?_⟩
    · simp [initial]
    · rintro r ⟨⟩
    · rintro p ⟨⟩
    · funext c
      match c with
      | .header x => cases x <;> rfl
      | .fault f => rfl
      | .stat k c => rfl

/-- `freeze` keeps the record good. -/
theorem Good.freeze (hg : h.Good source) {p : Option Packet}
    (hf : h.freeze atNs domain = some (p, true, h')) (hfits : h'.Fits source) : h'.Good source := by
  obtain ⟨hv, ha⟩ := hg
  unfold Handoff.freeze at hf
  split at hf
  · simp at hf
  rename_i hnone
  split_ifs at hf with h0 hlt
  · simp at hf
  simp only [Option.some.injEq, Prod.mk.injEq, true_and] at hf
  obtain ⟨-, rfl⟩ := hf
  refine ⟨⟨hv.version, ⟨hfits.nextBucketId, by simp⟩, hv.ackedBuckets, hv.ackRejections,
    hv.ackClockConflicts, (Bucket.good_empty domain).valid, hv.ackedCounts, hv.lastAck, hv.noAck,
    ?_, ?_, ?_⟩, Bucket.good_empty domain⟩
  · rintro p ⟨⟩
    exact ⟨by simp, hlt.1, rfl, hv.active, h0, rfl⟩
  · have := hv.ids
    simp only [hnone, Option.isSome_none, Bool.toNat_false] at this
    simp only [Option.isSome_some, Bool.toNat_true]
    omega
  · have hc := hv.conserved
    simp only [publishedCounts, hnone, Option.elim_none, add_zero] at hc
    simp only [publishedCounts, Option.elim_some, Bucket.empty, add_zero]
    exact hc

theorem freeze_unchanged {p : Option Packet} (hf : h.freeze atNs domain = some (p, false, h')) :
    h' = h := by
  unfold Handoff.freeze at hf
  split at hf
  · simp only [Option.some.injEq, Prod.mk.injEq, true_and] at hf
    exact hf.2.symm
  · split_ifs at hf
    all_goals simp_all

/-- A rejected acknowledgement keeps the record good. -/
theorem Good.rejectAck (hg : h.Good source) (hat : atNs < 2 ^ 64)
    (hfits : (h.rejectAck atNs domain).Fits source) : (h.rejectAck atNs domain).Good source := by
  obtain ⟨hv, ha⟩ := hg
  have hcons : (h.rejectAck atNs domain).ackedCounts + (h.rejectAck atNs domain).active.counts +
      (h.rejectAck atNs domain).publishedCounts = (h.rejectAck atNs domain).withAcks source := by
    funext c
    have hc := congrFun hv.conserved c
    match c with
    | .header x =>
      cases x <;>
        simp [Handoff.rejectAck, Bucket.add, publishedCounts, withAcks, Totals.one] at hc ⊢ <;> omega
    | .fault f =>
      simpa [Handoff.rejectAck, Bucket.add, publishedCounts, withAcks, Totals.one] using hc
    | .stat k c =>
      simpa [Handoff.rejectAck, Bucket.add, publishedCounts, withAcks, Totals.one] using hc
  have hgood : ((h.active.touch atNs domain).add (Totals.one (.header .ackRejections))).Good := by
    refine ha.grow_untimed domain hat (Totals.one_ne_zero _) ⟨fun c => ?_, ?_⟩ fun k c => Totals.one_stat _ k c
    · have := (le_of_conserved hcons c).2.1
      simp only [Handoff.rejectAck, Bucket.add, Bucket.touch_counts] at this
      exact this.trans_lt (hfits.counts c)
    · exact ha.valid.counts.2.add (Totals.balanced_one _)
  have hpub : ∀ p ∈ h.published, (h.rejectAck atNs domain).PublishedValid p := by
    intro p hp
    obtain ⟨h1, h2, h3, h4, h5, h6⟩ := hv.published p hp
    exact ⟨h1, h2, h3, h4, h5, h6⟩
  exact ⟨⟨hv.version, hv.nextBucketId, hv.ackedBuckets, hfits.rejections, hv.ackClockConflicts,
    hgood.valid, hv.ackedCounts, hv.lastAck, hv.noAck, hpub, hv.ids, hcons⟩, hgood⟩

/-- Taking the published packet off keeps the record good. -/
theorem Good.settle (hg : h.Good source) {p : Packet} (hp : h.published = some p)
    (hat : atNs < 2 ^ 64) (hfits : (h.settle p atNs domain).Fits source) :
    (h.settle p atNs domain).Good source := by
  obtain ⟨hv, ha⟩ := hg
  have hpub := hv.published p hp
  have hids := hv.ids
  have hnext := hv.nextBucketId
  simp only [hp, Option.isSome_some, Bool.toNat_true] at hids
  have hcons : (h.settle p atNs domain).ackedCounts + (h.settle p atNs domain).active.counts +
      (h.settle p atNs domain).publishedCounts = (h.settle p atNs domain).withAcks source := by
    funext c
    have hc := congrFun hv.conserved c
    simp only [Pi.add_apply, publishedCounts, hp, Option.elim_some] at hc
    by_cases ho : p.body.Ordered atNs domain
    · simp only [Handoff.settle, ho, if_true, publishedCounts, Pi.add_apply, Option.elim_none,
        Pi.zero_apply]
      match c with
      | .header x => cases x <;> simp only [withAcks] at hc ⊢ <;> omega
      | .fault f => simp only [withAcks] at hc ⊢; omega
      | .stat k c => simp only [withAcks] at hc ⊢; omega
    · simp only [Handoff.settle, ho, if_false, publishedCounts, Pi.add_apply, Option.elim_none,
        Pi.zero_apply, Bucket.add, Bucket.touch_counts]
      match c with
      | .header x =>
        cases x <;> simp [withAcks, Totals.one] at hc ⊢ <;> omega
      | .fault f => simp [withAcks, Totals.one] at hc ⊢; omega
      | .stat k c => simp [withAcks, Totals.one] at hc ⊢; omega
  have hgood : (h.settle p atNs domain).active.Good := by
    by_cases ho : p.body.Ordered atNs domain
    · simpa [Handoff.settle, ho] using ha
    · have hsum : ∀ c, (h.active.counts + Totals.one (.header .ackClockConflicts)) c < 2 ^ 128 := by
        intro c
        have hact : (h.settle p atNs domain).active.counts =
            h.active.counts + Totals.one (.header .ackClockConflicts) := by
          simp [Handoff.settle, ho, Bucket.add]
        exact hact ▸ (le_of_conserved hcons c).2.1.trans_lt (hfits.counts c)
      simpa [Handoff.settle, ho] using ha.grow_untimed domain hat (Totals.one_ne_zero _)
        ⟨hsum, ha.valid.counts.2.add (Totals.balanced_one _)⟩ fun k c => Totals.one_stat _ k c
  refine ⟨⟨hv.version, hv.nextBucketId, ?_, hv.ackRejections, hfits.conflicts, hgood.valid,
    ⟨fun c => ?_, hv.ackedCounts.2.add hpub.aggregate.counts.2⟩, ?_, ?_, ?_, ?_, hcons⟩, hgood⟩
  · simp only [Handoff.settle]; omega
  · exact (le_of_conserved hcons c).1.trans_lt (hfits.counts c)
  · rintro r ⟨⟩
    have hid : p.body.bucketId = h.ackedBuckets + 1 := by rw [hpub.bucketId]; omega
    exact ⟨PacketBody.receipt_valid (by omega) hpub.aggregate hat, hid⟩
  · rintro ⟨⟩
  · rintro q ⟨⟩
  · simp only [Handoff.settle, Option.isSome_none, Bool.toNat_false]; omega

/-- `acknowledge` keeps the record good. -/
theorem Good.acknowledge (hg : h.Good source) {ack : Verif.Json} {status : AckStatus} {changed : Bool}
    (ha : h.acknowledge ack atNs domain = some (status, changed, h'))
    (hfits : changed = true → h'.Fits source) : h'.Good source ∧ (changed = false → h' = h) := by
  unfold Handoff.acknowledge at ha
  split_ifs at ha with hat
  have hrej : (AckStatus.rejected, true, h.rejectAck atNs domain) = (status, changed, h') →
      h'.Good source ∧ (changed = false → h' = h) := by
    rintro ⟨⟩
    exact ⟨hg.rejectAck hat (hfits rfl), nofun⟩
  split at ha
  · exact hrej (Option.some.inj ha)
  split_ifs at ha
  · cases ha; exact ⟨hg, fun _ => rfl⟩
  · cases ha; exact ⟨hg, fun _ => rfl⟩
  · exact hrej (Option.some.inj ha)
  split at ha
  · exact hrej (Option.some.inj ha)
  rename_i p hp
  split_ifs at ha
  · cases ha
    exact ⟨hg.settle hp hat (hfits rfl), nofun⟩
  · exact hrej (Option.some.inj ha)

end Handoff
end SmartHome.Mqtt
