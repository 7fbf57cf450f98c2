/-
  `observe` accepts every change that an operation makes to the source counts, and collects
  it into the active bucket.

  `Growth` says what such a change looks like: counts only grow, and the statistics grow
  only with an accepted frame, by exactly the statistics of that frame.
-/
import SmartHome.Mqtt.HandoffValid
import SmartHome.Mqtt.Accept
import SmartHome.Mqtt.Ledger

namespace SmartHome.Mqtt

open Verif

/-! ## Growth of the source counts -/

/-- The change from one body to the next, at the time of the operation. -/
structure Growth (old : Option Body) (new : Body) (atNs : ℕ) : Prop where
  le : sourceCounts old ≤ new.sourceCounts
  idle : new.acceptedFrames = sourceCounts old (.header .frames) →
    ∀ k c, new.sourceCounts (.stat k c) = sourceCounts old (.stat k c)
  frame : new.acceptedFrames ≠ sourceCounts old (.header .frames) →
    new.acceptedFrames = sourceCounts old (.header .frames) + 1 ∧
    ∃ s ∈ new.state, s.lastReaderNs = atNs ∧
      (∀ k c, new.sourceCounts (.stat k c) =
        sourceCounts old (.stat k c) + (s.lastBatch k).col c) ∧
      ∀ k, ∀ m ∈ (s.lastBatch k).maxSourceToReaderNs, m ≤ atNs

/-- A body with the same source counts has not grown. -/
theorem Growth.refl {old new : Body} {atNs : ℕ} (h : new.sourceCounts = old.sourceCounts) :
    Growth (some old) new atNs where
  le := h.ge
  idle := fun _ _ _ => congrFun h _
  frame := fun hne => absurd (congrFun h (.header .frames)) hne

section
variable {old : Option Body} {new : Body} {atNs : ℕ}

/-- The difference of the counts. -/
def Growth.delta (old : Option Body) (new : Body) : Totals := new.sourceCounts - sourceCounts old

theorem Growth.add_delta (h : Growth old new atNs) :
    sourceCounts old + Growth.delta old new = new.sourceCounts := by
  funext c
  have hle : sourceCounts old c ≤ new.sourceCounts c := h.le c
  simp only [Growth.delta, Pi.add_apply, Pi.sub_apply]
  omega

theorem Growth.delta_frames : Growth.delta old new (.header .frames) =
    new.acceptedFrames - sourceCounts old (.header .frames) := rfl

theorem Growth.delta_idle (h : Growth old new atNs)
    (h0 : Growth.delta old new (.header .frames) = 0) (k : Kind) (c : Column) :
    Growth.delta old new (.stat k c) = 0 := by
  have hle : sourceCounts old (.header .frames) ≤ new.acceptedFrames := h.le (.header .frames)
  have := h.idle (by rw [delta_frames] at h0; omega) k c
  simp [Growth.delta, this]

end

/-! ## The bucket -/

/-- The times of a new frame in a bucket that was good. -/
theorem Bucket.Good.noteTimes {b : Bucket} (h : b.Good) {atNs : ℕ} (hat : atNs < 2 ^ 64)
    {domain : Hex 64} {delta : Totals} (hne : delta ≠ 0) (hcounts : (b.counts + delta).Valid)
    {s : State} (hs : s.Valid) (hreader : s.lastReaderNs = atNs)
    (hstat : ∀ k c, delta (.stat k c) = (s.lastBatch k).col c)
    (hmax : ∀ k, ∀ m ∈ (s.lastBatch k).maxSourceToReaderNs, m ≤ atNs) :
    (((b.touch atNs domain).add delta).noteTimes s).Good := by
  have hbatch := fun k => (hs.lastBatch k).maximum
  -- without times in the frame both entries stay, with times they are bounded by the arrival
  have hcase : ∀ k, ((s.lastBatch k).col .timed = 0 ∧ (s.lastBatch k).maxSourceToReaderNs = none) ∨
      ∃ m ≤ atNs, (s.lastBatch k).col .timed ≠ 0 ∧ (s.lastBatch k).maxSourceToReaderNs = some m := by
    intro k
    rcases hbatch k with ⟨h1, h2⟩ | ⟨m, hm, -, hpos⟩
    · exact Or.inl ⟨h2, h1⟩
    · exact Or.inr ⟨m, hmax k m hm, by omega, hm⟩
  refine h.grow domain hat hne hcounts (((b.touch atNs domain).add delta).noteTimes s).oldestSourceNs
    (((b.touch atNs domain).add delta).noteTimes s).maxSocketNs ?_ ?_ ?_
  · intro k
    rcases hcase k with ⟨h0, hn⟩ | ⟨m, hm, h0, hn⟩
    · simpa [Bucket.noteTimes, Bucket.add, hn, hstat, h0] using h.valid.oldest k
    · refine Or.inr ⟨by simp only [Pi.add_apply, hstat]; omega, ?_⟩
      simp only [Bucket.noteTimes, Bucket.add, hn, h0, if_false, hreader, Option.mem_def]
      refine ⟨_, rfl, ?_⟩
      cases (b.touch atNs domain).oldestSourceNs k <;> simp <;> omega
  · intro k
    rcases hcase k with ⟨h0, hn⟩ | ⟨m, hm, h0, hn⟩
    · simpa [Bucket.noteTimes, Bucket.add, hn, hstat, h0] using h.valid.maximum k
    · refine Or.inr ⟨by simp only [Pi.add_apply, hstat]; omega, ?_⟩
      have hv := h.valid.maximum k
      simp only [Bucket.noteTimes, Bucket.add, hn, h0, if_false, touch_max]
      cases hb : b.maxSocketNs k with
      | none => exact ⟨m, rfl, by omega⟩
      | some v =>
        have hv64 : v < 2 ^ 64 := by
          rcases hv with ⟨-, hv⟩ | ⟨-, w, hw, hlt⟩
          · simp [hb] at hv
          · rw [hb] at hw; cases hw; exact hlt
        exact ⟨max v m, rfl, by omega⟩
  · intro hc k v hv
    obtain ⟨hconf, hlast⟩ := h.touch_calm hc
    have hold : ∀ o ∈ b.oldestSourceNs k, o ≤ atNs := by
      intro o ho
      obtain ⟨l, hl, hle⟩ := h.valid.ordered hconf k o ho
      exact hle.trans (hlast l hl)
    rcases hcase k with ⟨h0, hn⟩ | ⟨m, hm, h0, hn⟩
    · exact hold v (by simpa [Bucket.noteTimes, Bucket.add, hn] using hv)
    · simp only [Bucket.noteTimes, Bucket.add, hn, h0, if_false, hreader, Option.mem_def,
        Option.some.injEq, touch_oldest] at hv
      cases hb : b.oldestSourceNs k with
      | none => rw [hb] at hv; simp only [Option.elim_none] at hv; omega
      | some o => rw [hb] at hv; simp only [Option.elim_some] at hv; omega

/-! ## The record -/

section
variable [Sha256] {old : Option Body} {new : Body} {atNs : ℕ}

/-- The record with another active bucket, when the source counts grew by `delta`. -/
theorem Handoff.Good.observed {h : Handoff} {before after delta : Totals} (hg : h.Good before)
    (hadd : before + delta = after) (hacks : delta (.header .ackRejections) = 0 ∧
      delta (.header .ackClockConflicts) = 0) {active : Bucket}
    (hcounts : active.counts = h.active.counts + delta) (ha : active.Good) :
    ({ h with active } : Handoff).Good after := by
  obtain ⟨hv, -⟩ := hg
  refine ⟨⟨hv.version, hv.nextBucketId, hv.ackedBuckets, hv.ackRejections, hv.ackClockConflicts,
    ha.valid, hv.ackedCounts, hv.lastAck, hv.noAck, ?_, hv.ids, ?_⟩, ha⟩
  · intro p hp
    obtain ⟨h1, h2, h3, h4, h5, h6⟩ := hv.published p hp
    exact ⟨h1, h2, h3, h4, h5, h6⟩
  · funext c
    have hc := congrFun hv.conserved c
    have hd := congrFun hadd c
    simp only [Pi.add_apply, publishedCounts, hcounts] at hc hd ⊢
    cases c with
    | header x => cases x <;> simp only [withAcks] at hc ⊢ <;> omega
    | fault f => simp only [withAcks] at hc ⊢; omega
    | stat k c => simp only [withAcks] at hc ⊢; omega

/-- **`observe` accepts every growth**: the record stays good, and only its active bucket
    changes. -/
theorem Growth.observe (hgrow : Growth old new atNs) (hat : atNs < 2 ^ 64) (hbase : new.BaseValid)
    (hg : new.handoff.Good (sourceCounts old)) (hfits : new.handoff.Fits new.sourceCounts) :
    ∃ active, Mqtt.observe old new atNs = .ok { new.handoff with active } ∧
      active.counts = new.handoff.active.counts + Growth.delta old new ∧
      ({ new.handoff with active } : Handoff).Good new.sourceCounts := by
  set delta := Growth.delta old new with hdelta
  have hadd : sourceCounts old + delta = new.sourceCounts := hgrow.add_delta
  have hacks : delta (.header .ackRejections) = 0 ∧ delta (.header .ackClockConflicts) = 0 := by
    simp [hdelta, Growth.delta, Body.sourceCounts]
  have hbelow : ∀ c, new.sourceCounts c < 2 ^ 128 := by
    intro c
    have hc := hfits.counts c
    cases c with
    | header x => cases x <;> first | exact hc | exact Nat.two_pow_pos 128
    | fault f => exact hc
    | stat k c => exact hc
  have hneed : ∀ c, sourceCounts old c ≤ new.sourceCounts c ∧
      new.sourceCounts c - sourceCounts old c < 2 ^ 128 :=
    fun c => ⟨hgrow.le c, (Nat.sub_le _ _).trans_lt (hbelow c)⟩
  have hframes : delta (.header .frames) ≤ 1 := by
    rw [hdelta, Growth.delta_frames]
    by_cases h : new.acceptedFrames = sourceCounts old (.header .frames)
    · omega
    · have := (hgrow.frame h).1; omega
  have hrun : Mqtt.observe old new atNs =
      if delta = 0 then .ok new.handoff
      else if delta (.header .frames) = 0 then
        .ok { new.handoff with active := (new.handoff.active.touch atNs new.clockDomainId).add delta }
      else do
        let state ← orFail "handoff_state_invalid" new.state
        need (∀ k c, delta (.stat k c) = (state.lastBatch k).col c) "handoff_state_invalid"
        need (∀ k, ∀ m ∈ (state.lastBatch k).maxSourceToReaderNs, (state.lastBatch k).col .timed ≠ 0 →
          m ≤ state.lastReaderNs ∧ state.lastReaderNs - m < 2 ^ 64) "handoff_state_invalid"
        return { new.handoff with
          active := ((new.handoff.active.touch atNs new.clockDomainId).add delta).noteTimes state } := by
    have hframes' : (new.sourceCounts - sourceCounts old) (.header .frames) ≤ 1 := hframes
    unfold Mqtt.observe
    simp only [need, if_pos hneed, if_pos hframes']
    rfl
  by_cases h0 : delta = 0
  · refine ⟨new.handoff.active, by rw [hrun, if_pos h0], by simp [h0], ?_⟩
    have hsame : new.sourceCounts = sourceCounts old := by rw [← hadd, h0, add_zero]
    rw [hsame]; exact hg
  have hbalanced : delta.Balanced := by
    intro k
    by_cases hf : new.acceptedFrames = sourceCounts old (.header .frames)
    · have h0 : Growth.delta old new (.header .frames) = 0 := by
        rw [Growth.delta_frames, hf, Nat.sub_self]
      have h : ∀ c, delta (.stat k c) = 0 := hgrow.delta_idle h0 k
      simp [h]
    · obtain ⟨-, s, hs, -, hstat, -⟩ := hgrow.frame hf
      have hrow := (hbase.state s hs).lastBatch k
      have h : ∀ c, delta (.stat k c) = (s.lastBatch k).col c := by
        intro c; simp only [hdelta, Growth.delta, Pi.sub_apply, hstat k c]; omega
      simp only [h]
      exact ⟨hrow.expected, hrow.observed, hrow.missing⟩
  have hcounts : (new.handoff.active.counts + delta).Valid := by
    refine ⟨fun c => ?_, hg.active.valid.counts.2.add hbalanced⟩
    have hc := congrFun hg.valid.conserved c
    have hd := congrFun hadd c
    have hf := hfits.counts c
    simp only [Pi.add_apply] at hc hd ⊢
    cases c with
    | header x => cases x <;> simp only [Handoff.withAcks] at hc hf <;> omega
    | fault f => simp only [Handoff.withAcks] at hc hf; omega
    | stat k c => simp only [Handoff.withAcks] at hc hf; omega
  by_cases hf : delta (.header .frames) = 0
  · refine ⟨_, by rw [hrun, if_neg h0, if_pos hf], by simp [Bucket.add], ?_⟩
    exact hg.observed hadd hacks (by simp [Bucket.add])
      (hg.active.grow_untimed _ hat h0 hcounts fun k c => hgrow.delta_idle hf k c)
  · have hnew : new.acceptedFrames ≠ sourceCounts old (.header .frames) := by
      intro he
      rw [hdelta, Growth.delta_frames, he, Nat.sub_self] at hf
      exact hf rfl
    obtain ⟨-, s, hs, hreader, hstat, hmax⟩ := hgrow.frame hnew
    have h : ∀ k c, delta (.stat k c) = (s.lastBatch k).col c := by
      intro k c; simp only [hdelta, Growth.delta, Pi.sub_apply, hstat k c]; omega
    refine ⟨((new.handoff.active.touch atNs new.clockDomainId).add delta).noteTimes s, ?_,
      by simp [Bucket.add, Bucket.noteTimes], ?_⟩
    · rw [hrun, if_neg h0, if_neg hf, bind_ok]
      refine ⟨s, by simpa using hs, ?_⟩
      simp only [bind_ok, need_eq_ok, exists_unit, pure_ok, and_true]
      refine ⟨h, fun k m hm _ => ?_⟩
      rw [hreader]
      exact ⟨hmax k m hm, by omega⟩
    · exact hg.observed hadd hacks (by simp [Bucket.add, Bucket.noteTimes])
        (hg.active.noteTimes hat h0 hcounts (hbase.state s hs) hreader h hmax)

end
end SmartHome.Mqtt
