/-
  What the operations of an open ledger do to its row, as far as the handoff is concerned: they
  collect into the active bucket, freeze it into a packet, or record the receipt of the packet.
-/
import SmartHome.Mqtt.Ledger

namespace SmartHome.Mqtt

open Verif

/-- From one row to the next. -/
inductive Body.Moves (b c : Body) : Prop
  | collected (active : Bucket) : c.handoff = { b.handoff with active } → Moves b c
  | frozen (p : Packet) (active : Bucket) : b.handoff.published = none →
    p.body.bucketId = b.handoff.nextBucketId → p.body.previousAck = b.handoff.lastAck →
    c.handoff = { b.handoff with
      published := some p, nextBucketId := b.handoff.nextBucketId + 1, active } → Moves b c
  | settled (p : Packet) (atNs : ℕ) (domain : Hex 64) (conflicts : ℕ) (active : Bucket) :
    b.handoff.published = some p →
    c.handoff = { b.handoff with
      ackedCounts := b.handoff.ackedCounts + p.body.aggregate.counts
      ackedBuckets := b.handoff.ackedBuckets + 1
      lastAck := some (p.body.receipt atNs domain p.sha256)
      published := none, ackClockConflicts := conflicts, active } → Moves b c

section
variable [Sha256]

/-! ## Commits -/

omit [Sha256] in
/-- `observe` changes the active bucket at most. -/
theorem observe_ok {old : Option Body} {new : Body} {atNs : ℕ} {h : Handoff}
    (hobs : observe old new atNs = .ok h) : ∃ active, h = { new.handoff with active } := by
  simp only [observe, bind_ok, need_eq_ok, exists_unit] at hobs
  obtain ⟨-, -, hobs⟩ := hobs
  split_ifs at hobs
  · exact ⟨new.handoff.active, (pure_ok.1 hobs).symm⟩
  · exact ⟨_, (pure_ok.1 hobs).symm⟩
  · simp only [bind_ok, orFail_eq_ok, need_eq_ok, exists_unit, pure_ok] at hobs
    obtain ⟨s, -, -, -, rfl⟩ := hobs
    exact ⟨_, rfl⟩

/-- A stored body is the one built, but for its revision and active bucket, and it is valid. -/
theorem prepare_ok {old : Option Body} {new c : Body} {atNs : ℕ}
    (h : prepare old new atNs = .ok c) :
    (∃ active, c = { new with
      revision := new.revision + 1, handoff := { new.handoff with active } }) ∧
    c.handoff.Valid c.sourceCounts := by
  simp only [prepare, bind_ok, need_eq_ok, exists_unit, pure_ok] at h
  obtain ⟨-, r, hobs, -, hv, -, rfl⟩ := h
  obtain ⟨active, rfl⟩ := observe_ok hobs
  exact ⟨⟨active, rfl⟩, hv⟩

/-! ## Operations -/

namespace Ledger

/-- A ledger that has not failed holds its row. -/
def Synced (l : Ledger) : Prop := l.failed = none → ∀ b ∈ l.body, l.row = some b

/-- The row after an operation, the row before it and the body that was built between. -/
def Stores {α : Type} (l l' : Ledger) (atNs : ℕ) (op : Body → Except String (Attempt α)) : Prop :=
  ∃ b new c r, l.row = some b ∧ op b = .ok ⟨some new, r⟩ ∧ prepare (some b) new atNs = .ok c ∧
    l'.row = some c

variable {l : Ledger} {α : Type} {atNs : ℕ} {op : Body → Except String (Attempt α)}

/-- A commit of an open ledger. -/
theorem commit_synced (b new : Body) (row : Option Body) (atNs : ℕ) (sql : Sql) :
    (commit ⟨some b, none, row, atNs⟩ new sql).Synced ∧
    ((commit ⟨some b, none, row, atNs⟩ new sql).row = row ∨
      ∃ c, prepare (some b) new atNs = .ok c ∧
        (commit ⟨some b, none, row, atNs⟩ new sql).row = some c) ∧
    ((commit ⟨some b, none, row, atNs⟩ new sql).failed = none →
      ∃ c, prepare (some b) new atNs = .ok c ∧
        commit ⟨some b, none, row, atNs⟩ new sql = ⟨some c, none, some c, atNs⟩) := by
  simp only [commit, Option.isSome_none, Bool.false_eq_true, if_false]
  cases hp : prepare (some b) new atNs with
  | error reason => exact ⟨nofun, Or.inl rfl, nofun⟩
  | ok c =>
    cases sql with
    | committed => exact ⟨fun _ b' hb' => hb', Or.inr ⟨c, rfl, rfl⟩, fun _ => ⟨c, rfl, rfl⟩⟩
    | lost => exact ⟨nofun, Or.inl rfl, nofun⟩
    | kept => exact ⟨nofun, Or.inr ⟨c, rfl, rfl⟩, nofun⟩

/-- **An operation keeps the row or stores what it built.** -/
theorem perform_row (hl : l.Synced) (atNs : ℕ) (op : Body → Except String (Attempt α)) (sql : Sql) :
    (l.perform atNs op sql).1.Synced ∧
    ((l.perform atNs op sql).1.row = l.row ∨ l.Stores (l.perform atNs op sql).1 atNs op) := by
  unfold perform
  split
  · exact ⟨hl, Or.inl rfl⟩
  rename_i l' b hnow
  simp only [now, bind_ok, need_eq_ok, exists_unit, orFail_eq_ok, pure_ok, Prod.mk.injEq] at hnow
  obtain ⟨hat, hfail, body, hbody, rfl, rfl⟩ := hnow
  have hrow := hl hfail body hbody
  split
  · exact ⟨hl, Or.inl rfl⟩
  · exact ⟨hl, Or.inl rfl⟩
  · rename_i new r hop
    simp only [hbody, hfail]
    obtain ⟨hsync, hcommit, -⟩ := commit_synced body new l.row atNs sql
    refine ⟨hsync, hcommit.imp id ?_⟩
    rintro ⟨c, hc, hc'⟩
    exact ⟨body, new, c, r, hrow, hop, hc, hc'⟩

/-- An operation that returns has not failed: what it stored is held. -/
theorem perform_ok (hl : l.Synced) {sql : Sql} {r : α} (h : (l.perform atNs op sql).2 = .ok r) :
    ∃ b, l.row = some b ∧
      ((op b = .ok ⟨none, r⟩ ∧ (l.perform atNs op sql).1 = ⟨some b, none, some b, atNs⟩) ∨
        ∃ new c, op b = .ok ⟨some new, r⟩ ∧ prepare (some b) new atNs = .ok c ∧
          (l.perform atNs op sql).1 = ⟨some c, none, some c, atNs⟩) := by
  unfold perform at h ⊢
  split at h
  · cases h
  rename_i l' b hnow
  simp only [now, bind_ok, need_eq_ok, exists_unit, orFail_eq_ok, pure_ok, Prod.mk.injEq] at hnow
  obtain ⟨hat, hfail, body, hbody, rfl, rfl⟩ := hnow
  have hrow := hl hfail body hbody
  refine ⟨body, hrow, ?_⟩
  split at h
  · cases h
  · rename_i r' hop
    cases h
    refine Or.inl ⟨hop, ?_⟩
    simp only [hbody, hfail, hrow]
  · rename_i new r' hop
    simp only [hbody, hfail] at h
    obtain ⟨-, -, hcommit⟩ := commit_synced body new l.row atNs sql
    split_ifs at h with hf
    cases h
    obtain ⟨c, hc, hc'⟩ := hcommit (by simpa using hf)
    refine Or.inr ⟨new, c, hop, hc, ?_⟩
    simp only [hbody, hfail, hc']

/-- Opening reads the row and starts a session. -/
theorem reopen_row (l : Ledger) (domain : Hex 64) (startedNs : ℕ) (sql : Sql) :
    (l.reopen domain startedNs sql).1.Synced ∧
    ((l.reopen domain startedNs sql).1.row = l.row ∨
      ∃ b c, l.row = some b ∧ prepare (some b) (b.session domain startedNs) startedNs = .ok c ∧
        (l.reopen domain startedNs sql).1.row = some c) := by
  have hclosed : ∀ t, Synced ⟨none, none, l.row, t⟩ := by rintro t - b ⟨⟩
  unfold reopen
  split_ifs
  · unfold openRow
    split
    · exact ⟨hclosed _, Or.inl rfl⟩
    rename_i b hread
    simp only [readRow, bind_ok, orFail_eq_ok, need_eq_ok, exists_unit, pure_ok] at hread
    obtain ⟨b, hb, -, -, -, rfl⟩ := hread
    obtain ⟨hsync, hcommit, -⟩ :=
      commit_synced b (b.session domain startedNs) l.row startedNs sql
    refine ⟨hsync, hcommit.imp id ?_⟩
    rintro ⟨c, hc, hc'⟩
    exact ⟨b, c, hb, hc, hc'⟩
  · exact ⟨hclosed _, Or.inl rfl⟩

/-- The row of a created ledger: nothing was frozen or recorded yet. -/
theorem create_row (domain : Hex 64) (startedNs : ℕ) (startSession : Bool) (first second : Sql) :
    (create domain startedNs startSession first second).1.Synced ∧
    ∀ b ∈ (create domain startedNs startSession first second).1.row,
      (∃ active, b.handoff = { Handoff.initial domain with active }) ∧
        b.handoff.Valid b.sourceCounts := by
  have hclosed : ∀ row t, Synced ⟨none, none, row, t⟩ := by rintro row t - b ⟨⟩
  unfold create
  split_ifs with hat
  swap
  · exact ⟨hclosed _ _, by rintro b ⟨⟩⟩
  have hfirst : ∀ c, prepare none (Body.initial domain) startedNs = .ok c →
      (∃ active, c.handoff = { Handoff.initial domain with active }) ∧
        c.handoff.Valid c.sourceCounts := by
    intro c hc
    obtain ⟨⟨active, rfl⟩, hv⟩ := prepare_ok hc
    exact ⟨⟨active, rfl⟩, hv⟩
  have hl : ∀ b ∈ (commit ⟨none, none, none, startedNs⟩ (Body.initial domain) first).row,
      (∃ active, b.handoff = { Handoff.initial domain with active }) ∧
        b.handoff.Valid b.sourceCounts := by
    intro b hb
    simp only [commit, Option.isSome_none, Bool.false_eq_true, if_false] at hb
    cases hp : prepare none (Body.initial domain) startedNs with
    | error reason => rw [hp] at hb; cases hb
    | ok c =>
      rw [hp] at hb
      cases first <;> cases hb <;> exact hfirst _ hp
  simp only
  split_ifs with hfail
  · refine ⟨fun hn => ?_, hl⟩
    rw [hn] at hfail; cases hfail
  generalize commit ⟨none, none, none, startedNs⟩ (Body.initial domain) first = l at hl hfail
  unfold openRow
  split
  · exact ⟨hclosed _ _, hl⟩
  rename_i b hread
  simp only [readRow, bind_ok, orFail_eq_ok, need_eq_ok, exists_unit, pure_ok] at hread
  obtain ⟨b, hb, -, -, -, rfl⟩ := hread
  cases startSession with
  | false => exact ⟨fun _ b' hb' => by cases hb'; exact hb, hl⟩
  | true =>
    obtain ⟨hsync, hcommit, -⟩ :=
      commit_synced b (b.session domain startedNs) l.row startedNs second
    refine ⟨hsync, fun c hc => ?_⟩
    rcases hcommit with hrow | ⟨c', hc', hrow⟩
    · exact hl c (hrow ▸ hc)
    · obtain rfl : c' = c := Option.some.inj (hrow.symm.trans hc)
      obtain ⟨⟨active, rfl⟩, hv⟩ := prepare_ok hc'
      obtain ⟨⟨active', ha⟩, -⟩ := hl b hb
      refine ⟨⟨active, ?_⟩, hv⟩
      have hsame : (b.session domain startedNs).handoff = b.handoff := by
        unfold Body.session; split_ifs <;> rfl
      simp only [hsame, ha]

end Ledger

/-! ## Moves -/

section
variable {b new c : Body} {atNs : ℕ}

/-- An operation that leaves the handoff record alone. -/
theorem moves_of_same (hnew : new.handoff = b.handoff)
    (hc : prepare (some b) new atNs = .ok c) : b.Moves c := by
  obtain ⟨⟨active, rfl⟩, -⟩ := prepare_ok hc
  exact .collected active (by simp only [hnew])

omit [Sha256] in
theorem Body.session_handoff (b : Body) (domain : Hex 64) (startedNs : ℕ) :
    (b.session domain startedNs).handoff = b.handoff := by
  unfold Body.session
  split_ifs <;> rfl

theorem Body.frame_handoff {packet : Bytes} {arrivedNs : ℕ} {verified : Bool} {r : Status}
    (h : b.frame packet arrivedNs verified = .ok ⟨some new, r⟩) : new.handoff = b.handoff := by
  unfold Body.frame at h
  split_ifs at h
  · cases h; rfl
  · dsimp only at h
    split at h <;> cases h <;> rfl

omit [Sha256] in
theorem Body.recordFault_handoff {kind : Fault} {arrivedNs : ℕ} {r : Unit}
    (h : b.recordFault kind arrivedNs = .ok ⟨some new, r⟩) : new.handoff = b.handoff := by
  unfold Body.recordFault at h
  split_ifs at h
  cases h; rfl

/-- What `freeze` does. -/
theorem Handoff.freeze_cases {h h' : Handoff} {domain : Hex 64} {o : Option Packet} {changed : Bool}
    (hf : h.freeze atNs domain = some (o, changed, h')) :
    (changed = false ∧ h' = h ∧ o = h.published) ∨
    ∃ p, changed = true ∧ o = some p ∧ h.published = none ∧ p.body.bucketId = h.nextBucketId ∧
      p.body.previousAck = h.lastAck ∧
      h' = { h with
        published := some p, nextBucketId := h.nextBucketId + 1, active := Bucket.empty domain } := by
  unfold Handoff.freeze at hf
  split at hf
  · rename_i p hp
    cases hf
    exact Or.inl ⟨rfl, rfl, hp.symm⟩
  rename_i hnone
  split_ifs at hf
  · cases hf
    exact Or.inl ⟨rfl, rfl, hnone.symm⟩
  · cases hf
    exact Or.inr ⟨_, rfl, rfl, hnone, rfl, rfl, rfl⟩

/-- `publish` returns the packet that is published after it. -/
theorem Body.publish_cases {s : Option Body} {r : Option Packet}
    (h : b.publish atNs = .ok ⟨s, r⟩) :
    (s = none ∧ r = b.handoff.published) ∨
    ∃ new p, s = some new ∧ r = some p ∧ b.handoff.published = none ∧
      p.body.bucketId = b.handoff.nextBucketId ∧ p.body.previousAck = b.handoff.lastAck ∧
      new.handoff = { b.handoff with
        published := some p, nextBucketId := b.handoff.nextBucketId + 1
        active := Bucket.empty b.clockDomainId } := by
  unfold Body.publish at h
  split at h
  · cases h
  rename_i o changed h' hf
  rcases Handoff.freeze_cases hf with ⟨rfl, rfl, rfl⟩ | ⟨p, rfl, rfl, hnone, hid, hprev, rfl⟩
  · cases h; exact Or.inl ⟨rfl, rfl⟩
  · cases h; exact Or.inr ⟨_, p, rfl, rfl, hnone, hid, hprev, rfl⟩

theorem moves_of_publish {r : Option Packet} (h : b.publish atNs = .ok ⟨some new, r⟩)
    (hc : prepare (some b) new atNs = .ok c) : b.Moves c ∧ r = c.handoff.published := by
  obtain ⟨⟨active, rfl⟩, -⟩ := prepare_ok hc
  rcases Body.publish_cases h with ⟨h0, -⟩ | ⟨_, p, hs, rfl, hnone, hid, hprev, hnew⟩
  · cases h0
  · cases hs
    exact ⟨.frozen p active hnone hid hprev (by simp only [hnew]), by simp only [hnew]⟩

omit [Sha256] in
/-- An acknowledgement of the current receipt's packet or of an earlier one changes nothing; one
    of the published packet takes it off. -/
theorem Handoff.acknowledge_known {h : Handoff} {j : Json} {a : Ack} (domain : Hex 64)
    (hj : ack? j = some a) (hat : atNs < 2 ^ 64)
    (hold : (∃ r ∈ h.lastAck, a.bucketId < r.bucketId ∨
        a.bucketId = r.bucketId ∧ a.sha256 = r.sha256) ∨
      (∀ r ∈ h.lastAck, r.bucketId < a.bucketId) ∧
        ∃ p ∈ h.published, a.bucketId = p.body.bucketId ∧ a.sha256 = p.sha256) :
    (∃ status, status ≠ .rejected ∧ h.acknowledge j atNs domain = some (status, false, h)) ∨
    ∃ p, h.published = some p ∧ a.bucketId = p.body.bucketId ∧
      h.acknowledge j atNs domain = some (.accepted, true, h.settle p atNs domain) := by
  rw [Handoff.acknowledge, if_pos hat, hj]
  rcases hold with ⟨r, hr, hlt | ⟨hid, hsha⟩⟩ | ⟨hnew, p, hp, hid, hsha⟩
  · have hstale : ∃ r ∈ h.lastAck, a.bucketId < r.bucketId := ⟨r, hr, hlt⟩
    exact Or.inl ⟨.staleIgnored, by decide, by simp only [if_pos hstale]⟩
  · refine Or.inl ⟨.duplicate, by decide, ?_⟩
    have hnot : ¬ ∃ r ∈ h.lastAck, a.bucketId < r.bucketId := by
      rintro ⟨r', hr', hlt⟩
      cases (Option.mem_def.1 hr).symm.trans hr'
      omega
    simp only [if_neg hnot, if_pos (⟨r, hr, hid⟩ : ∃ r ∈ h.lastAck, a.bucketId = r.bucketId),
      if_pos (⟨r, hr, hsha⟩ : ∃ r ∈ h.lastAck, a.sha256 = r.sha256)]
  · refine Or.inr ⟨p, hp, hid, ?_⟩
    have h1 : ¬ ∃ r ∈ h.lastAck, a.bucketId < r.bucketId := by
      rintro ⟨r, hr, hlt⟩
      have := hnew r hr
      omega
    have h2 : ¬ ∃ r ∈ h.lastAck, a.bucketId = r.bucketId := by
      rintro ⟨r, hr, hlt⟩
      have := hnew r hr
      omega
    simp only [if_neg h1, if_neg h2, Option.mem_def.1 hp, if_pos (And.intro hid hsha)]

end
end
end SmartHome.Mqtt
