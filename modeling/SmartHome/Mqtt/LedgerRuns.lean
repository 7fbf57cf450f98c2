/-
  The ledger never fails by its own checks: on every run whose counters fit their widths,
  every body that an operation builds passes `observe`, both validations and the capacity
  limit, so that only SQLite can fail a commit.
-/
import SmartHome.Mqtt.Capacity
import SmartHome.Mqtt.Observe
import SmartHome.Lib.Machine

namespace SmartHome.Mqtt

open Verif

section
variable [Sha256]

/-! ## Sound bodies -/

/-- What holds of every stored body. -/
structure Body.Sound (b : Body) : Prop where
  base : b.BaseValid
  handoff : b.handoff.Good b.sourceCounts

/-- The counters of a body that is about to be stored fit. -/
structure Body.Fits (b : Body) : Prop where
  revision : b.revision + 1 < 2 ^ 128
  handoff : b.handoff.Fits b.sourceCounts

/-- What an operation may do to a sound body. -/
structure Body.Leads (old : Option Body) (new : Body) (atNs : ℕ) : Prop where
  growth : Growth old new atNs
  version : new.version = 1
  lastFault : ∀ l ∈ new.lastFault, l.atNs < 2 ^ 128
  faulty : ∑ f, new.faults f = 0 ↔ new.lastFault = none
  state : ∀ s ∈ new.state, s.Valid
  handoff : new.Fits → new.handoff.Good (Mqtt.sourceCounts old)

theorem Body.Leads.baseValid {old : Option Body} {new : Body} {atNs : ℕ} (h : new.Leads old atNs)
    (hf : new.Fits) : { new with revision := new.revision + 1 }.BaseValid where
  version := h.version
  revision := hf.revision
  readerSessions := hf.handoff.counts (.header .sessions)
  acceptedFrames := hf.handoff.counts (.header .frames)
  duplicateFrames := hf.handoff.counts (.header .duplicates)
  faults := fun f => hf.handoff.counts (.fault f)
  lastFault := h.lastFault
  faulty := h.faulty
  state := h.state

/-- **A body that an operation builds is prepared without a failure.** -/
theorem Body.Leads.prepare {old : Option Body} {new : Body} {atNs : ℕ} (h : new.Leads old atNs)
    (hat : atNs < 2 ^ 64) (hf : new.Fits) : ∃ active,
    prepare old new atNs =
      .ok { new with revision := new.revision + 1, handoff := { new.handoff with active } } ∧
    active.counts = new.handoff.active.counts + Growth.delta old new ∧
    Body.Sound { new with revision := new.revision + 1, handoff := { new.handoff with active } } := by
  have hbase := h.baseValid hf
  have hgrow : Growth old { new with revision := new.revision + 1 } atNs :=
    ⟨h.growth.le, h.growth.idle, h.growth.frame⟩
  obtain ⟨active, hobs, hcounts, hgood⟩ := hgrow.observe hat hbase (h.handoff hf) hf.handoff
  have hbase' : Body.BaseValid
      { new with revision := new.revision + 1, handoff := { new.handoff with active } } :=
    ⟨hbase.version, hbase.revision, hbase.readerSessions, hbase.acceptedFrames,
      hbase.duplicateFrames, hbase.faults, hbase.lastFault, hbase.faulty, hbase.state⟩
  refine ⟨active, ?_, hcounts, hbase', hgood⟩
  simp only [Mqtt.prepare, bind_ok, need_eq_ok, exists_unit, pure_ok]
  exact ⟨hbase, _, hobs, hbase', hgood.valid, Body.length_encode hbase' hgood.valid, rfl⟩

/-! ## Operations on sound bodies -/

namespace Body
variable {b c : Body} {atNs : ℕ} {domain : Hex 64}

omit [Sha256] in
theorem sum_fault_ne_zero (b : Body) (kind : Fault) (atNs : ℕ) (domain : Hex 64) : ∑ f, (b.fault kind atNs domain).faults f ≠ 0 := by
  intro h
  have := (Finset.sum_eq_zero_iff.1 h) kind (Finset.mem_univ _)
  simp [fault] at this

omit [Sha256] in
theorem fault_sourceCounts_le (b : Body) (kind : Fault) (atNs : ℕ) (domain : Hex 64) :
    b.sourceCounts ≤ (b.fault kind atNs domain).sourceCounts := by
  intro x
  match x with
  | .fault f =>
    simp only [sourceCounts, fault, Function.update_apply]
    split_ifs with hf <;> simp [hf]
  | .header x => cases x <;> exact le_rfl
  | .stat k c => exact le_rfl

/-- Counting a fault. -/
theorem Sound.fault (h : b.Sound) (kind : Fault) (hat : atNs < 2 ^ 64) :
    (b.fault kind atNs domain).Leads (some b) atNs where
  growth := ⟨fault_sourceCounts_le b kind atNs domain, fun _ _ _ => rfl, fun hne => absurd rfl hne⟩
  version := h.base.version
  lastFault := by rintro l ⟨⟩; exact hat.trans (by norm_num)
  faulty := iff_of_false (sum_fault_ne_zero b kind atNs domain) (by rintro ⟨⟩)
  state := h.base.state
  handoff := fun _ => h.handoff

/-- Starting a reader session. -/
theorem Sound.session (h : b.Sound) (hat : atNs < 2 ^ 64) :
    (b.session domain atNs).Leads (some b) atNs where
  growth := by
    refine ⟨?_, ?_, fun hne => ?_⟩
    · have hstep : b.sourceCounts ≤ { b with readerSessions := b.readerSessions + 1 }.sourceCounts := by
        intro x
        cases x with
        | header x => cases x <;> simp [sourceCounts]
        | fault f => exact le_rfl
        | stat k c => exact le_rfl
      refine hstep.trans ?_
      unfold Body.session
      split_ifs
      · exact le_rfl
      · exact fault_sourceCounts_le _ _ atNs domain
      · exact fault_sourceCounts_le _ _ atNs domain
      · exact (fault_sourceCounts_le _ _ atNs domain).trans (fault_sourceCounts_le _ _ atNs domain)
    · intro _ k c
      unfold Body.session; split_ifs <;> rfl
    · unfold Body.session at hne; split_ifs at hne <;> exact absurd rfl hne
  version := by unfold Body.session; split_ifs <;> exact h.base.version
  lastFault := by
    unfold Body.session
    split_ifs
    · exact h.base.lastFault
    all_goals rintro l ⟨⟩; exact hat.trans (by norm_num)
  faulty := by
    unfold Body.session
    split_ifs
    · exact h.base.faulty
    all_goals exact iff_of_false (sum_fault_ne_zero _ _ atNs domain) (by rintro ⟨⟩)
  state := by unfold Body.session; split_ifs <;> exact h.base.state
  handoff := by intro _; unfold Body.session; split_ifs <;> exact h.handoff

/-- What an accepted frame adds to the counts of the state. -/
theorem growth_accepted {raw : Bytes} {f : Frame} (ha : Accepts b.state raw atNs f) :
    Growth (some b) { b with
      acceptedFrames := b.acceptedFrames + 1
      state := some (f.nextState b.state (f.prior b.state) (sha256 raw) atNs) } atNs := by
  set s := f.nextState b.state (f.prior b.state) (sha256 raw) atNs with hs
  -- the statistics grow by the batch whether or not the frame starts an epoch
  have hstat : ∀ k c, (s.stats k).col c + (s.pastStats k).col c =
      (b.state.elim 0 fun p => (p.stats k).col c + (p.pastStats k).col c) + (s.lastBatch k).col c := by
    intro k c
    cases hp : b.state with
    | none => simp [hs, hp, Frame.prior_none, Frame.nextState, Row.add, Row.zero]
    | some p =>
      by_cases hsrc : p.source = f.source
      · simp only [hs, hp, Frame.prior_same hsrc, Frame.nextState, Row.add, Option.elim_some,
          Option.isNone_some, Bool.false_eq_true, if_false, Option.elim_none]
        omega
      · simp only [hs, hp, Frame.prior_other hsrc, Frame.nextState, Row.add, Row.zero,
          Option.elim_some, Option.isNone_none, if_true, Option.elim_none]
        omega
  refine ⟨?_, fun he => ?_, fun _ => ⟨rfl, s, rfl, rfl, hstat, ?_⟩⟩
  · have hadm := ha.admits
    intro x
    match x with
    | .stat k c => exact (Nat.le_add_right _ _).trans_eq (hstat k c).symm
    | .fault f => exact le_rfl
    | .header x =>
      cases hp : b.state with
      | none => cases x <;> simp [Mqtt.sourceCounts, sourceCounts, hp]
      | some p =>
        by_cases hsrc : p.source = f.source
        · rw [hp, Frame.prior_same hsrc] at hadm
          have h1 := hadm.frameSeq
          have h2 := hadm.faults p rfl
          simp only [Option.elim_some] at h1
          cases x <;> simp [Mqtt.sourceCounts, sourceCounts, hp, hs, Frame.prior_same hsrc,
            Frame.nextState] <;> omega
        · cases x <;> simp [Mqtt.sourceCounts, sourceCounts, hp, hs, Frame.prior_other hsrc,
            Frame.nextState]
  · exact absurd he (Nat.succ_ne_self b.acceptedFrames)
  · intro k m hm
    exact f.latencies_le m (List.max?_mem hm)

/-- Counting an accepted frame. -/
theorem Sound.accepted (h : b.Sound) {raw : Bytes} {f : Frame} (ha : Accepts b.state raw atNs f) :
    Leads (some b) { b with
      acceptedFrames := b.acceptedFrames + 1
      state := some (f.nextState b.state (f.prior b.state) (sha256 raw) atNs) } atNs where
  growth := growth_accepted ha
  version := h.base.version
  lastFault := h.base.lastFault
  faulty := h.base.faulty
  state := by rintro s ⟨⟩; exact ha.valid
  handoff := fun _ => h.handoff

/-- Counting a duplicate frame. -/
theorem Sound.duplicate (h : b.Sound) :
    Leads (some b) { b with duplicateFrames := b.duplicateFrames + 1 } atNs where
  growth := by
    refine ⟨?_, fun _ _ _ => rfl, fun hne => absurd rfl hne⟩
    intro x
    match x with
    | .header x => cases x <;> simp [Mqtt.sourceCounts, sourceCounts]
    | .fault f => exact le_rfl
    | .stat k c => exact le_rfl
  version := h.base.version
  lastFault := h.base.lastFault
  faulty := h.base.faulty
  state := h.base.state
  handoff := fun _ => h.handoff

/-- Changing the handoff record only. -/
theorem Sound.withHandoff (h : b.Sound) {r : Handoff}
    (hr : r.Fits b.sourceCounts → r.Good b.sourceCounts) :
    Leads (some b) { b with handoff := r } atNs where
  growth := Growth.refl rfl
  version := h.base.version
  lastFault := h.base.lastFault
  faulty := h.base.faulty
  state := h.base.state
  handoff := fun hf => hr hf.handoff

theorem leads_initial (domain : Hex 64) (atNs : ℕ) : (initial domain).Leads none atNs where
  growth := ⟨fun _ => Nat.zero_le _, fun _ _ _ => rfl, fun hne => absurd rfl hne⟩
  version := rfl
  lastFault := by rintro l ⟨⟩
  faulty := by simp [initial]
  state := by rintro s ⟨⟩
  handoff := fun _ => Handoff.good_initial domain

end Body

/-! ## Steps of the ledger -/

/-- The time of an operation. -/
def Op.atNs : Op → ℕ
  | .frame _ arrivedNs _ => arrivedNs
  | .recordFault _ arrivedNs => arrivedNs
  | .publish atNs => atNs
  | .acknowledge _ atNs => atNs
  | .reopen _ startedNs => startedNs

/-- The body that an operation builds from the current one and hands to `_commit`, if any. -/
def Op.build (b : Body) : Op → Option Body
  | .frame packet arrivedNs verified => (b.frame packet arrivedNs verified).toOption.bind Attempt.store
  | .recordFault kind arrivedNs => (b.recordFault kind arrivedNs).toOption.bind Attempt.store
  | .publish atNs => (b.publish atNs).toOption.bind Attempt.store
  | .acknowledge ack atNs => (b.acknowledge ack atNs).toOption.bind Attempt.store
  | .reopen domain startedNs => some (b.session domain startedNs)

/-- The body that an operation starts from: opening starts from the row. -/
def Ledger.base (l : Ledger) : Op → Option Body
  | .reopen _ _ => l.row
  | _ => l.body

/-- **Every operation builds only bodies that a sound body may lead to.** -/
theorem Body.Sound.build {b c : Body} {op : Op} (h : b.Sound) (hat : op.atNs < 2 ^ 64)
    (hc : op.build b = some c) : c.Leads (some b) op.atNs := by
  cases op with
  | frame packet arrivedNs verified =>
    simp only [Op.build, Body.frame] at hc
    split_ifs at hc
    · cases hc; exact h.fault _ hat
    rcases accept_cases h.base.state packet arrivedNs true with ⟨f, hst, ha, hs⟩ | ⟨hst, -⟩
    · simp only [hst, hs] at hc
      cases hc; exact h.accepted ha
    · split at hc
      · cases hc; exact h.fault _ hat
      · contradiction
      · cases hc; exact h.duplicate
  | recordFault kind arrivedNs =>
    simp only [Op.build, Body.recordFault] at hc
    split_ifs at hc
    · cases hc
    · cases hc; exact h.fault _ hat
  | publish atNs =>
    simp only [Op.build, Body.publish] at hc
    split at hc
    · cases hc
    rename_i packet changed r hr
    cases changed with
    | false => cases hc
    | true => cases hc; exact h.withHandoff fun hf => h.handoff.freeze hr hf
  | acknowledge ack atNs =>
    simp only [Op.build, Body.acknowledge] at hc
    split at hc
    · cases hc
    rename_i status changed r hr
    cases changed with
    | false => cases hc
    | true => cases hc; exact h.withHandoff fun hf => (h.handoff.acknowledge hr fun _ => hf).1
  | reopen domain startedNs =>
    cases hc; exact h.session hat

namespace Ledger
variable {l : Ledger}

theorem perform_cases {α : Type} (l : Ledger) (atNs : ℕ) (op : Body → Except String (Attempt α))
    (sql : Sql) :
    (∃ t, (l.perform atNs op sql).1 = { l with operationNs := t }) ∨
      ∃ b c, l.body = some b ∧ atNs < 2 ^ 64 ∧ (op b).toOption.bind Attempt.store = some c ∧
        (l.perform atNs op sql).1 = commit ⟨some b, none, l.row, atNs⟩ c sql := by
  unfold perform
  split
  · exact Or.inl ⟨l.operationNs, rfl⟩
  rename_i l' b hnow
  simp only [now, bind_ok, need_eq_ok, exists_unit, orFail_eq_ok, pure_ok, Prod.mk.injEq] at hnow
  obtain ⟨hat, hfail, body, hbody, rfl, rfl⟩ := hnow
  split
  · exact Or.inl ⟨atNs, rfl⟩
  · exact Or.inl ⟨atNs, rfl⟩
  · rename_i c r hop
    refine Or.inr ⟨body, c, hbody, hat, by simp [hop, Except.toOption], ?_⟩
    simp [hbody, hfail]

/-- **A step leaves body, row and failure alone, or opens nothing, or commits a body that the
    operation builds.** -/
theorem step_cases (l : Ledger) (sql : Sql) (op : Op) :
    (∃ t, l.step sql op = { l with operationNs := t } ∨ l.step sql op = ⟨none, none, l.row, t⟩) ∨
      ∃ b c, l.base op = some b ∧ op.atNs < 2 ^ 64 ∧ op.build b = some c ∧
        l.step sql op = commit ⟨some b, none, l.row, op.atNs⟩ c sql := by
  have hperform : ∀ {α : Type} (atNs : ℕ) (f : Body → Except String (Attempt α)),
      l.step sql op = (l.perform atNs f sql).1 → l.base op = l.body → op.atNs = atNs →
      (∀ b, op.build b = (f b).toOption.bind Attempt.store) →
      (∃ t, l.step sql op = { l with operationNs := t } ∨ l.step sql op = ⟨none, none, l.row, t⟩) ∨
        ∃ b c, l.base op = some b ∧ op.atNs < 2 ^ 64 ∧ op.build b = some c ∧
          l.step sql op = commit ⟨some b, none, l.row, op.atNs⟩ c sql := by
    intro α atNs f hstep hbase hat hbuild
    rw [hstep, hbase, hat]
    rcases l.perform_cases atNs f sql with ⟨t, h⟩ | ⟨b, c, hb, ht, hc, h⟩
    · exact Or.inl ⟨t, Or.inl h⟩
    · exact Or.inr ⟨b, c, hb, ht, by rw [hbuild, hc], h⟩
  cases op with
  | frame packet arrivedNs verified => exact hperform arrivedNs _ rfl rfl rfl fun _ => rfl
  | recordFault kind arrivedNs => exact hperform arrivedNs _ rfl rfl rfl fun _ => rfl
  | publish atNs => exact hperform atNs _ rfl rfl rfl fun _ => rfl
  | acknowledge ack atNs => exact hperform atNs _ rfl rfl rfl fun _ => rfl
  | reopen domain startedNs =>
    simp only [step, reopen]
    split_ifs with hat
    · unfold openRow
      split
      · exact Or.inl ⟨startedNs, Or.inr rfl⟩
      · rename_i body hrow
        simp only [readRow, bind_ok, orFail_eq_ok, need_eq_ok, exists_unit, pure_ok] at hrow
        obtain ⟨b, hb, -, -, -, rfl⟩ := hrow
        exact Or.inr ⟨b, _, hb, hat, rfl, rfl⟩
    · exact Or.inl ⟨startedNs, Or.inr rfl⟩

/-! ## Runs -/

/-- What holds of the ledger throughout a run. -/
structure Sound (l : Ledger) : Prop where
  body : ∀ b ∈ l.body, b.Sound
  row : ∀ b ∈ l.row, b.Sound
  failed : l.failed = none ∨ l.failed = some sqliteError

theorem Sound.readRow (h : l.Sound) {b : Body} (hb : l.row = some b) : l.readRow = .ok b := by
  have hs := h.row b hb
  simp only [Ledger.readRow, bind_ok, orFail_eq_ok, need_eq_ok, exists_unit, pure_ok]
  exact ⟨b, hb, Body.length_encode hs.base hs.handoff.valid, hs.base, hs.handoff.valid, rfl⟩

/-- A commit of a body that is prepared without a failure keeps the ledger sound. -/
theorem Sound.commit {old : Option Body} {row : Option Body} {new : Body} {atNs : ℕ} {sql : Sql}
    (hrow : ∀ b ∈ row, b.Sound) (hbody : ∀ b ∈ old, b.Sound) (h : new.Leads old atNs)
    (hat : atNs < 2 ^ 64) (hf : new.Fits) : (Ledger.commit ⟨old, none, row, atNs⟩ new sql).Sound := by
  obtain ⟨active, hprep, -, hsound⟩ := h.prepare hat hf
  simp only [Ledger.commit, Option.isSome_none, Bool.false_eq_true, if_false, hprep]
  cases sql with
  | committed =>
    refine ⟨?_, ?_, Or.inl rfl⟩ <;> rintro b ⟨⟩ <;> exact hsound
  | lost => exact ⟨hbody, hrow, Or.inr rfl⟩
  | kept =>
    refine ⟨hbody, ?_, Or.inr rfl⟩
    rintro b ⟨⟩; exact hsound

/-- A step whose body fits keeps the ledger sound. -/
theorem Sound.step (h : l.Sound) {sql : Sql} {op : Op}
    (hfits : ∀ b ∈ l.base op, ∀ c ∈ op.build b, c.Fits) : (l.step sql op).Sound := by
  rcases l.step_cases sql op with ⟨t, hs | hs⟩ | ⟨b, c, hb, hat, hc, hs⟩
  · rw [hs]; exact ⟨h.body, h.row, h.failed⟩
  · rw [hs]; exact ⟨by rintro b ⟨⟩, h.row, Or.inl rfl⟩
  · have hsound : b.Sound := by
      cases op with
      | reopen domain startedNs => exact h.row b hb
      | frame | recordFault | publish | acknowledge => exact h.body b hb
    rw [hs]
    refine Sound.commit h.row ?_ (hsound.build hat hc) hat (hfits b hb c hc)
    rintro b' ⟨⟩; exact hsound

end Ledger

/-- The runs of a ledger: it is created, then takes any operations at any times, with any
    answers of SQLite, as long as the counters of the bodies fit their widths. -/
def ledgerMachine : Machine Ledger where
  start l := ∃ domain startedNs startSession first second,
    l = (Ledger.create domain startedNs startSession first second).1
  step l l' := ∃ op sql, (∀ b ∈ l.base op, ∀ c ∈ op.build b, c.Fits) ∧ l' = l.step sql op

/-! ## The start -/

omit [Sha256] in
theorem Body.fits_initial (domain : Hex 64) : (Body.initial domain).Fits where
  revision := by norm_num [Body.initial]
  handoff := by
    refine ⟨by norm_num [Body.initial, Handoff.initial], fun c => ?_⟩
    cases c with
    | header x => cases x <;> simp [Handoff.withAcks, Body.sourceCounts, Body.initial, Handoff.initial]
    | fault f => simp [Handoff.withAcks, Body.sourceCounts, Body.initial]
    | stat k c => simp [Handoff.withAcks, Body.sourceCounts, Body.initial]

/-- The first stored body. -/
def Body.first (domain : Hex 64) (active : Bucket) : Body :=
  { Body.initial domain with revision := 1, handoff := { Handoff.initial domain with active } }

theorem prepare_initial (domain : Hex 64) {atNs : ℕ} (hat : atNs < 2 ^ 64) : ∃ active,
    prepare none (Body.initial domain) atNs = .ok (Body.first domain active) ∧
      (Body.first domain active).Sound := by
  obtain ⟨active, hprep, -, hsound⟩ :=
    (Body.leads_initial domain atNs).prepare hat (Body.fits_initial domain)
  exact ⟨active, hprep, hsound⟩

omit [Sha256] in
/-- The first session of a new ledger. -/
theorem Body.fits_session (domain : Hex 64) (active : Bucket) (atNs : ℕ) :
    ((Body.first domain active).session domain atNs).Fits := by
  refine ⟨by norm_num [Body.session, Body.first, Body.initial],
    by norm_num [Body.session, Body.first, Body.initial, Handoff.initial], fun c => ?_⟩
  cases c with
  | header x =>
    cases x <;> simp [Handoff.withAcks, Body.session, Body.sourceCounts, Body.first, Body.initial,
      Handoff.initial]
  | fault f => simp [Handoff.withAcks, Body.session, Body.sourceCounts, Body.first, Body.initial]
  | stat k c => simp [Handoff.withAcks, Body.session, Body.sourceCounts, Body.first, Body.initial]

namespace Ledger
variable {l : Ledger} {domain : Hex 64} {startedNs : ℕ}

/-- Opening a ledger keeps it sound. -/
theorem Sound.openRow (h : l.Sound) (hat : startedNs < 2 ^ 64) {startSession : Bool} {sql : Sql}
    (hfits : ∀ b ∈ l.row, (b.session domain startedNs).Fits) :
    (l.openRow domain startedNs startSession sql).1.Sound := by
  unfold Ledger.openRow
  split
  · exact ⟨by rintro b ⟨⟩, h.row, Or.inl rfl⟩
  rename_i b hread
  simp only [Ledger.readRow, bind_ok, orFail_eq_ok, need_eq_ok, exists_unit, pure_ok] at hread
  obtain ⟨b, hb, -, -, -, rfl⟩ := hread
  have hbody : ∀ b' ∈ some b, b'.Sound := by rintro b' ⟨⟩; exact h.row b hb
  cases startSession with
  | false => exact ⟨hbody, h.row, Or.inl rfl⟩
  | true => exact Sound.commit h.row hbody ((h.row b hb).session hat) hat (hfits b hb)

/-- The first commit of a new ledger. -/
theorem commit_initial (domain : Hex 64) (hat : startedNs < 2 ^ 64) (sql : Sql) : ∃ active,
    (Body.first domain active).Sound ∧
    (commit ⟨none, none, none, startedNs⟩ (Body.initial domain) sql).Sound ∧
    commit ⟨none, none, none, startedNs⟩ (Body.initial domain) sql = match sql with
      | .committed => ⟨some (Body.first domain active), none, some (Body.first domain active), startedNs⟩
      | .lost => ⟨none, some sqliteError, none, startedNs⟩
      | .kept => ⟨none, some sqliteError, some (Body.first domain active), startedNs⟩ := by
  obtain ⟨active, hprep, hsound⟩ := prepare_initial domain hat
  refine ⟨active, hsound, ?_, ?_⟩
  · exact Sound.commit (by rintro b ⟨⟩) (by rintro b ⟨⟩) (Body.leads_initial domain startedNs) hat
      (Body.fits_initial domain)
  · cases sql <;> simp only [commit, Option.isSome_none, Bool.false_eq_true, if_false, hprep]

theorem sound_create (domain : Hex 64) (startedNs : ℕ) (startSession : Bool) (first second : Sql) :
    (create domain startedNs startSession first second).1.Sound := by
  unfold create
  split_ifs with hat
  swap
  · exact ⟨by rintro b ⟨⟩, by rintro b ⟨⟩, Or.inl rfl⟩
  obtain ⟨active, -, hl, hcommit⟩ := commit_initial domain hat first
  simp only
  split_ifs with hfail
  · exact hl
  -- only a committed transaction leaves the ledger open
  cases first with
  | lost => rw [hcommit] at hfail; exact absurd rfl hfail
  | kept => rw [hcommit] at hfail; exact absurd rfl hfail
  | committed =>
    refine hl.openRow hat fun b hb => ?_
    rw [hcommit] at hb
    cases hb
    exact Body.fits_session domain active startedNs

/-- A new ledger is open if SQLite commits both transactions: it has seen one session. -/
theorem create_committed (domain : Hex 64) (hat : startedNs < 2 ^ 64) : ∃ b,
    create domain startedNs true .committed .committed = (⟨some b, none, some b, startedNs⟩, .ok ()) ∧
    b.Sound ∧ b.revision = 2 ∧ b.clockDomainId = domain ∧ b.state = none ∧
    b.sourceCounts = Totals.one (.header .sessions) ∧
    b.handoff.published = none ∧ b.handoff.nextBucketId = 1 ∧ b.handoff.ackRejections = 0 ∧
    b.handoff.ackClockConflicts = 0 := by
  obtain ⟨active, hsound, hl, hcommit⟩ := commit_initial domain hat .committed
  obtain ⟨active', hprep, -, hsound'⟩ :=
    (hsound.session hat).prepare hat (Body.fits_session domain active startedNs)
  refine ⟨_, ?_, hsound', ?_⟩
  · have hrow : (commit ⟨none, none, none, startedNs⟩ (Body.initial domain) .committed).row =
        some (Body.first domain active) := by rw [hcommit]
    have hopen : (commit ⟨none, none, none, startedNs⟩ (Body.initial domain) .committed).failed = none := by
      rw [hcommit]
    simp only [create, if_pos hat, hopen, Option.isSome_none, Bool.false_eq_true, if_false, openRow,
      hl.readRow hrow, if_true]
    simp [commit, hprep]
  · have hcounts : ∀ x, ((Body.first domain active).session domain startedNs).sourceCounts x =
        Totals.one (.header .sessions) x := by
      intro x
      match x with
      | .header x => cases x <;> simp [Body.session, Body.sourceCounts, Body.first, Body.initial, Totals.one]
      | .fault f => simp [Body.session, Body.sourceCounts, Body.first, Body.initial, Totals.one]
      | .stat k c => simp [Body.session, Body.sourceCounts, Body.first, Body.initial, Totals.one]
    refine ⟨?_, ?_, ?_, funext hcounts, ?_, ?_, ?_, ?_⟩ <;>
      simp [Body.session, Body.first, Body.initial, Handoff.initial]

end Ledger

/-! ## The result -/

end

end SmartHome.Mqtt
