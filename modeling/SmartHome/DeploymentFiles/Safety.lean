/-
  A deployment that is interrupted can always be rolled back: every target is what it was or what was
  approved, and what is not what it was has a copy.
-/
import SmartHome.DeploymentFiles.Steps

namespace SmartHome.DeploymentFiles

open Verif Program Mqtt FileTransaction

section
variable [Sha256]

/-- What deployments may have made of the files `base`. -/
structure Sound (base : String → Option Bytes) (s : Disk) : Prop where
  untouched : s.journal = none → s.target = base
  valid : ∀ b ∈ s.journal, manifestHash b.spec = b.manifest
  known : ∀ b ∈ s.journal, ∀ key ∈ targets, digestOf (base key) = (b.spec key).before
  between : ∀ b ∈ s.journal, ∀ key, s.target key = base key ∨
    key ∈ targets ∧ digestOf (s.target key) = some (b.spec key).after
  copied : ∀ key, s.target key ≠ base key → s.synced = true ∧ ∀ raw ∈ base key, s.backup key = some raw
  applied : ∀ b ∈ s.journal, b.phase = .applied → ∀ key ∈ targets,
    digestOf (s.target key) = some (b.spec key).after
  rolledBack : ∀ b ∈ s.journal, b.phase = .rolledBack → ∀ key ∈ targets,
    digestOf (s.target key) = digestOf (base key)
  agreed : ∀ b ∈ s.journal, b.phase ≠ .rollbackConflict

variable {P : Disk → Prop} {α : Type} {post : α → Disk → Prop} {s : Disk} {base : String → Option Bytes}
  {spec : Spec}

/-! ## Copies -/

/-- The targets of some keys have their copies. -/
def Copied (base : String → Option Bytes) (keys : List String) (s : Disk) : Prop :=
  ∀ key ∈ keys, ∀ raw ∈ base key, s.backup key = some raw

theorem Sound.start (h : s.journal = none) (htarget : s.target = base) : Sound base s where
  untouched _ := htarget
  valid b hb := by rw [h] at hb; cases hb
  known b hb := by rw [h] at hb; cases hb
  between b hb := by rw [h] at hb; cases hb
  copied key hkey := absurd (congrFun htarget key) hkey
  applied b hb := by rw [h] at hb; cases hb
  rolledBack b hb := by rw [h] at hb; cases hb
  agreed b hb := by rw [h] at hb; cases hb

/-- Copies may come and go while no target has changed. -/
theorem Sound.with_backup (h : Sound base s) (htarget : s.target = base) (backup : String → Option Bytes) :
    Sound base { s with backup := backup } :=
  ⟨h.untouched, h.valid, h.known, h.between, fun key hkey => absurd (congrFun htarget key) hkey, h.applied,
    h.rolledBack, h.agreed⟩

theorem Sound.with_synced (h : Sound base s) : Sound base { s with synced := true } :=
  ⟨h.untouched, h.valid, h.known, h.between, fun key hkey => ⟨rfl, (h.copied key hkey).2⟩, h.applied,
    h.rolledBack, h.agreed⟩

/-- The journal may say what the targets are. -/
theorem Sound.with_journal (h : Sound base s) {b : Body} (hvalid : manifestHash b.spec = b.manifest)
    (hknown : ∀ key ∈ targets, digestOf (base key) = (b.spec key).before)
    (hbetween : ∀ key, s.target key = base key ∨ key ∈ targets ∧ digestOf (s.target key) = some (b.spec key).after)
    (happlied : b.phase = .applied → ∀ key ∈ targets, digestOf (s.target key) = some (b.spec key).after)
    (hrolled : b.phase = .rolledBack → ∀ key ∈ targets, digestOf (s.target key) = digestOf (base key))
    (hagreed : b.phase ≠ .rollbackConflict) : Sound base (s.enter b) where
  untouched hnone := by cases hnone
  valid b' hb' := by obtain rfl := Option.some.inj hb'; exact hvalid
  known b' hb' := by obtain rfl := Option.some.inj hb'; exact hknown
  between b' hb' := by obtain rfl := Option.some.inj hb'; exact hbetween
  copied := h.copied
  applied b' hb' := by obtain rfl := Option.some.inj hb'; exact happlied
  rolledBack b' hb' := by obtain rfl := Option.some.inj hb'; exact hrolled
  agreed b' hb' := by obtain rfl := Option.some.inj hb'; exact hagreed

/-- What the copies keep. -/
structure Copying (base : String → Option Bytes) (s₀ s : Disk) : Prop where
  sound : Sound base s
  target : s.target = base
  journal : s.journal = s₀.journal
  kept : ∀ key, s₀.backup key ≠ none → s.backup key = s₀.backup key

theorem Copying.refl (h : Sound base s) (htarget : s.target = base) : Copying base s s :=
  ⟨h, htarget, rfl, fun _ _ => rfl⟩

theorem Copying.trans {s₀ s₁ s₂ : Disk} (h : Copying base s₀ s₁) (h' : Copying base s₁ s₂) : Copying base s₀ s₂ where
  sound := h'.sound
  target := h'.target
  journal := h'.journal.trans h.journal
  kept key hkey := by
    have hfirst := h.kept key hkey
    exact (h'.kept key (hfirst ▸ hkey)).trans hfirst

theorem Copying.update {s₀ : Disk} (h : Copying base s₀ s) {key : String} (hkey : s₀.backup key = none)
    (raw : Option Bytes) : Copying base s₀ (s.keep key raw) where
  sound := h.sound.with_backup h.target _
  target := h.target
  journal := h.journal
  kept key' hkey' := by
    have hne : key' ≠ key := by
      rintro rfl
      exact hkey' hkey
    exact (s.keep_ne raw hne).trans (h.kept key' hkey')

theorem stays_copy {key : String} {raw : Bytes} {k : Unit → Prog α} (hs : Sound base s) (htarget : s.target = base)
    (h : ∀ s', Copying base s s' → s'.backup key = some raw → (k ()).Stays (Sound base) post s') :
    (copy key raw >>= k).Stays (Sound base) post s := by
  have hrefl := Copying.refl hs htarget
  rw [copy, bind_assoc]
  refine stays_fallible hs ?_
  rw [bind_assoc]
  refine stays_transaction hs fun s₁ hs₁ => ?_
  split_ifs at hs₁ with hnone
  obtain rfl := Except.ok.inj hs₁
  have hmade := hrefl.update hnone (some [])
  have hwritten := hmade.update hnone (some raw)
  exact stays_atomic hmade.sound hwritten.sound (h _ hwritten (Disk.keep_self ..))

theorem stays_copies {keys : List String} {k : Unit → Prog α} (hs : Sound base s) (htarget : s.target = base)
    (h : ∀ s', Copying base s s' → Copied base keys s' → (k ()).Stays (Sound base) post s') :
    (copies spec keys >>= k).Stays (Sound base) post s := by
  induction keys generalizing s with
  | nil => exact h s (.refl hs htarget) fun key hkey => absurd hkey List.not_mem_nil
  | cons key keys ih =>
    have hhere : s.target key = base key := congrFun htarget key
    rw [copies, bind_assoc]
    refine stays_current hs ?_
    rw [bind_assoc]
    refine stays_require hs fun _ => ?_
    rw [hhere]
    cases hraw : base key with
    | none =>
      refine ih hs htarget fun s' hs' hcopied => h s' hs' fun key' hkey' raw hraw' => ?_
      rcases List.mem_cons.1 hkey' with rfl | hkey'
      · rw [hraw] at hraw'
        cases hraw'
      · exact hcopied key' hkey' raw hraw'
    | some raw =>
      simp only [bind_assoc]
      refine stays_copy hs htarget fun s₁ hs₁ hcopy => ?_
      refine ih hs₁.sound hs₁.target fun s' hs' hcopied => h s' (hs₁.trans hs') fun key' hkey' raw' hraw' => ?_
      rcases List.mem_cons.1 hkey' with rfl | hkey'
      · rw [hraw] at hraw'
        obtain rfl := Option.some.inj hraw'
        rw [hs'.kept key' (by rw [hcopy]; exact Option.some_ne_none _), hcopy]
      · exact hcopied key' hkey' raw' hraw'

/-! ## Replacements -/

/-- A deployment that has its copies. -/
structure Running (base : String → Option Bytes) (spec : Spec) (s : Disk) : Prop where
  sound : Sound base s
  synced : s.synced = true
  copied : Copied base targets s
  journal : ∃ b, s.journal = some b ∧ b.spec = spec

theorem Running.save (h : Running base spec s) {b : Body} (hspec : b.spec = spec)
    (hvalid : manifestHash spec = b.manifest)
    (happlied : b.phase = .applied → ∀ key ∈ targets, digestOf (s.target key) = some (spec key).after)
    (hrolled : b.phase ≠ .rolledBack) (hagreed : b.phase ≠ .rollbackConflict) :
    Running base spec (s.enter b) := by
  obtain ⟨b₀, hb₀, rfl⟩ := h.journal
  refine ⟨h.sound.with_journal ?_ ?_ ?_ ?_ (fun hphase => absurd hphase hrolled) hagreed, h.synced, h.copied, b, rfl, hspec⟩
  · rw [hspec, hvalid]
  · rw [hspec]
    exact h.sound.known b₀ hb₀
  · rw [hspec]
    exact h.sound.between b₀ hb₀
  · rw [hspec]
    exact happlied

/-- A target gets what was approved for it. -/
theorem Running.write (h : Running base spec s) {b : Body} (hb : s.journal = some b) (hphase : b.phase = .applying)
    {key : String} (hkey : key ∈ targets) {raw : Bytes} (hraw : sha256 raw = (spec key).after) :
    Running base spec (s.put key (some raw)) := by
  obtain ⟨b₀, hb₀, hspec⟩ := h.journal
  obtain rfl := Option.some.inj (hb.symm.trans hb₀)
  refine ⟨⟨fun hnone => ?_, h.sound.valid, h.sound.known, fun b' hb' key' => ?_, fun key' hkey' => ⟨h.synced, ?_⟩,
    fun b' hb' hph => ?_, fun b' hb' hph => ?_, h.sound.agreed⟩, h.synced, h.copied, h.journal⟩
  · exact absurd (hb.symm.trans hnone) (Option.some_ne_none _)
  · obtain rfl := Option.some.inj (hb.symm.trans hb')
    by_cases hne : key' = key
    · subst hne
      refine Or.inr ⟨hkey, ?_⟩
      rw [Disk.put_self, digestOf, Option.map_some, hraw, hspec]
    · rw [s.put_ne _ hne]
      exact h.sound.between b hb key'
  · by_cases hne : key' = key
    · subst hne
      exact h.copied key' hkey
    · rw [s.put_ne _ hne] at hkey'
      exact (h.sound.copied key' hkey').2
  · obtain rfl := Option.some.inj (hb.symm.trans hb')
    rw [hphase] at hph
    cases hph
  · obtain rfl := Option.some.inj (hb.symm.trans hb')
    rw [hphase] at hph
    cases hph

theorem stays_orInterrupt {β : Type} {b : Body} {p : Prog β} {k : β → Prog α} (hspec : b.spec = spec)
    (hvalid : manifestHash spec = b.manifest)
    (h : p.Stays (Running base spec) (fun a s => (k a).Stays (Running base spec) post s) s) :
    (orInterrupt b p >>= k).Stays (Running base spec) post s := by
  rw [orInterrupt, bind_assoc]
  refine stays_attempt h fun e s' hs' => ?_
  have hsave : Running base spec (s'.enter { b with phase := .interrupted }) :=
    hs'.save hspec hvalid Phase.noConfusion Phase.noConfusion Phase.noConfusion
  simp only [bind_assoc]
  exact stays_save hs' hsave hsave

/-- The digests that are there stay there. -/
def Keeps (spec : Spec) (s s' : Disk) : Prop :=
  ∀ key, digestOf (s.target key) = some (spec key).after → digestOf (s'.target key) = some (spec key).after

theorem stays_replacements {artifacts : String → Bytes} {keys : List String} {b : Body}
    (hs : Running base spec s) (hkeys : ∀ key ∈ keys, key ∈ targets)
    (hfits : ∀ key ∈ targets, sha256 (artifacts key) = (spec key).after)
    (hspec : b.spec = spec) (hvalid : manifestHash spec = b.manifest) (hphase : b.phase = .applying) :
    (replacements spec artifacts b keys).Stays (Running base spec) (fun b' s' =>
      b'.spec = spec ∧ manifestHash spec = b'.manifest ∧ Keeps spec s s' ∧
        ∀ key ∈ keys, digestOf (s'.target key) = some (spec key).after) s := by
  induction keys generalizing b s with
  | nil => exact stays_pure hs ⟨hspec, hvalid, fun key h => h, fun key hkey => absurd hkey List.not_mem_nil⟩
  | cons key keys ih =>
    have hkey := hkeys key List.mem_cons_self
    have hwriting : Running base spec (s.enter (b.mark key .writing)) := by
      refine hs.save hspec hvalid ?_ ?_ ?_ <;> rw [Body.mark_phase, hphase] <;> exact Phase.noConfusion
    have hdone : Running base spec ((s.enter (b.mark key .writing)).put key (some (artifacts key))) :=
      hwriting.write rfl hphase hkey (hfits key hkey)
    have hwritten : Running base spec (((s.enter (b.mark key .writing)).put key (some (artifacts key))).enter
      ((b.mark key .writing).mark key .written)) := by
      refine hdone.save hspec hvalid ?_ ?_ ?_ <;> rw [Body.mark_phase, Body.mark_phase, hphase] <;>
        exact Phase.noConfusion
    have hkeeps : Keeps spec s (((s.enter (b.mark key .writing)).put key (some (artifacts key))).enter
      ((b.mark key .writing).mark key .written)) := fun key' hkey' => by
      by_cases hne : key' = key
      · subst hne
        rw [Disk.enter_target, Disk.put_self, digestOf, Option.map_some, hfits key' hkey]
      · rwa [Disk.enter_target, Disk.put_ne _ _ hne]
    rw [replacements]
    refine stays_orInterrupt hspec hvalid (stays_save hs hwriting (stays_replace hwriting fun _ => ⟨hdone, ?_⟩))
    refine stays_current hdone ?_
    rw [← bind_pure (require _ _)]
    refine stays_require hdone fun _ => stays_pure hdone (stays_orInterrupt hspec hvalid ?_)
    rw [← bind_pure (save _)]
    refine stays_save hdone hwritten (stays_pure hwritten ?_)
    have hrest := ih (b := (b.mark key .writing).mark key .written) hwritten
      (fun key' hkey' => hkeys key' (List.mem_cons_of_mem _ hkey')) hspec hvalid hphase
    refine hrest.mono (fun _ h => h) ?_
    rintro b' s' - ⟨hspec', hvalid', hkeeps', hall⟩
    refine ⟨hspec', hvalid', fun key' hkey' => hkeeps' key' (hkeeps key' hkey'), fun key' hkey' => ?_⟩
    rcases List.mem_cons.1 hkey' with rfl | hkey'
    · refine hkeeps' key' ?_
      rw [Disk.enter_target, Disk.put_self, digestOf, Option.map_some, hfits key' hkey]
    · exact hall key' hkey'

/-! ## Deployments -/

theorem stays_applyApproved {approval : Hex 64} {artifacts : String → Bytes} (hs : Sound base s) :
    (applyApproved approval spec artifacts).Stays (Sound base) (fun _ _ => True) s := by
  rw [applyApproved]
  refine stays_require hs fun hmanifest => stays_require hs fun hfits => ?_
  refine stays_load hs (fun hnone => ?_) fun b hb _ _ => ?_
  · have htarget := hs.untouched hnone
    simp only [preflight, bind_assoc]
    refine stays_require hs fun _ => stays_require hs fun _ => stays_compareAll hs fun hcompare => ?_
    have hknown : ∀ key ∈ targets, digestOf (base key) = (spec key).before := htarget ▸ hcompare
    refine stays_load hs (fun _ => stays_require hs fun _ => ?_) fun b hb _ _ => ?_
    · have hprepared : Sound base (s.enter (prepared approval spec)) :=
        hs.with_journal hmanifest hknown (fun key => Or.inl (congrFun htarget key)) Phase.noConfusion
          Phase.noConfusion Phase.noConfusion
      refine stays_save hs hprepared (stays_copies hprepared htarget fun s₁ hs₁ hcopied => ?_)
      have hrunning : Running base spec { s₁ with synced := true } :=
        ⟨hs₁.sound.with_synced, rfl, hcopied, prepared approval spec, hs₁.journal, rfl⟩
      rw [sync, bind_assoc]
      refine stays_fallible hs₁.sound ⟨hs₁.sound, ?_⟩
      refine @Stays.mono _ _ _ _ (Running base spec) (fun _ _ => True) _ _ _ _ ?_ (fun _ h => h.sound) fun _ _ _ h => h
      refine stays_bind (stays_pure hrunning (stays_bind ((stays_replacements hrunning (fun key hkey => hkey)
        (fun key hkey => (hfits key hkey).2) rfl hmanifest rfl).mono (fun _ h => h) ?_)))
      rintro b s₂ hs₂ ⟨hspec, hvalid, -, hall⟩
      have hdone : Running base spec (s₂.enter { b with phase := .applied }) :=
        hs₂.save hspec hvalid (fun _ => hall) Phase.noConfusion Phase.noConfusion
      rw [← bind_pure (orInterrupt _ _)]
      exact stays_orInterrupt hspec hvalid (stays_save hs₂ hdone (stays_status hdone fun o => stays_pure hdone trivial))
    · exact stays_require hs fun hnone' => absurd hnone' Bool.false_ne_true
  · exact stays_require hs fun _ => stays_status hs fun _ => trivial

/-! ## Rollbacks -/

/-- A rollback that is going on. -/
structure Restoring (base : String → Option Bytes) (spec : Spec) (s : Disk) : Prop where
  sound : Sound base s
  journal : ∃ b, s.journal = some b ∧ b.spec = spec ∧ b.phase = .rollingBack

theorem Restoring.save (h : Restoring base spec s) {b : Body} (hspec : b.spec = spec)
    (hvalid : manifestHash spec = b.manifest) (hphase : b.phase = .rollingBack) :
    Restoring base spec (s.enter b) := by
  obtain ⟨b₀, hb₀, rfl, -⟩ := h.journal
  refine ⟨h.sound.with_journal ?_ ?_ ?_ ?_ ?_ ?_, b, rfl, hspec, hphase⟩
  · rw [hspec, hvalid]
  · rw [hspec]
    exact h.sound.known b₀ hb₀
  · rw [hspec]
    exact h.sound.between b₀ hb₀
  · rw [hphase]
    exact Phase.noConfusion
  · rw [hphase]
    exact Phase.noConfusion
  · rw [hphase]
    exact Phase.noConfusion

/-- A target gets back what it was. -/
theorem Restoring.put (h : Restoring base spec s) (key : String) : Restoring base spec (s.put key (base key)) := by
  obtain ⟨b, hb, hspec, hphase⟩ := h.journal
  refine ⟨⟨fun hnone => ?_, h.sound.valid, h.sound.known, fun b' hb' key' => ?_, fun key' hkey' => ?_,
    fun b' hb' hph => ?_, fun b' hb' hph => ?_, h.sound.agreed⟩, b, hb, hspec, hphase⟩
  · exact absurd (hb.symm.trans hnone) (Option.some_ne_none _)
  · by_cases hne : key' = key
    · subst hne
      exact Or.inl (Disk.put_self ..)
    · rw [s.put_ne _ hne]
      exact h.sound.between b' hb' key'
  · by_cases hne : key' = key
    · subst hne
      exact absurd (Disk.put_self ..) hkey'
    · rw [s.put_ne _ hne] at hkey'
      exact h.sound.copied key' hkey'
  · obtain rfl := Option.some.inj (hb.symm.trans hb')
    rw [hphase] at hph
    cases hph
  · obtain rfl := Option.some.inj (hb.symm.trans hb')
    rw [hphase] at hph
    cases hph

/-- What a target that is not what it was looks like. -/
theorem Restoring.changed (h : Restoring base spec s) {key : String} (hkey : key ∈ targets)
    (hne : digestOf (s.target key) ≠ (spec key).before) : digestOf (base key) = (spec key).before ∧
      digestOf (s.target key) = some (spec key).after ∧ ∀ raw ∈ base key, s.backup key = some raw := by
  obtain ⟨b, hb, rfl, -⟩ := h.journal
  have hknown := h.sound.known b hb key hkey
  have hchanged : s.target key ≠ base key := fun hsame => hne (hsame ▸ hknown)
  refine ⟨hknown, ?_, (h.sound.copied key hchanged).2⟩
  rcases h.sound.between b hb key with hsame | ⟨-, hafter⟩
  · exact absurd hsame hchanged
  · exact hafter

/-- The targets that are what they were stay so. -/
def Restores (base : String → Option Bytes) (s s' : Disk) : Prop :=
  ∀ key, s'.target key = s.target key ∨ s'.target key = base key

theorem stays_restoreTarget {key : String} {k : Bool → Prog α} (hs : Restoring base spec s) (hkey : key ∈ targets)
    (h : ∀ s', Restoring base spec s' → Restores base s s' →
      digestOf (s'.target key) = digestOf (base key) → (k true).Stays (Restoring base spec) post s') :
    (restoreTarget key (spec key) >>= k).Stays (Restoring base spec) post s := by
  have hrefl : Restores base s s := fun _ => Or.inl rfl
  have hput : Restores base s (s.put key (base key)) := fun key' => by
    by_cases hne : key' = key
    · subst hne
      exact Or.inr (Disk.put_self ..)
    · exact Or.inl (s.put_ne _ hne)
  have hdone := h _ (hs.put key) hput (by rw [Disk.put_self])
  rw [restoreTarget, bind_assoc]
  refine stays_current hs ?_
  by_cases hbefore : digestOf (s.target key) = (spec key).before
  · rw [if_pos hbefore]
    obtain ⟨b, hb, rfl, -⟩ := hs.journal
    exact h s hs hrefl (hbefore.trans (hs.sound.known b hb key hkey).symm)
  · obtain ⟨hknown, hafter, hcopy⟩ := hs.changed hkey hbefore
    rw [if_neg hbefore, if_neg (not_not.2 hafter)]
    cases hrow : (spec key).before with
    | none =>
      have hbase : base key = none := Option.map_eq_none_iff.1 (hknown.trans hrow)
      simp only [bind_assoc]
      refine stays_current hs (stays_require hs fun _ => ?_)
      rw [hbase] at hdone
      exact stays_write hs (hbase ▸ hs.put key) hdone
    | some before =>
      obtain ⟨raw, hbase, hdigest⟩ := Option.map_eq_some_iff.1 (hknown.trans hrow)
      simp only [bind_assoc]
      refine stays_fallible hs (stays_get hs ?_)
      rw [hcopy raw hbase]
      simp only [bind_assoc]
      rw [hbase] at hdone
      exact stays_require hs fun _ => stays_replace hs fun _ => ⟨hbase ▸ hs.put key, hdone⟩

theorem stays_restoreTargets {keys : List String} {b : Body} {conflict : Bool} (hs : Restoring base spec s)
    (hkeys : ∀ key ∈ keys, key ∈ targets) (hspec : b.spec = spec) (hvalid : manifestHash spec = b.manifest)
    (hphase : b.phase = .rollingBack) :
    (restoreTargets b conflict keys).Stays (Restoring base spec) (fun r s' => r.1.spec = spec ∧
      manifestHash spec = r.1.manifest ∧ r.2 = conflict ∧ Restores base s s' ∧
        ∀ key ∈ keys, digestOf (s'.target key) = digestOf (base key)) s := by
  induction keys generalizing b conflict s with
  | nil => exact stays_pure hs ⟨hspec, hvalid, rfl, fun _ => Or.inl rfl, fun key hkey => absurd hkey List.not_mem_nil⟩
  | cons key keys ih =>
    have hkey := hkeys key List.mem_cons_self
    subst hspec
    rw [restoreTargets]
    refine stays_restoreTarget hs hkey fun s₁ hs₁ hrestores hdigest => ?_
    have hsaved : Restoring base b.spec (s₁.enter (b.mark key .restored)) := hs₁.save rfl hvalid hphase
    refine stays_save hs₁ hsaved ?_
    have hrest := @ih _ (b.mark key .restored) (conflict || !true) hsaved
      (fun key' hkey' => hkeys key' (List.mem_cons_of_mem _ hkey')) rfl hvalid hphase
    refine hrest.mono (fun _ h => h) ?_
    rintro ⟨b', conflict'⟩ s' - ⟨hspec', hvalid', hconflict, hrestores', hall⟩
    refine ⟨hspec', hvalid', hconflict.trans (Bool.or_false conflict), fun key' => ?_, fun key' hkey' => ?_⟩
    · rcases hrestores' key' with hsame | hbase
      · rcases hrestores key' with hsame' | hbase
        · exact Or.inl (hsame.trans hsame')
        · exact Or.inr (hsame.trans hbase)
      · exact Or.inr hbase
    · rcases List.mem_cons.1 hkey' with rfl | hkey'
      · rcases hrestores' key' with hsame | hbase
        · rw [hsame]
          exact hdigest
        · rw [hbase]
      · exact hall key' hkey'

/-- What a rollback leaves when it returns. -/
structure RolledBack (base : String → Option Bytes) (spec : Spec) (s : Disk) : Prop where
  phase : ∃ b, s.journal = some b ∧ b.spec = spec ∧ b.phase = .rolledBack
  digests : ∀ key ∈ targets, digestOf (s.target key) = digestOf (base key)

theorem stays_rollback {approval : Hex 64} {b : Body} (hs : Sound base s) (hb : s.journal = some b) :
    (rollbackAfterQuiescence approval).Stays (Sound base) (fun _ => RolledBack base b.spec) s := by
  rw [rollbackAfterQuiescence]
  refine stays_load hs (fun hnone => stays_fail hs) fun b' hb' hmanifest hvalid => ?_
  obtain rfl := Option.some.inj (hb.symm.trans hb')
  have hmanifest' : manifestHash b.spec = b.manifest := hvalid.trans hmanifest.symm
  by_cases hphase : b.phase = .rolledBack
  · simp only [if_pos hphase]
    exact stays_status hs fun _ => ⟨⟨b, hb, rfl, hphase⟩, hs.rolledBack b hb hphase⟩
  · have hrolling : Restoring base b.spec (s.enter { b with phase := .rollingBack }) :=
      ⟨hs.with_journal hmanifest' (hs.known b hb) (hs.between b hb) Phase.noConfusion Phase.noConfusion
        Phase.noConfusion, _, rfl, rfl, rfl⟩
    simp only [if_neg hphase]
    refine stays_save hs hrolling.sound (stays_bind ?_)
    have htargets : ∀ key ∈ sortedTargets, key ∈ targets := fun key hkey => mem_sortedTargets.1 hkey
    refine (stays_restoreTargets (b := { b with phase := .rollingBack }) hrolling htargets rfl hmanifest' rfl).mono
      (fun _ h => h.sound) ?_
    rintro ⟨b', conflict⟩ s' hs' ⟨hspec, hvalid', rfl, -, hall⟩
    have hdigests : ∀ key ∈ targets, digestOf (s'.target key) = digestOf (base key) := fun key hkey =>
      hall key (mem_sortedTargets.2 hkey)
    obtain ⟨b₀, hb₀, hspec₀, -⟩ := hs'.journal
    have hrolled : Sound base (s'.enter { b' with phase := .rolledBack }) := by
      refine hs'.sound.with_journal ?_ ?_ ?_ Phase.noConfusion (fun _ => hdigests) Phase.noConfusion
      · rw [hspec, hvalid']
      · rw [hspec, ← hspec₀]
        exact hs'.sound.known b₀ hb₀
      · rw [hspec, ← hspec₀]
        exact hs'.sound.between b₀ hb₀
    exact stays_save hs'.sound hrolled (stays_status hrolled fun _ => ⟨⟨_, rfl, hspec, rfl⟩, hdigests⟩)

end
end SmartHome.DeploymentFiles
