/-
  Deployments and rollbacks in which nothing raises return.
-/
import SmartHome.DeploymentFiles.Safety

namespace SmartHome.DeploymentFiles

open Verif Program Mqtt FileTransaction

section
variable [Sha256] {α : Type} {post : α → Disk → Prop} {s : Disk} {base : String → Option Bytes} {spec : Spec}

/-! ## Rollbacks -/

theorem ends_restoreTarget {key : String} (hs : Restoring base spec s) (hkey : key ∈ targets) :
    (restoreTarget key (spec key)).Ends succeeding (fun _ _ => True) s := by
  rw [restoreTarget]
  refine ends_current ?_
  by_cases hbefore : digestOf (s.target key) = (spec key).before
  · rw [if_pos hbefore]
    exact True.intro
  · obtain ⟨hknown, hafter, hcopy⟩ := hs.changed hkey hbefore
    rw [if_neg hbefore, if_neg (not_not.2 hafter)]
    cases hrow : (spec key).before with
    | none =>
      refine ends_current (ends_require hafter ?_)
      exact True.intro
    | some before =>
      obtain ⟨raw, hbase, hdigest⟩ := Option.map_eq_some_iff.1 (hknown.trans hrow)
      refine ends_fallible (ends_get ?_)
      rw [hcopy raw hbase]
      refine ends_require hdigest ?_
      rw [replace, bind_assoc]
      refine ends_current ?_
      rw [bind_assoc]
      refine ends_require hafter ?_
      rw [bind_assoc]
      refine ends_current ?_
      rw [bind_assoc]
      refine ends_require hafter ?_
      exact True.intro

theorem ends_restoreTargets {keys : List String} {b : Body} {conflict : Bool} (hs : Restoring base spec s)
    (hkeys : ∀ key ∈ keys, key ∈ targets) (hspec : b.spec = spec) (hvalid : manifestHash spec = b.manifest)
    (hphase : b.phase = .rollingBack) :
    (restoreTargets b conflict keys).Ends succeeding (fun _ _ => True) s := by
  induction keys generalizing b conflict s with
  | nil => exact True.intro
  | cons key keys ih =>
    have hkey := hkeys key List.mem_cons_self
    subst hspec
    have hstays : (restoreTarget key (b.spec key)).Stays (Restoring base b.spec)
        (fun _ s' => Restoring base b.spec s') s := by
      rw [← bind_pure (restoreTarget _ _)]
      exact stays_restoreTarget hs hkey fun s' hs' _ _ => stays_pure hs' hs'
    rw [restoreTargets]
    refine ends_bind ((ends_restoreTarget hs hkey).of_stays (hstays.mono (fun _ h => h) fun restored s₁ _ hs₁ => ?_))
    exact ends_save (ih (hs₁.save rfl hvalid hphase) (fun key' hkey' => hkeys key' (List.mem_cons_of_mem _ hkey')) rfl
      hvalid hphase)

theorem ends_rollback {approval : Hex 64} {b : Body} (hs : Sound base s) (hb : s.journal = some b)
    (hmanifest : b.manifest = approval) :
    (rollbackAfterQuiescence approval).Ends succeeding (fun _ _ => True) s := by
  have hvalid := hs.valid b hb
  rw [rollbackAfterQuiescence]
  refine ends_load hb hmanifest (hvalid.trans hmanifest) ?_
  by_cases hphase : b.phase = .rolledBack
  · simp only [if_pos hphase]
    exact ends_status hb hmanifest (hvalid.trans hmanifest) fun _ => True.intro
  · simp only [if_neg hphase]
    have hrolling : Restoring base b.spec (s.enter { b with phase := .rollingBack }) :=
      ⟨hs.with_journal hvalid (hs.known b hb) (hs.between b hb) Phase.noConfusion Phase.noConfusion
        Phase.noConfusion, _, rfl, rfl, rfl⟩
    have htargets : ∀ key ∈ sortedTargets, key ∈ targets := fun key hkey => mem_sortedTargets.1 hkey
    refine ends_save (ends_bind ?_)
    refine ((ends_restoreTargets (b := { b with phase := .rollingBack }) hrolling htargets rfl hvalid rfl).of_stays
      (stays_restoreTargets (b := { b with phase := .rollingBack }) hrolling htargets rfl hvalid rfl)).mono ?_
    rintro ⟨b', conflict⟩ s' ⟨hspec, hvalid', -, -, -⟩
    refine ends_save (ends_status (b := { b' with phase := if conflict then .rollbackConflict else .rolledBack }) rfl ?_ ?_
      fun _ => True.intro)
    · exact hvalid'.symm.trans (hvalid.trans hmanifest)
    · exact (congrArg manifestHash hspec).trans (hvalid.trans hmanifest)

/-! ## Deployments -/

/-- Copies change neither the targets nor the journal. -/
theorem ends_copies {keys : List String} {k : Unit → Prog α} (hkeys : keys.Nodup)
    (hd : ∀ key ∈ keys, digestOf (s.target key) = (spec key).before) (hnone : ∀ key ∈ keys, s.backup key = none)
    (h : ∀ s', s'.target = s.target → (k ()).Ends succeeding post s') :
    (copies spec keys >>= k).Ends succeeding post s := by
  induction keys generalizing s with
  | nil => exact h s rfl
  | cons key keys ih =>
    obtain ⟨hkey, hkeys⟩ := List.nodup_cons.1 hkeys
    have hrest : ∀ key' ∈ keys, key' ≠ key := fun key' hkey' => ne_of_mem_of_not_mem hkey' hkey
    rw [copies, bind_assoc]
    refine ends_current ?_
    rw [bind_assoc]
    refine ends_require (hd key List.mem_cons_self) ?_
    cases hraw : s.target key with
    | none =>
      exact ih hkeys (fun key' hkey' => hd key' (List.mem_cons_of_mem _ hkey'))
        (fun key' hkey' => hnone key' (List.mem_cons_of_mem _ hkey')) h
    | some raw =>
      simp only [bind_assoc]
      refine ends_copy (hnone key List.mem_cons_self) (ih hkeys ?_ ?_ h)
      · exact fun key' hkey' => hd key' (List.mem_cons_of_mem _ hkey')
      · intro key' hkey'
        rw [Disk.keep_ne _ _ (hrest key' hkey'), Disk.keep_ne _ _ (hrest key' hkey')]
        exact hnone key' (List.mem_cons_of_mem _ hkey')

theorem ends_replacements {artifacts : String → Bytes} {keys : List String} {b : Body} (hkeys : keys.Nodup)
    (hfits : ∀ key ∈ keys, sha256 (artifacts key) = (spec key).after)
    (hd : ∀ key ∈ keys, digestOf (s.target key) = (spec key).before) :
    (replacements spec artifacts b keys).Ends succeeding (fun b' s' => b'.manifest = b.manifest ∧ b'.spec = b.spec ∧
      (∀ key ∈ keys, s'.target key = some (artifacts key)) ∧ ∀ key ∉ keys, s'.target key = s.target key) s := by
  induction keys generalizing b s with
  | nil => exact ⟨rfl, rfl, fun key hkey => absurd hkey List.not_mem_nil, fun _ _ => rfl⟩
  | cons key keys ih =>
    obtain ⟨hkey, hkeys⟩ := List.nodup_cons.1 hkeys
    have hafter : digestOf (((s.enter (b.mark key .writing)).put key (some (artifacts key))).target key) =
        some (spec key).after := by
      rw [Disk.put_self, digestOf, Option.map_some, hfits key List.mem_cons_self]
    rw [replacements]
    refine ends_orInterrupt (ends_save (ends_replace (hd key List.mem_cons_self) (ends_current ?_)))
    rw [← bind_pure (require _ _)]
    refine ends_require hafter (ends_orInterrupt ?_)
    rw [← bind_pure (save _)]
    refine ends_save ((ih hkeys ?_ ?_).mono ?_)
    · exact fun key' hkey' => hfits key' (List.mem_cons_of_mem _ hkey')
    · intro key' hkey'
      rw [Disk.enter_target, Disk.put_ne _ _ (ne_of_mem_of_not_mem hkey' hkey)]
      exact hd key' (List.mem_cons_of_mem _ hkey')
    · rintro b' s' ⟨hmanifest, hspec, hall, hother⟩
      refine ⟨hmanifest, hspec, fun key' hkey' => ?_, fun key' hkey' => ?_⟩
      · rcases List.mem_cons.1 hkey' with rfl | hkey'
        · rw [hother key' hkey, Disk.enter_target, Disk.put_self]
        · exact hall key' hkey'
      · rw [List.mem_cons, not_or] at hkey'
        rw [hother key' hkey'.2, Disk.enter_target, Disk.put_ne _ _ hkey'.1, Disk.enter_target]

omit [Sha256] in
theorem nodup_targets : targets.Nodup := by decide

theorem ends_applyApproved {approval : Hex 64} {artifacts : String → Bytes} (hj : s.journal = none)
    (hnone : ∀ key ∈ targets, s.backup key = none) (hmanifest : manifestHash spec = approval)
    (hfits : Fits spec artifacts) (hd : ∀ key ∈ targets, digestOf (s.target key) = (spec key).before) :
    (applyApproved approval spec artifacts).Ends succeeding (fun _ s' =>
      (∃ b, s'.journal = some b ∧ b.manifest = approval ∧ b.spec = spec ∧ b.phase = .applied) ∧
        ∀ key ∈ targets, s'.target key = some (artifacts key)) s := by
  rw [applyApproved]
  refine ends_require hmanifest (ends_require hfits (ends_load_none hj ?_))
  simp only [preflight, bind_assoc]
  refine ends_require hmanifest (ends_require hfits (ends_compareAll hd (ends_load_none hj (ends_require rfl ?_))))
  refine ends_save (ends_copies nodup_targets hd hnone fun s₁ hs₁ => ?_)
  refine ends_sync (ends_bind ((ends_replacements nodup_targets (fun key hkey => (hfits key hkey).2)
    fun key hkey => ?_).mono ?_))
  · exact (congrFun hs₁ key).symm ▸ hd key hkey
  · rintro b s₂ ⟨hb, hspec, hall, -⟩
    rw [← bind_pure (orInterrupt _ _)]
    refine ends_orInterrupt (ends_save (ends_status (b := { b with phase := .applied }) rfl hb ?_ fun o => ?_))
    · exact (congrArg manifestHash hspec).trans hmanifest
    · exact ends_pure ⟨⟨_, rfl, hb, hspec, rfl⟩, hall⟩

/-- **A deployment to files that are what its manifest says returns** where nothing raises, with every
    artifact in its place. -/
theorem applyApproved_returns {approval : Hex 64} {artifacts : String → Bytes} (hj : s.journal = none)
    (hnone : ∀ key ∈ targets, s.backup key = none) (hmanifest : manifestHash spec = approval)
    (hfits : Fits spec artifacts) (hd : ∀ key ∈ targets, digestOf (s.target key) = (spec key).before) :
    ∃ o w, Returns (applyApproved approval spec artifacts) ⟨s, []⟩ o w ∧
      (∃ b, w.state.journal = some b ∧ b.manifest = approval ∧ b.spec = spec ∧ b.phase = .applied) ∧
        ∀ key ∈ targets, w.state.target key = some (artifacts key) :=
  (ends_applyApproved hj hnone hmanifest hfits hd).returns ⟨s, []⟩ rfl

end
end SmartHome.DeploymentFiles
