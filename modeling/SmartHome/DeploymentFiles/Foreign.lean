/-
  What deployments and rollbacks do to files that others have changed meanwhile, from any disk.
-/
import SmartHome.DeploymentFiles.Steps

namespace SmartHome.DeploymentFiles

open Verif Program Mqtt FileTransaction

section
variable [Sha256] {α : Type} {P : Disk → Prop} {post : α → Disk → Prop} {s₀ s : Disk} {spec : Spec}
  {artifacts : String → Bytes} {approval : Hex 64}

/-! ## Deployments -/

/-- What a deployment may have made of the disk `s₀`. -/
structure Deployed (spec : Spec) (artifacts : String → Bytes) (s₀ s : Disk) : Prop where
  target : ∀ key, s.target key = s₀.target key ∨
    key ∈ targets ∧ digestOf (s₀.target key) = (spec key).before ∧ s.target key = some (artifacts key)
  backup : ∀ key, s₀.backup key ≠ none → s.backup key = s₀.backup key

theorem Deployed.refl : Deployed spec artifacts s s := ⟨fun _ => Or.inl rfl, fun _ _ => rfl⟩

theorem Deployed.enter (h : Deployed spec artifacts s₀ s) (b : Body) : Deployed spec artifacts s₀ (s.enter b) :=
  ⟨h.target, h.backup⟩

theorem Deployed.keep (h : Deployed spec artifacts s₀ s) {key : String} (hnone : s₀.backup key = none)
    (raw : Option Bytes) : Deployed spec artifacts s₀ (s.keep key raw) where
  target := h.target
  backup key' hkey' := by
    have hne : key' ≠ key := by
      rintro rfl
      exact hkey' hnone
    rw [s.keep_ne raw hne]
    exact h.backup key' hkey'

/-- A target is replaced only if its digest is the one before the deployment. -/
theorem Deployed.put (h : Deployed spec artifacts s₀ s) {key : String} (hkey : key ∈ targets)
    (hd : digestOf (s.target key) = (spec key).before) :
    Deployed spec artifacts s₀ (s.put key (some (artifacts key))) where
  target key' := by
    by_cases hne : key' = key
    · subst hne
      refine Or.inr ⟨hkey, ?_, s.put_self ..⟩
      rcases h.target key' with hsame | ⟨-, hbefore, -⟩
      · rwa [← hsame]
      · exact hbefore
    · rw [s.put_ne _ hne]
      exact h.target key'
  backup := h.backup

theorem deployed_copies {keys : List String} {k : Unit → Prog α} (hs : Deployed spec artifacts s₀ s)
    (h : ∀ s', Deployed spec artifacts s₀ s' → (k ()).Stays (Deployed spec artifacts s₀) post s') :
    (copies spec keys >>= k).Stays (Deployed spec artifacts s₀) post s := by
  induction keys generalizing s with
  | nil => exact h s hs
  | cons key keys ih =>
    rw [copies, bind_assoc]
    refine stays_current hs ?_
    rw [bind_assoc]
    refine stays_require hs fun _ => ?_
    cases s.target key with
    | none => exact ih hs
    | some raw =>
      simp only [copy, bind_assoc]
      refine stays_fallible hs (stays_transaction hs fun s₁ hs₁ => ?_)
      split_ifs at hs₁ with hnone
      obtain rfl := Except.ok.inj hs₁
      have hnone₀ : s₀.backup key = none := by
        by_contra hsome
        exact hsome (hs.backup key hsome ▸ hnone)
      have hmade := hs.keep hnone₀ (some [])
      have hwritten := hmade.keep hnone₀ (some raw)
      rw [← bind_assoc]
      exact stays_atomic hmade hwritten (ih hwritten)

theorem deployed_orInterrupt {β : Type} {b : Body} {p : Prog β} {k : β → Prog α}
    (h : p.Stays (Deployed spec artifacts s₀) (fun a s => (k a).Stays (Deployed spec artifacts s₀) post s) s) :
    (orInterrupt b p >>= k).Stays (Deployed spec artifacts s₀) post s := by
  rw [orInterrupt, bind_assoc]
  refine stays_attempt h fun e s' hs' => ?_
  simp only [bind_assoc]
  exact stays_save hs' (hs'.enter _) (hs'.enter _)

theorem deployed_replacements {keys : List String} {b : Body} (hs : Deployed spec artifacts s₀ s)
    (hkeys : ∀ key ∈ keys, key ∈ targets) :
    (replacements spec artifacts b keys).Stays (Deployed spec artifacts s₀) (fun _ => Deployed spec artifacts s₀) s := by
  induction keys generalizing b s with
  | nil => exact stays_pure hs hs
  | cons key keys ih =>
    have hwriting := hs.enter (b.mark key .writing)
    rw [replacements]
    refine deployed_orInterrupt (stays_save hs hwriting (stays_replace hwriting fun hd => ?_))
    have hdone := hwriting.put (hkeys key List.mem_cons_self) hd
    have hwritten := hdone.enter ((b.mark key .writing).mark key .written)
    refine ⟨hdone, stays_current hdone ?_⟩
    rw [← bind_pure (require _ _)]
    refine stays_require hdone fun _ => stays_pure hdone (deployed_orInterrupt ?_)
    rw [← bind_pure (save _)]
    refine stays_save hdone hwritten (stays_pure hwritten ?_)
    exact ih hwritten fun key' hkey' => hkeys key' (List.mem_cons_of_mem _ hkey')

theorem deployed_applyApproved :
    (applyApproved approval spec artifacts).Stays (Deployed spec artifacts s) (fun _ _ => True) s := by
  have hs : Deployed spec artifacts s s := .refl
  rw [applyApproved]
  refine stays_require hs fun _ => stays_require hs fun _ => stays_load hs (fun _ => ?_) fun b _ _ _ =>
    stays_require hs fun _ => stays_status hs fun _ => trivial
  simp only [preflight, bind_assoc]
  refine stays_require hs fun _ => stays_require hs fun _ => stays_compareAll hs fun _ => ?_
  refine stays_load hs (fun _ => ?_) fun b _ _ _ => ?_
  · refine stays_require hs fun _ => stays_save hs (hs.enter _) (deployed_copies (hs.enter _) fun s₁ hs₁ => ?_)
    have hsynced : Deployed spec artifacts s { s₁ with synced := true } := ⟨hs₁.target, hs₁.backup⟩
    rw [sync, bind_assoc]
    refine stays_fallible hs₁ ⟨hs₁, stays_bind (stays_pure hsynced (stays_bind
      ((deployed_replacements hsynced fun key hkey => hkey).mono (fun _ h => h) fun b s₂ hs₂ _ => ?_)))⟩
    have happlied := hs₂.enter { b with phase := .applied }
    rw [← bind_pure (orInterrupt _ _)]
    exact deployed_orInterrupt (stays_save hs₂ happlied (stays_status happlied fun o => stays_pure happlied trivial))
  · exact stays_require hs fun hnone => absurd hnone Bool.false_ne_true

/-- A deployment changes nothing where there is a journal. -/
theorem unchanged_applyApproved (hj : s.journal ≠ none) :
    (applyApproved approval spec artifacts).Stays (· = s) (fun _ _ => True) s := by
  rw [applyApproved]
  refine stays_require rfl fun _ => stays_require rfl fun _ => stays_load rfl (fun hnone => absurd hnone hj) ?_
  exact fun b _ _ _ => stays_require rfl fun _ => stays_status rfl fun _ => trivial

/-! ## Rollbacks -/

/-- A target that is neither what it was nor what was approved. -/
def Foreign (spec : Spec) (s : Disk) (key : String) : Prop :=
  digestOf (s.target key) ≠ (spec key).before ∧ digestOf (s.target key) ≠ some (spec key).after

/-- What a rollback may have made of the disk `s₀`. -/
structure Restored (spec : Spec) (s₀ s : Disk) : Prop where
  target : ∀ key, s.target key = s₀.target key ∨ key ∈ targets ∧
    digestOf (s₀.target key) = some (spec key).after ∧ digestOf (s.target key) = (spec key).before
  backup : s.backup = s₀.backup

theorem Restored.refl : Restored spec s s := ⟨fun _ => Or.inl rfl, rfl⟩

theorem Restored.enter (h : Restored spec s₀ s) (b : Body) : Restored spec s₀ (s.enter b) := ⟨h.target, h.backup⟩

/-- A target is restored only if its digest is the one after the deployment. -/
theorem Restored.put (h : Restored spec s₀ s) {key : String} {raw : Option Bytes} (hkey : key ∈ targets)
    (hne : digestOf (s.target key) ≠ (spec key).before) (hd : digestOf (s.target key) = some (spec key).after)
    (hraw : digestOf raw = (spec key).before) : Restored spec s₀ (s.put key raw) where
  target key' := by
    by_cases hkey' : key' = key
    · subst hkey'
      rcases h.target key' with hsame | ⟨-, -, hbefore⟩
      · exact Or.inr ⟨hkey, hsame ▸ hd, (congrArg digestOf (s.put_self ..)).trans hraw⟩
      · exact absurd hbefore hne
    · rw [s.put_ne _ hkey']
      exact h.target key'
  backup := h.backup

theorem Restored.foreign (h : Restored spec s₀ s) {key : String} : Foreign spec s key ↔ Foreign spec s₀ key := by
  rcases h.target key with hsame | ⟨-, hafter, hbefore⟩
  · rw [Foreign, hsame, Foreign]
  · exact ⟨fun hf => absurd hbefore hf.1, fun hf => absurd hafter hf.2⟩

/-- What one target does to a rollback. -/
theorem restored_restoreTarget {key : String} {k : Bool → Prog α} (hs : Restored spec s₀ s) (hkey : key ∈ targets)
    (hforeign : Foreign spec s key → (k false).Stays (Restored spec s₀) post s)
    (h : ∀ s', Restored spec s₀ s' → (∀ key', key' ≠ key → s'.target key' = s.target key') → ¬ Foreign spec s key →
      digestOf (s'.target key) = (spec key).before → (k true).Stays (Restored spec s₀) post s') :
    (restoreTarget key (spec key) >>= k).Stays (Restored spec s₀) post s := by
  rw [restoreTarget, bind_assoc]
  refine stays_current hs ?_
  by_cases hbefore : digestOf (s.target key) = (spec key).before
  · rw [if_pos hbefore]
    exact h s hs (fun _ _ => rfl) (fun hf => hf.1 hbefore) hbefore
  · rw [if_neg hbefore]
    by_cases hafter : digestOf (s.target key) = some (spec key).after
    · rw [if_neg (not_not.2 hafter)]
      -- what is put there has the digest that was there before
      have hput : ∀ raw, digestOf raw = (spec key).before → Restored spec s₀ (s.put key raw) ∧
          (k true).Stays (Restored spec s₀) post (s.put key raw) := fun raw hraw => by
        have hrestored := hs.put hkey hbefore hafter hraw
        refine ⟨hrestored, h _ hrestored (fun key' hne => s.put_ne _ hne) (fun hf => hf.2 hafter) ?_⟩
        rwa [Disk.put_self]
      cases hrow : (spec key).before with
      | none =>
        simp only [bind_assoc]
        have hnone := hput none hrow.symm
        exact stays_current hs (stays_require hs fun _ => stays_write hs hnone.1 hnone.2)
      | some before =>
        simp only [bind_assoc]
        refine stays_fallible hs (stays_get hs ?_)
        cases s.backup key with
        | none => exact hs
        | some raw =>
          simp only [bind_assoc]
          refine stays_require hs fun hdigest => stays_replace hs fun _ => hput (some raw) ?_
          rw [hrow, digestOf, Option.map_some, hdigest]
    · rw [if_pos hafter]
      exact hforeign ⟨hbefore, hafter⟩

theorem restored_restoreTargets {keys : List String} {b : Body} {conflict : Bool} (hs : Restored spec s₀ s)
    (hkeys : ∀ key ∈ keys, key ∈ targets) (hspec : b.spec = spec) :
    (restoreTargets b conflict keys).Stays (Restored spec s₀) (fun r s' =>
      (r.2 = true ↔ conflict = true ∨ ∃ key ∈ keys, Foreign spec s₀ key) ∧
      (∀ key, digestOf (s.target key) = (spec key).before → digestOf (s'.target key) = (spec key).before) ∧
      ∀ key ∈ keys, ¬ Foreign spec s₀ key → digestOf (s'.target key) = (spec key).before) s := by
  induction keys generalizing b conflict s with
  | nil =>
    refine stays_pure hs ⟨?_, fun _ h => h, fun key hkey => absurd hkey List.not_mem_nil⟩
    simp only [List.not_mem_nil, false_and, exists_false, or_false]
  | cons key keys ih =>
    have hrest : ∀ key' ∈ keys, key' ∈ targets := fun key' hkey' => hkeys key' (List.mem_cons_of_mem _ hkey')
    subst hspec
    rw [restoreTargets]
    refine restored_restoreTarget hs (hkeys key List.mem_cons_self) (fun hforeign => ?_)
      fun s₁ hs₁ hother hforeign hbefore => ?_
    · have hforeign₀ := hs.foreign.1 hforeign
      refine stays_save hs (hs.enter _) ((@ih _ (b.mark key .conflict) (conflict || !false) (hs.enter _) hrest rfl).mono
        (fun _ h => h) ?_)
      rintro r s' hs' ⟨hconflict, hkept, hall⟩
      refine ⟨?_, hkept, fun key' hkey' hown => ?_⟩
      · rw [hconflict, Bool.not_false, Bool.or_true]
        exact ⟨fun _ => Or.inr ⟨key, List.mem_cons_self, hforeign₀⟩, fun _ => Or.inl rfl⟩
      · rcases List.mem_cons.1 hkey' with rfl | hkey'
        · exact absurd hforeign₀ hown
        · exact hall key' hkey' hown
    · have hown₀ : ¬ Foreign b.spec s₀ key := fun hf => hforeign (hs.foreign.2 hf)
      refine stays_save hs₁ (hs₁.enter _) ((@ih _ (b.mark key .restored) (conflict || !true) (hs₁.enter _) hrest rfl).mono
        (fun _ h => h) ?_)
      rintro r s' hs' ⟨hconflict, hkept, hall⟩
      refine ⟨?_, fun key' hkey' => hkept key' ?_, fun key' hkey' hown => ?_⟩
      · rw [hconflict, Bool.not_true, Bool.or_false]
        refine or_congr_right ⟨fun ⟨key', hkey', hf⟩ => ⟨key', List.mem_cons_of_mem _ hkey', hf⟩, ?_⟩
        rintro ⟨key', hkey', hf⟩
        rcases List.mem_cons.1 hkey' with rfl | hkey'
        · exact absurd hf hown₀
        · exact ⟨key', hkey', hf⟩
      · by_cases hne : key' = key
        · subst hne
          exact hbefore
        · rw [Disk.enter_target, hother key' hne]
          exact hkey'
      · rcases List.mem_cons.1 hkey' with rfl | hkey'
        · exact hkept key' hbefore
        · exact hall key' hkey' hown

/-- What a rollback that returns says of the disk `s₀`. -/
def Settled (spec : Spec) (s₀ s : Disk) : Prop :=
  (∃ b, s.journal = some b ∧ ((b.phase = .rollbackConflict ∧ ∃ key ∈ targets, Foreign spec s₀ key) ∨
    (b.phase = .rolledBack ∧ ∀ key ∈ targets, ¬ Foreign spec s₀ key))) ∧
  ∀ key ∈ targets, ¬ Foreign spec s₀ key → digestOf (s.target key) = (spec key).before

theorem restored_rollback {b : Body} (hb : s.journal = some b) :
    (rollbackAfterQuiescence approval).Stays (Restored b.spec s)
      (fun _ s' => b.phase ≠ .rolledBack → Settled b.spec s s') s := by
  have hs : Restored b.spec s s := .refl
  rw [rollbackAfterQuiescence]
  refine stays_load hs (fun hnone => stays_fail hs) fun b' hb' _ _ => ?_
  obtain rfl := Option.some.inj (hb.symm.trans hb')
  by_cases hphase : b.phase = .rolledBack
  · simp only [if_pos hphase]
    exact stays_status hs fun _ hne => absurd hphase hne
  · have hrolling := hs.enter { b with phase := .rollingBack }
    have htargets : ∀ key ∈ sortedTargets, key ∈ targets := fun key hkey => mem_sortedTargets.1 hkey
    simp only [if_neg hphase]
    refine stays_save hs hrolling (stays_bind ((@restored_restoreTargets _ s _ b.spec _ { b with phase := .rollingBack }
      false hrolling htargets rfl).mono (fun _ h => h) ?_))
    rintro ⟨b', conflict⟩ s' hs' ⟨hconflict, -, hall⟩
    refine stays_save hs' (hs'.enter _) (stays_status (hs'.enter _) fun _ _ => ⟨⟨_, rfl, ?_⟩, fun key hkey hown =>
      hall key (mem_sortedTargets.2 hkey) hown⟩)
    rw [Bool.false_eq_true, false_or] at hconflict
    cases conflict with
    | false =>
      refine Or.inr ⟨rfl, fun key hkey hf => Bool.false_ne_true (hconflict.2 ⟨key, mem_sortedTargets.2 hkey, hf⟩)⟩
    | true =>
      obtain ⟨key, hkey, hf⟩ := hconflict.1 rfl
      exact Or.inl ⟨rfl, key, mem_sortedTargets.1 hkey, hf⟩

/-! ## Files of others -/

/-- **Neither a deployment nor a rollback touches the files of others**, however it is interrupted.  A
    deployment replaces only targets that are what its manifest says, and nothing where there is a
    journal; a rollback restores only targets that have the approved digest, to the digest that they
    had, and one that returns says `rollback_conflict` where there are others. -/
theorem foreign_files_stay (s : Disk) (approval : Hex 64) :
    (∀ spec artifacts w, Run (applyApproved approval spec artifacts) ⟨s, []⟩ w →
      (s.journal ≠ none → w.state = s) ∧
      (∀ key, w.state.target key = s.target key ∨ key ∈ targets ∧
        digestOf (s.target key) = (spec key).before ∧ w.state.target key = some (artifacts key)) ∧
      ∀ key, s.backup key ≠ none → w.state.backup key = s.backup key) ∧
    ∀ b ∈ s.journal,
      (∀ w, Run (rollbackAfterQuiescence approval) ⟨s, []⟩ w → w.state.backup = s.backup ∧
        ∀ key, w.state.target key = s.target key ∨ key ∈ targets ∧
          digestOf (s.target key) = some (b.spec key).after ∧ digestOf (w.state.target key) = (b.spec key).before) ∧
      ∀ o w, Returns (rollbackAfterQuiescence approval) ⟨s, []⟩ o w → b.phase ≠ .rolledBack → Settled b.spec s w.state := by
  refine ⟨fun spec artifacts w hr => ?_, fun b hb => ⟨fun w hr => ?_, fun o w hr hphase => ?_⟩⟩
  · have hdeployed := Stays.run (w := ⟨s, []⟩) deployed_applyApproved hr
    exact ⟨fun hj => Stays.run (w := ⟨s, []⟩) (unchanged_applyApproved hj) hr, hdeployed.target, hdeployed.backup⟩
  · have hrestored := Stays.run (w := ⟨s, []⟩) (restored_rollback hb) hr
    exact ⟨hrestored.backup, hrestored.target⟩
  · exact Stays.returns (w := ⟨s, []⟩) (restored_rollback hb) hr hphase

end
end SmartHome.DeploymentFiles
