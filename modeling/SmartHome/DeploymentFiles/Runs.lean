/-
  Runs of deployments and rollbacks, each of which may be interrupted.
-/
import SmartHome.DeploymentFiles.Completion
import SmartHome.Lib.Machine

namespace SmartHome.DeploymentFiles

open Verif Program Mqtt FileTransaction

section
variable [Sha256] {s : Disk} {base : String → Option Bytes}

/-! ## Runs -/

/-- Deployments and rollbacks, which may stop anywhere, from a disk with the files `base`.  What is
    lost in a crash are copies that are not synced. -/
inductive Step : Disk → Disk → Prop
  | apply {s : Disk} (approval : Hex 64) (spec : Spec) (artifacts : String → Bytes) {w : World Disk Unit} :
    Run (applyApproved approval spec artifacts) ⟨s, []⟩ w → Step s w.state
  | rollback {s : Disk} (approval : Hex 64) {w : World Disk Unit} :
    Run (rollbackAfterQuiescence approval) ⟨s, []⟩ w → Step s w.state
  | lose {s : Disk} (backup : String → Option Bytes) : s.synced = false → Step s { s with backup := backup }

def deployments (base : String → Option Bytes) : Machine Disk where
  start s := s.journal = none ∧ s.target = base
  step := Step

theorem sound : (deployments base).Invariant (Sound base) where
  start s h := .start h.1 h.2
  step s s' _ hs hstep := by
    cases hstep with
    | apply approval spec artifacts hrun => exact (stays_applyApproved hs).run hrun
    | rollback approval hrun =>
      cases hb : s.journal with
      | none =>
        have hstays : (rollbackAfterQuiescence approval).Stays (Sound base) (fun _ _ => True) s := by
          rw [rollbackAfterQuiescence]
          exact stays_load hs (fun _ => stays_fail hs) fun b hb' => absurd (hb.symm.trans hb') (Option.some_ne_none b).symm
        exact hstays.run hrun
      | some b => exact (stays_rollback hs hb).run hrun
    | lose backup hsynced =>
      have htarget : s.target = base := funext fun key => by
        by_contra hne
        rw [(hs.copied key hne).1] at hsynced
        cases hsynced
      exact hs.with_backup htarget backup

/-- **No interruption loses a file.**  In every state that deployments and rollbacks reach, however they
    were interrupted, a target is what it was or has the approved digest; what is not what it was has a
    copy of it; and the journal says `applied` or `rolled_back` only where that is so. -/
theorem deployment_safe (h : (deployments base).Reachable s) :
    (s.journal = none → s.target = base) ∧
    (∀ b ∈ s.journal, ∀ key, s.target key = base key ∨
      key ∈ targets ∧ digestOf (s.target key) = some (b.spec key).after) ∧
    (∀ key, s.target key ≠ base key → ∀ raw ∈ base key, s.backup key = some raw) ∧
    (∀ b ∈ s.journal, b.phase = .applied → ∀ key ∈ targets, digestOf (s.target key) = some (b.spec key).after) ∧
    ∀ b ∈ s.journal, b.phase = .rolledBack → ∀ key ∈ targets, digestOf (s.target key) = digestOf (base key) := by
  have hs := sound.reachable h
  exact ⟨hs.untouched, hs.between, fun key hkey => (hs.copied key hkey).2, hs.applied, hs.rolledBack⟩

end

/-- The manifest of a first deployment, of empty files. -/
def firstSpec : Spec := fun _ => ⟨none, @sha256 zeroHash []⟩

/-- A disk without files. -/
def noFiles : Disk := ⟨fun _ => none, fun _ => none, false, none⟩

/-- A first deployment. -/
theorem reachable_applied : letI := zeroHash
    ∃ s b, (deployments fun _ => none).Reachable s ∧ s.journal = some b ∧ b.phase = .applied ∧
      b.spec = firstSpec ∧ ∀ key ∈ targets, s.target key = some [] := by
  let := zeroHash
  have hmanifest : ∀ spec, manifestHash spec = sha256 [] := fun _ => rfl
  have hj : noFiles.journal = none := rfl
  have hnone : ∀ key ∈ targets, noFiles.backup key = none := fun _ _ => rfl
  have hfits : Fits firstSpec fun _ => [] := fun _ _ => ⟨Nat.zero_le _, rfl⟩
  have hd : ∀ key ∈ targets, digestOf (noFiles.target key) = (firstSpec key).before := fun _ _ => rfl
  obtain ⟨o, w, hr, ⟨b, hb, -, hspec, hphase⟩, htarget⟩ := applyApproved_returns hj hnone (hmanifest _) hfits hd
  have hstart : (deployments fun _ => none).Reachable noFiles := .start ⟨hj, rfl⟩
  exact ⟨w.state, b, hstart.step (.apply _ _ _ hr.run), hb, hphase, hspec, htarget⟩

theorem deployment_safe_applied : letI := zeroHash
    ∃ s b, (deployments fun _ => none).Reachable s ∧ s.journal = some b ∧ b.phase = .applied ∧
      ∀ key ∈ targets, digestOf (s.target key) = some (b.spec key).after := by
  let := zeroHash
  obtain ⟨s, b, hs, hb, hphase, -⟩ := reachable_applied
  exact ⟨s, b, hs, hb, hphase, (deployment_safe hs).2.2.2.1 b hb hphase⟩

section
variable [Sha256] {s : Disk} {base : String → Option Bytes}

end

end SmartHome.DeploymentFiles
