/-
  Events in time with a least distance and a budget for every window.
-/
import Mathlib.Algebra.Order.Field.Basic
import Mathlib.Data.List.Perm.Subperm
import Mathlib.Tactic.Linarith

namespace Verif

variable {T : Type} [Field T] [LinearOrder T]

/-- Any two of the times are at least `spacing` apart, and every window of length `window` holds at
    most `limit` of them. -/
structure Paced (spacing window : T) (limit : ℕ) (times : List T) : Prop where
  spaced : times.Pairwise fun a b => spacing ≤ |a - b|
  budget : ∀ t, times.countP (fun a => t ≤ a ∧ a ≤ t + window) ≤ limit

variable {spacing window : T} {limit : ℕ} {times times' : List T} {now : T}

theorem paced_nil : Paced spacing window limit [] := ⟨.nil, fun _ => by simp⟩

theorem Paced.perm (h : Paced spacing window limit times) (hp : times'.Perm times) :
    Paced spacing window limit times' where
  spaced := hp.symm.pairwise h.spaced fun {a b} hab => by rw [abs_sub_comm]; exact hab
  budget t := by rw [hp.countP_eq]; exact h.budget t

/-- Fewer events. -/
theorem Paced.subperm (h : Paced spacing window limit times) (hs : times'.Subperm times) :
    Paced spacing window limit times' where
  spaced := by
    obtain ⟨l, hl, hsub⟩ := id hs
    exact hl.pairwise (h.spaced.sublist hsub) fun {a b} hab => by rw [abs_sub_comm]; exact hab
  budget t := (List.Subperm.countP_le _ hs).trans (h.budget t)

/-- **A new event** that keeps its distance from all earlier ones, and finds the budget of the
    window before it not exhausted. -/
theorem Paced.cons [IsStrictOrderedRing T] (h : Paced spacing window limit times) (hspacing : 0 ≤ spacing)
    (hdistance : ∀ t ∈ times, spacing ≤ now - t)
    (hcount : times.countP (fun a => now - window ≤ a ∧ a ≤ now) < limit) :
    Paced spacing window limit (now :: times) where
  spaced := by
    refine List.pairwise_cons.2 ⟨fun t ht => ?_, h.spaced⟩
    exact (hdistance t ht).trans (le_abs_self _)
  budget t := by
    rw [List.countP_cons]
    split_ifs with hnow
    · -- the window of `t` ends after the event, so it starts within the window before the event
      have hnow : t ≤ now ∧ now ≤ t + window := by simpa using hnow
      have hle : times.countP (fun a => t ≤ a ∧ a ≤ t + window) ≤
          times.countP (fun a => now - window ≤ a ∧ a ≤ now) := by
        refine List.countP_mono_left fun a ha hin => ?_
        have hin : t ≤ a ∧ a ≤ t + window := by simpa using hin
        have hfar := hdistance a ha
        have : now - window ≤ a ∧ a ≤ now := ⟨by linarith [hnow.2, hin.1], by linarith⟩
        simpa using this
      omega
    · exact h.budget t

end Verif
