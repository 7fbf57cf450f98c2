/-
  A register that keeps the latest of the values it is given.

  `Latest stamp xs r` says that `r` is a value of `xs` with the greatest stamp.  A step that
  takes a later value and leaves the register alone otherwise keeps it (`Latest.keep`), and
  where a stamp belongs to one value only, neither the order nor the number of the deliveries
  matters (`Latest.unique`).
-/
import Mathlib.Order.Lattice
import Mathlib.Tactic.Push

namespace Verif

variable {α τ : Type} [LinearOrder τ] {stamp : α → τ} {xs ys : List α} {r s : Option α} {a : α}

/-- The value with the greatest stamp, if there is a value. -/
structure Latest (stamp : α → τ) (xs : List α) (r : Option α) : Prop where
  mem : ∀ a ∈ r, a ∈ xs
  le : ∀ b ∈ xs, ∃ a ∈ r, stamp b ≤ stamp a

/-- The register takes a value that is later than the one it holds. -/
def keepLatest (stamp : α → τ) (r : Option α) (a : α) : Option α :=
  if ∀ b ∈ r, stamp b < stamp a then some a else r

namespace Latest

theorem nil : Latest stamp [] none where
  mem a ha := by cases ha
  le b hb := by cases hb

/-- One delivery. -/
theorem keep (h : Latest stamp xs r) (a : α) : Latest stamp (xs ++ [a]) (keepLatest stamp r a) := by
  unfold keepLatest
  split
  · rename_i hlt
    refine ⟨?_, fun b hb => ⟨a, rfl, ?_⟩⟩
    · rintro _ ⟨⟩
      exact List.mem_append_right _ (List.mem_singleton_self a)
    · rcases List.mem_append.1 hb with hb | hb
      · obtain ⟨c, hc, hbc⟩ := h.le b hb
        exact hbc.trans (hlt c hc).le
      · rw [List.mem_singleton.1 hb]
  · rename_i hlt
    push Not at hlt
    obtain ⟨c, hc, hac⟩ := hlt
    refine ⟨fun b hb => List.mem_append_left _ (h.mem b hb), fun b hb => ?_⟩
    rcases List.mem_append.1 hb with hb | hb
    · exact h.le b hb
    · exact ⟨c, hc, by rwa [List.mem_singleton.1 hb]⟩

/-- **Order and repetition do not matter**: registers that are given the same values agree. -/
theorem unique (hr : Latest stamp xs r) (hs : Latest stamp ys s) (hmem : ∀ b, b ∈ xs ↔ b ∈ ys)
    (hinj : ∀ b ∈ xs, ∀ c ∈ xs, stamp b = stamp c → b = c) : r = s := by
  cases r with
  | none =>
    cases s with
    | none => rfl
    | some c =>
      obtain ⟨b, hb, -⟩ := hr.le c ((hmem c).2 (hs.mem c rfl))
      cases hb
  | some b =>
    obtain ⟨c, hc, hbc⟩ := hs.le b ((hmem b).1 (hr.mem b rfl))
    have hcx : c ∈ xs := (hmem c).2 (hs.mem c hc)
    obtain ⟨_, ⟨⟩, hcb⟩ := hr.le c hcx
    rw [hinj b (hr.mem b rfl) c hcx (hbc.antisymm hcb)]
    exact hc.symm

/-- What the register holds is replaced by nothing earlier. -/
theorem le_keep (r : Option α) (a : α) : ∀ b ∈ r, ∃ c ∈ keepLatest stamp r a, stamp b ≤ stamp c := by
  intro b hb
  unfold keepLatest
  split
  · rename_i hlt
    exact ⟨a, rfl, (hlt b hb).le⟩
  · exact ⟨b, hb, le_rfl⟩

end Latest

end Verif
