/-
  Programs as lists of durable writes.  A program that is interrupted leaves the writes of a
  prefix of its list behind.
-/
import Mathlib.Tactic.Common

namespace Verif

section
variable {σ ω : Type*} (write : σ → ω → σ)

/-- The store after some first writes of a list. -/
def Interrupted (ws : List ω) (s s' : σ) : Prop := ∃ n, s' = (ws.take n).foldl write s

variable {write}

theorem interrupted_nil {s s' : σ} : Interrupted write [] s s' ↔ s' = s := by
  simp [Interrupted]

/-- Either nothing is written, or the first write is and the rest is interrupted. -/
theorem interrupted_cons {w : ω} {ws : List ω} {s s' : σ} :
    Interrupted write (w :: ws) s s' ↔ s' = s ∨ Interrupted write ws (write s w) s' := by
  constructor
  · rintro ⟨n, rfl⟩
    cases n with
    | zero => exact Or.inl rfl
    | succ n => exact Or.inr ⟨n, rfl⟩
  · rintro (rfl | ⟨n, rfl⟩)
    · exact ⟨0, rfl⟩
    · exact ⟨n + 1, rfl⟩

/-- A program that is not interrupted. -/
theorem interrupted_foldl (ws : List ω) (s : σ) : Interrupted write ws s (ws.foldl write s) :=
  ⟨ws.length, by rw [List.take_length]⟩

/-- What every write of a list keeps, an interruption keeps. -/
theorem Interrupted.keeps {p : σ → Prop} {ws : List ω} {s s' : σ} (h : Interrupted write ws s s')
    (hs : p s) (hw : ∀ t, p t → ∀ w ∈ ws, p (write t w)) : p s' := by
  induction ws generalizing s with
  | nil => rw [interrupted_nil.1 h]; exact hs
  | cons w ws ih =>
    rcases interrupted_cons.1 h with rfl | h
    · exact hs
    · exact ih h (hw s hs w List.mem_cons_self) fun t ht w' hw' => hw t ht w' (List.mem_cons_of_mem _ hw')

end
end Verif
