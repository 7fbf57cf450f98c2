/-
  State machines given by a set of starts and a step relation, and the invariant rule: what
  holds at every start and is kept by every step holds in every reachable state.
-/
import Mathlib.Tactic.Common

namespace Verif

/-- A state machine. -/
structure Machine (σ : Type*) where
  start : σ → Prop
  step : σ → σ → Prop

namespace Machine
variable {σ : Type*} (m : Machine σ)

/-- The states that some run reaches. -/
inductive Reachable : σ → Prop
  | start {s : σ} : m.start s → Reachable s
  | step {s s' : σ} : Reachable s → m.step s s' → Reachable s'

/-- A property that holds at the start and is kept by every step. -/
structure Invariant (p : σ → Prop) : Prop where
  start : ∀ s, m.start s → p s
  step : ∀ s s', m.Reachable s → p s → m.step s s' → p s'

variable {m}

/-- **The invariant rule.** -/
theorem Invariant.reachable {p : σ → Prop} (h : m.Invariant p) {s : σ} (hs : m.Reachable s) :
    p s := by
  induction hs with
  | start h0 => exact h.start _ h0
  | step hr hstep ih => exact h.step _ _ hr ih hstep

end Machine
end Verif
