/-
  Programs of which at most one runs at a time, as under a lock, while others change the state
  between its atomic steps.  A program may die at any point; what it leaves open is released then.
-/
import Mathlib.Logic.Function.Iterate
import SmartHome.Lib.Guarantee
import SmartHome.Lib.Machine

namespace Verif

open Program

variable {ι σ : Type} {ρ : ι → Type} {α τ : Type}

/-- The state, and the program that holds the lock. -/
structure Desk (σ : Type) (ρ : ι → Type) (α : Type) where
  state : σ
  current : Option (Program σ ρ α)

/-- What the others may do, which states can be, and what the end of a program changes. -/
structure Setting (σ : Type) where
  others : σ → σ → Prop
  possible : σ → Prop
  release : σ → σ

/-- The steps of the programs that `starts` allows. -/
inductive Desk.Own (E : Setting σ) (starts : Program σ ρ α → Prop) : Desk σ ρ α → Desk σ ρ α → Prop
  | start {w : Desk σ ρ α} {p : Program σ ρ α} : w.current = none → starts p →
      Own E starts w { w with current := some p }
  /-- The program returns, raises or dies. -/
  | leave {w : Desk σ ρ α} : Own E starts w ⟨E.release w.state, none⟩
  | atomic {w : Desk σ ρ α} {f : σ → σ} {k : σ → Program σ ρ α} :
      w.current = some (.atomic f k) → E.possible (f w.state) →
      Own E starts w ⟨f w.state, some (k w.state)⟩
  | call {w : Desk σ ρ α} {q : ι} {k : ρ q → Program σ ρ α} (r : ρ q) :
      w.current = some (.call q k) → Own E starts w { w with current := some (k r) }

/-- What may happen next. -/
inductive Desk.Step (E : Setting σ) (starts : Program σ ρ α → Prop) : Desk σ ρ α → Desk σ ρ α → Prop
  | own {w w' : Desk σ ρ α} : Desk.Own E starts w w' → Step E starts w w'
  | others {w : Desk σ ρ α} {s : σ} : E.others w.state s → E.possible s →
      Step E starts w { w with state := s }

/-- The runs of a desk. -/
def deskMachine (E : Setting σ) (start : σ → Prop) (starts : Program σ ρ α → Prop) :
    Machine (Desk σ ρ α) where
  start w := start w.state ∧ w.current = none
  step := Desk.Step E starts

/-! ## Schedules -/

/-- The next step of the program, where the outside answers by `answer`. -/
def Desk.advance (answer : ∀ q, ρ q) (w : Desk σ ρ α) : Desk σ ρ α :=
  match w.current with
  | some (.atomic f k) => ⟨f w.state, some (k w.state)⟩
  | some (.call q k) => { w with current := some (k (answer q)) }
  | _ => w

theorem Desk.own_advance {E : Setting σ} {starts : Program σ ρ α → Prop} (answer : ∀ q, ρ q)
    {w : Desk σ ρ α} (hpossible : E.possible (w.advance answer).state) :
    w.advance answer = w ∨ Desk.Own E starts w (w.advance answer) := by
  cases hcurrent : w.current with
  | none => exact Or.inl (by simp only [Desk.advance, hcurrent])
  | some p =>
    cases p with
    | done a => exact Or.inl (by simp only [Desk.advance, hcurrent])
    | fail e => exact Or.inl (by simp only [Desk.advance, hcurrent])
    | atomic f k =>
      simp only [Desk.advance, hcurrent] at hpossible ⊢
      exact Or.inr (.atomic hcurrent hpossible)
    | call q k =>
      simp only [Desk.advance, hcurrent]
      exact Or.inr (.call (answer q) hcurrent)

theorem reachable_advance_iterate {E : Setting σ} {start : σ → Prop} {starts : Program σ ρ α → Prop}
    (answer : ∀ q, ρ q) {w : Desk σ ρ α} (n : ℕ)
    (hpossible : ∀ k < n, E.possible ((Desk.advance answer)^[k + 1] w).state)
    (h : (deskMachine E start starts).Reachable w) :
    (deskMachine E start starts).Reachable ((Desk.advance answer)^[n] w) := by
  induction n with
  | zero => exact h
  | succ n ih =>
    have hw := ih fun k hk => hpossible k (Nat.lt_succ_of_lt hk)
    have hlast := hpossible n (Nat.lt_succ_self n)
    rw [Function.iterate_succ_apply'] at hlast ⊢
    rcases (Desk.own_advance answer hlast : _ ∨ Desk.Own E starts _ _) with hs | hs
    · exact hs.symm ▸ hw
    · exact .step hw (.own hs)

/-! ## Guarantees -/

section
variable [DecidableEq τ] {G : Rules σ ι τ} {E : Setting σ} {start : σ → Prop}
  {starts : Program σ ρ α → Prop} {w w' : Desk σ ρ α}

/-- The rules allow for what the setting does. -/
structure Rules.Suits (G : Rules σ ι τ) (E : Setting σ) : Prop where
  others : ∀ s s', G.inv s → E.others s s' → E.possible s' → G.inv s' ∧ G.others s s'
  possible : ∀ s, E.possible s → G.possible s
  release : ∀ s, G.inv s → G.inv (E.release s) ∧ G.rel s (E.release s)

/-- The invariant of a desk. -/
structure Desk.Good (G : Rules σ ι τ) (w : Desk σ ρ α) : Prop where
  inv : G.inv w.state
  known : ∀ p ∈ w.current, ∃ (A : G.Known) (held : List τ), A.holds w.state ∧
    Guar G (fun _ _ => True) (fun _ _ _ => True) p A held

theorem Desk.Good.own (hG : G.Suits E)
    (hstarts : ∀ p, starts p → Guar G (fun _ _ => True) (fun _ _ _ => True) p (.trivial G) [])
    (h : w.Good G) (hs : Desk.Own E starts w w') : w'.Good G ∧ G.rel w.state w'.state := by
  cases hs with
  | @start p hcurrent hp =>
    refine ⟨⟨h.inv, fun p' hp' => ?_⟩, G.refl _⟩
    obtain rfl := Option.some.inj hp'
    exact ⟨.trivial G, [], trivial, hstarts p hp⟩
  | leave =>
    obtain ⟨hinv, hrel⟩ := hG.release w.state h.inv
    exact ⟨⟨hinv, fun p hp => by cases hp⟩, hrel⟩
  | @atomic f k hcurrent hpossible =>
    obtain ⟨A, held, hA, hguar⟩ := h.known _ hcurrent
    obtain ⟨hinv, hrel, A', held', hA', -, hk⟩ :=
      hguar w.state h.inv hA trivial (hG.possible _ hpossible)
    refine ⟨⟨hinv, fun p hp => ?_⟩, hrel⟩
    obtain rfl := Option.some.inj hp
    exact ⟨A', held', hA', hk⟩
  | @call q k r hcurrent =>
    obtain ⟨A, held, hA, hguar⟩ := h.known _ hcurrent
    refine ⟨⟨h.inv, fun p hp => ?_⟩, G.refl _⟩
    obtain rfl := Option.some.inj hp
    exact ⟨A, _, hA, hguar.2 r⟩

theorem Desk.Good.step (hG : G.Suits E)
    (hstarts : ∀ p, starts p → Guar G (fun _ _ => True) (fun _ _ _ => True) p (.trivial G) [])
    (h : w.Good G) (hs : Desk.Step E starts w w') : w'.Good G := by
  cases hs with
  | own hs => exact (h.own hG hstarts hs).1
  | others hothers hpossible =>
    obtain ⟨hinv, hstable⟩ := hG.others _ _ h.inv hothers hpossible
    refine ⟨hinv, fun p hp => ?_⟩
    obtain ⟨A, held, hA, hguar⟩ := h.known p hp
    exact ⟨A, held, A.stable _ _ hstable hA, hguar⟩

/-- **The rule of desks.** -/
theorem Desk.Good.reachable (hG : G.Suits E) (hstart : ∀ s, start s → G.inv s)
    (hstarts : ∀ p, starts p → Guar G (fun _ _ => True) (fun _ _ _ => True) p (.trivial G) [])
    (h : (deskMachine E start starts).Reachable w) : w.Good G := by
  refine Machine.Invariant.reachable (p := Desk.Good G) ⟨?_, ?_⟩ h
  · rintro w ⟨hs, hcurrent⟩
    exact ⟨hstart _ hs, fun p hp => by rw [hcurrent] at hp; cases hp⟩
  · intro w w' _ h hs
    exact h.step hG hstarts hs

end

end Verif
