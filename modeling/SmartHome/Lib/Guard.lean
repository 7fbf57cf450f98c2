/-
  Checks that stop a computation with a reason, in the `Except` monad, the rules that take a
  successful run apart, and families of optional values.
-/
import Mathlib.Data.Fintype.Basic

namespace Verif

variable {ε α β : Type}

/-- Go on if `p` holds, stop with the reason `e` otherwise. -/
def need (p : Prop) [Decidable p] (e : ε) : Except ε Unit := if p then .ok () else .error e

@[simp] theorem need_eq_ok {p : Prop} [Decidable p] {e : ε} {u : Unit} :
    need p e = .ok u ↔ p := by
  by_cases h : p <;> simp [need, h]

theorem bind_ok {x : Except ε α} {f : α → Except ε β} {b : β} :
    (x >>= f) = .ok b ↔ ∃ a, x = .ok a ∧ f a = .ok b := by
  cases x with
  | error e => simp [bind, Except.bind]
  | ok a => simp [bind, Except.bind]

theorem bind_error {x : Except ε α} {f : α → Except ε β} {e : ε} :
    (x >>= f) = .error e ↔ x = .error e ∨ ∃ a, x = .ok a ∧ f a = .error e := by
  cases x with
  | error e' => simp [bind, Except.bind]
  | ok a => simp [bind, Except.bind]

@[simp] theorem ok_bind {a : α} {f : α → Except ε β} : ((.ok a : Except ε α) >>= f) = f a := rfl

@[simp] theorem pure_eq_ok {a : α} : (pure a : Except ε α) = .ok a := rfl

theorem exists_unit {p : Unit → Prop} : (∃ u, p u) ↔ p () :=
  ⟨fun ⟨_, h⟩ => h, fun h => ⟨_, h⟩⟩

@[simp] theorem pure_ok {a b : α} : (pure a : Except ε α) = .ok b ↔ a = b := by
  simp

theorem bind_ne_error {x : Except ε α} {f : α → Except ε β} {e : ε} (hx : x ≠ .error e)
    (hf : ∀ a, f a ≠ .error e) : (x >>= f) ≠ .error e := by
  intro h
  rcases bind_error.1 h with h | ⟨a, -, h⟩
  · exact hx h
  · exact hf a h

theorem ok_ne_error {a : α} {e : ε} : (.ok a : Except ε α) ≠ .error e := fun h => by cases h

theorem need_ne_error {p : Prop} [Decidable p] {e e' : ε} (h : p ∨ e ≠ e') : need p e ≠ .error e' := by
  unfold need
  split_ifs with hp
  · exact ok_ne_error
  · intro he
    exact h.elim hp fun hne => hne (Except.error.inj he)

/-- The value of an option, or a stop with the reason `e`. -/
def orFail (e : ε) : Option α → Except ε α
  | some a => .ok a
  | none => .error e

@[simp] theorem orFail_eq_ok {o : Option α} {e : ε} {a : α} : orFail e o = .ok a ↔ o = some a := by
  cases o <;> simp [orFail]

/-- Check the elements in turn; the first failing check stops the run. -/
def checkAll (f : α → Except ε Unit) : List α → Except ε Unit
  | [] => .ok ()
  | x :: xs => f x >>= fun _ => checkAll f xs

@[simp] theorem checkAll_ok {xs : List α} {f : α → Except ε Unit} {u : Unit} :
    checkAll f xs = .ok u ↔ ∀ x ∈ xs, f x = .ok () := by
  induction xs with
  | nil => simp [checkAll]
  | cons x xs ih =>
    rw [checkAll, bind_ok, List.forall_mem_cons]
    constructor
    · rintro ⟨⟨⟩, hx, hxs⟩; exact ⟨hx, ih.1 hxs⟩
    · rintro ⟨hx, hxs⟩; exact ⟨(), hx, ih.2 hxs⟩

theorem checkAll_ne_error {f : α → Except ε Unit} {e : ε} (hf : ∀ a, f a ≠ .error e) :
    ∀ xs, checkAll f xs ≠ .error e
  | [] => ok_ne_error
  | x :: xs => bind_ne_error (hf x) fun _ => checkAll_ne_error hf xs

/-! ## Options -/

theorem bind_some {o : Option α} {f : α → Option β} {b : β} :
    (o >>= f) = some b ↔ ∃ a, o = some a ∧ f a = some b := Option.bind_eq_some_iff

@[simp] theorem guard_some {p : Prop} [Decidable p] {u : Unit} :
    (guard p : Option Unit) = some u ↔ p := by
  by_cases h : p <;> simp [guard, h, failure]

@[simp] theorem pure_some {a b : α} : (pure a : Option α) = some b ↔ a = b := Option.some.injEq a b ▸ Iff.rfl

section
variable {ι γ : Type} [Fintype ι]

/-- The values of a family, if each is there. -/
def collect (g : ι → Option γ) : Option (ι → γ) :=
  if h : ∀ i, (g i).isSome then some fun i => (g i).get (h i) else none

@[simp] theorem collect_eq_some {g : ι → Option γ} {f : ι → γ} :
    collect g = some f ↔ ∀ i, g i = some (f i) := by
  unfold collect
  split_ifs with h
  · simp only [Option.some.injEq, funext_iff]
    constructor
    · intro hf i; rw [← hf i, Option.some_get]
    · intro hf i; simp [hf i]
  · simp only [false_iff]
    exact fun hf => h fun i => by simp [hf i]

end

end Verif
