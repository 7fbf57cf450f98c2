/-
  Threads on one shared state, with rely and guarantee.  Each thread is a program whose atomic steps
  may be interleaved with those of the others in any way; a new thread may be started at any time.

  Every thread guarantees that its own steps keep the invariant and stay within its guarantee.  What
  it may rely on is that the others do the same: a fact that no step of another thread destroys
  (`Stable`) still holds when the thread goes on.  A `Triple` is the condition on a program from a
  stable fact to another, and `reachable_inv` the rule that all threads together keep the invariant.
-/
import Mathlib.Logic.Function.Basic
import Mathlib.Logic.Relation
import SmartHome.Lib.Machine
import SmartHome.Lib.Program

namespace Verif

open Program

variable {ι σ : Type} {ρ : ι → Type} {α β : Type}

/-- The invariant of the shared state and what each thread guarantees of its steps.  `fresh i` is what
    is known before thread `i` starts. -/
structure Protocol (σ : Type) where
  inv : σ → Prop
  guar : ℕ → σ → σ → Prop
  fresh : ℕ → σ → Prop

namespace Protocol
variable (G : Protocol σ)

/-- A fact that no step of a thread other than `i` destroys. -/
def Stable (i : ℕ) (A : σ → Prop) : Prop :=
  ∀ j, j ≠ i → ∀ s s', G.inv s → G.inv s' → G.guar j s s' → A s → A s'

/-- What the threads other than `i` may do between two steps of `i`. -/
def Env (i : ℕ) : σ → σ → Prop :=
  Relation.ReflTransGen fun s s' => G.inv s ∧ G.inv s' ∧ ∃ j, j ≠ i ∧ G.guar j s s'

/-- Whatever the others do in between, the steps of thread `i` in this program keep the invariant and
    the guarantee, and the result satisfies `post` when it is there. -/
def Safe (i : ℕ) (post : α → σ → Prop) : Program σ ρ α → σ → Prop
  | .done a, s => post a s
  | .fail _, _ => True
  | .atomic f k, s => ∀ s', G.Env i s s' → G.inv s' →
      G.inv (f s') ∧ G.guar i s' (f s') ∧ Safe i post (k s') (f s')
  | .call _ k, s => ∀ r, Safe i post (k r) s

/-- From every state with `A` the program is safe and leads to `B`. -/
def Triple (i : ℕ) (A : σ → Prop) (p : Program σ ρ α) (B : α → σ → Prop) : Prop :=
  ∀ s, A s → G.Safe i B p s

variable {G} {i : ℕ} {A A' : σ → Prop} {B B' : α → σ → Prop} {p : Program σ ρ α} {s s' : σ}

/-! ## Stable facts -/

theorem Stable.env (h : G.Stable i A) (he : G.Env i s s') (ha : A s) : A s' := by
  induction he with
  | refl => exact ha
  | tail _ hstep ih =>
    obtain ⟨hs, hs', j, hj, hg⟩ := hstep
    exact h j hj _ _ hs hs' hg ih

theorem Stable.and (h : G.Stable i A) (h' : G.Stable i A') : G.Stable i fun s => A s ∧ A' s := by
  rintro j hj s s' hs hs' hg ⟨ha, ha'⟩
  exact ⟨h j hj s s' hs hs' hg ha, h' j hj s s' hs hs' hg ha'⟩

theorem stable_const (P : Prop) : G.Stable i fun _ => P := by
  intro j _ s s' _ _ _ h
  exact h

/-! ## Rules -/

theorem Safe.mono (h : G.Safe i B p s) (hB : ∀ a s, B a s → B' a s) : G.Safe i B' p s := by
  induction p generalizing s with
  | done a => exact hB a s h
  | fail e => trivial
  | atomic f k ih =>
    intro s' he hs'
    obtain ⟨h1, h2, h3⟩ := h s' he hs'
    exact ⟨h1, h2, ih s' h3⟩
  | call q k ih => exact fun r => ih r (h r)

theorem Safe.bind {k : α → Program σ ρ β} {C : β → σ → Prop}
    (h : G.Safe i (fun a s => G.Safe i C (k a) s) p s) : G.Safe i C (p >>= k) s := by
  induction p generalizing s with
  | done a => exact h
  | fail e => trivial
  | atomic f g ih =>
    intro s' he hs'
    obtain ⟨h1, h2, h3⟩ := h s' he hs'
    exact ⟨h1, h2, ih s' h3⟩
  | call q g ih => exact fun r => ih r (h r)

/-- The steps of the others do not make a thread unsafe. -/
theorem Safe.env (h : G.Safe i (fun _ _ => True) p s) (he : G.Env i s s') :
    G.Safe i (fun _ _ => True) p s' := by
  induction p with
  | done a => trivial
  | fail e => trivial
  | atomic f k => exact fun t ht => h t (he.trans ht)
  | call q k ih => exact fun r => ih r (h r)

theorem triple_pure {a : α} (h : ∀ s, A s → B a s) : G.Triple i A (pure a : Program σ ρ α) B := h

theorem triple_bind {k : α → Program σ ρ β} {C : β → σ → Prop} (hp : G.Triple i A p B)
    (hk : ∀ a, G.Triple i (B a) (k a) C) : G.Triple i A (p >>= k) C :=
  fun s ha => ((hp s ha).mono fun a s hb => hk a s hb).bind

theorem triple_discard {C : σ → Prop} (hp : G.Triple i A p fun _ => C) :
    G.Triple i A (discard p) fun _ => C :=
  triple_bind hp fun _ => triple_pure fun _ h => h

theorem Triple.mono (h : G.Triple i A p B) (hA : ∀ s, A' s → A s) (hB : ∀ a s, B a s → B' a s) :
    G.Triple i A' p B' :=
  fun s ha => (h s (hA s ha)).mono hB

theorem triple_ask {q : ι} : G.Triple i A (ask q : Program σ ρ (ρ q)) fun _ => A := by
  intro s ha r
  exact ha

/-- A hypothesis that does not depend on the state. -/
theorem triple_and {P : Prop} (h : P → G.Triple i A p B) : G.Triple i (fun s => P ∧ A s) p B :=
  fun s hs => h hs.1 s hs.2

theorem triple_exists {γ : Type} {P : γ → σ → Prop} (h : ∀ c, G.Triple i (P c) p B) :
    G.Triple i (fun s => ∃ c, P c s) p B := by
  rintro s ⟨c, hc⟩
  exact h c s hc

end Protocol

/-! ## Atomic operations -/

namespace Program

/-- One atomic operation: the state becomes `f s`, and the result is `g s`. -/
def access (f : σ → σ) (g : σ → α) : Program σ ρ α := .atomic f fun s => .done (g s)

/-- An atomic operation that only reads. -/
def load (g : σ → α) : Program σ ρ α := access id g

/-- An atomic operation without a result. -/
def store (f : σ → σ) : Program σ ρ Unit := access f fun _ => ()

end Program

namespace Protocol
variable {G : Protocol σ} {i : ℕ} {A : σ → Prop} {B : α → σ → Prop} {f : σ → σ} {g : σ → α}

/-- **The rule of atomic operations.** -/
theorem triple_access (hA : G.Stable i A)
    (h : ∀ s, G.inv s → A s → G.inv (f s) ∧ G.guar i s (f s) ∧ B (g s) (f s)) :
    G.Triple i A (access f g : Program σ ρ α) B := by
  intro s ha s' he hs'
  exact h s' hs' (hA.env he ha)

/-- **The rule of reading.** -/
theorem triple_load (hrefl : ∀ i s, G.guar i s s) (hA : G.Stable i A)
    (h : ∀ s, G.inv s → A s → B (g s) s) : G.Triple i A (load g : Program σ ρ α) B :=
  triple_access hA fun s hs ha => ⟨hs, hrefl i s, h s hs ha⟩

end Protocol

/-! ## Crews -/

/-- The shared state and the threads; those numbered below `started` have been started. -/
structure Crew (σ : Type) (ρ : ι → Type) where
  state : σ
  threads : ℕ → Option (Program σ ρ Unit)
  started : ℕ

namespace Crew

/-- The crew after a step of thread `i`. -/
def put (w : Crew σ ρ) (i : ℕ) (s : σ) (p : Program σ ρ Unit) : Crew σ ρ :=
  { w with state := s, threads := Function.update w.threads i (some p) }

/-- The crew with one more thread. -/
def spawn (w : Crew σ ρ) (p : Program σ ρ Unit) : Crew σ ρ :=
  { w.put w.started w.state p with started := w.started + 1 }

/-- What may happen next.  Thread `i` is started with a program that `starts i` allows. -/
inductive Step (starts : ℕ → Program σ ρ Unit → Prop) : Crew σ ρ → Crew σ ρ → Prop
  | start {w : Crew σ ρ} {p : Program σ ρ Unit} : starts w.started p → Step starts w (w.spawn p)
  | atomic {w : Crew σ ρ} {i : ℕ} {f : σ → σ} {k : σ → Program σ ρ Unit} :
      w.threads i = some (.atomic f k) → Step starts w (w.put i (f w.state) (k w.state))
  | call {w : Crew σ ρ} {i : ℕ} {q : ι} {k : ρ q → Program σ ρ Unit} (r : ρ q) :
      w.threads i = some (.call q k) → Step starts w (w.put i w.state (k r))

/-- The runs of a crew from a state without threads. -/
def machine (start : σ → Prop) (starts : ℕ → Program σ ρ Unit → Prop) : Machine (Crew σ ρ) where
  start w := start w.state ∧ (∀ i, w.threads i = none) ∧ w.started = 0
  step := Step starts

/-- Every thread is safe, and nothing is known of those that have not been started. -/
structure Good (G : Protocol σ) (w : Crew σ ρ) : Prop where
  inv : G.inv w.state
  safe : ∀ i p, w.threads i = some p → G.Safe i (fun _ _ => True) p w.state
  fresh : ∀ i, w.started ≤ i → w.threads i = none ∧ G.fresh i w.state

section
variable {G : Protocol σ} {start : σ → Prop} {starts : ℕ → Program σ ρ Unit → Prop} {w : Crew σ ρ}

theorem Good.spawn (h : w.Good G) {p : Program σ ρ Unit}
    (hp : ∀ s, G.fresh w.started s → G.Safe w.started (fun _ _ => True) p s) : (w.spawn p).Good G where
  inv := h.inv
  safe i q hq := by
    by_cases hi : i = w.started
    · subst hi
      have heq : (w.spawn p).threads w.started = some p := Function.update_self _ _ _
      obtain rfl : p = q := Option.some.inj (heq.symm.trans hq)
      exact hp _ (h.fresh _ (Nat.le_refl _)).2
    · have heq : (w.spawn p).threads i = w.threads i := Function.update_of_ne hi _ _
      exact h.safe i q (heq ▸ hq)
  fresh i hi := by
    have hlt : w.started < i := hi
    have heq : (w.spawn p).threads i = w.threads i := Function.update_of_ne (Nat.ne_of_gt hlt) _ _
    rw [heq]
    exact h.fresh i (Nat.le_of_lt hlt)

/-- A step that keeps the guarantee of its thread. -/
theorem Good.put (h : w.Good G) (hfresh : ∀ i, G.Stable i (G.fresh i)) {i : ℕ} {s : σ}
    {p q : Program σ ρ Unit} (hp : w.threads i = some p) (hs : G.inv s) (hg : G.guar i w.state s)
    (hsafe : G.Safe i (fun _ _ => True) q s) : (w.put i s q).Good G where
  inv := hs
  safe j p' hp' := by
    by_cases hj : j = i
    · subst hj
      have heq : (w.put j s q).threads j = some q := Function.update_self _ _ _
      obtain rfl : q = p' := Option.some.inj (heq.symm.trans hp')
      exact hsafe
    · have heq : (w.put i s q).threads j = w.threads j := Function.update_of_ne hj _ _
      exact (h.safe j p' (heq ▸ hp')).env (.single ⟨h.inv, hs, i, Ne.symm hj, hg⟩)
  fresh j hj := by
    obtain ⟨h1, h2⟩ := h.fresh j hj
    have hne : j ≠ i := by
      rintro rfl
      rw [h1] at hp
      cases hp
    have heq : (w.put i s q).threads j = w.threads j := Function.update_of_ne hne _ _
    exact ⟨heq.trans h1, hfresh j i (Ne.symm hne) _ _ h.inv hs hg h2⟩

/-- What a call returns does not change the state. -/
theorem Good.reply (h : w.Good G) {i : ℕ} {q : ι} {k : ρ q → Program σ ρ Unit} (r : ρ q)
    (hp : w.threads i = some (.call q k)) : (w.put i w.state (k r)).Good G where
  inv := h.inv
  safe j p' hp' := by
    by_cases hj : j = i
    · subst hj
      have heq : (w.put j w.state (k r)).threads j = some (k r) := Function.update_self _ _ _
      obtain rfl : k r = p' := Option.some.inj (heq.symm.trans hp')
      exact h.safe j _ hp r
    · have heq : (w.put i w.state (k r)).threads j = w.threads j := Function.update_of_ne hj _ _
      exact h.safe j p' (heq ▸ hp')
  fresh j hj := by
    obtain ⟨h1, h2⟩ := h.fresh j hj
    have hne : j ≠ i := by
      rintro rfl
      rw [h1] at hp
      cases hp
    have heq : (w.put i w.state (k r)).threads j = w.threads j := Function.update_of_ne hne _ _
    exact ⟨heq.trans h1, h2⟩

/-- **The rule of threads.**  If every thread is safe from what is known before it starts, the
    invariant holds in every state that the threads reach. -/
theorem reachable_inv (hfresh : ∀ i, G.Stable i (G.fresh i))
    (hstart : ∀ s, start s → G.inv s ∧ ∀ i, G.fresh i s)
    (hp : ∀ i p, starts i p → G.Triple i (G.fresh i) p fun _ _ => True)
    (hw : (machine start starts).Reachable w) : G.inv w.state := by
  suffices hgood : (machine start starts).Invariant (Good G) from (hgood.reachable hw).inv
  constructor
  · rintro w ⟨h1, h2, h3⟩
    obtain ⟨hinv, hnew⟩ := hstart _ h1
    refine ⟨hinv, fun i p hi => ?_, fun i _ => ⟨h2 i, hnew i⟩⟩
    rw [h2 i] at hi
    cases hi
  · intro w w' _ h hstep
    cases hstep with
    | start hs => exact h.spawn fun s hs' => hp _ _ hs s hs'
    | atomic hi =>
      obtain ⟨h1, h2, h3⟩ := h.safe _ _ hi w.state .refl h.inv
      exact h.put hfresh hi h1 h2 h3
    | call r hi => exact h.reply r hi

end

/-! ## Schedules -/

/-- The next step of thread `i`, where the outside answers by `answer`. -/
def advance (answer : ∀ q, ρ q) (w : Crew σ ρ) (i : ℕ) : Crew σ ρ :=
  match w.threads i with
  | some (.atomic f k) => w.put i (f w.state) (k w.state)
  | some (.call q k) => w.put i w.state (k (answer q))
  | _ => w

section
variable {start : σ → Prop} {starts : ℕ → Program σ ρ Unit → Prop} {w : Crew σ ρ}

theorem reachable_spawn {p : Program σ ρ Unit} (hp : starts w.started p)
    (h : (machine start starts).Reachable w) : (machine start starts).Reachable (w.spawn p) :=
  .step h (.start hp)

theorem reachable_advance (answer : ∀ q, ρ q) (i : ℕ) (h : (machine start starts).Reachable w) :
    (machine start starts).Reachable (w.advance answer i) := by
  unfold advance
  cases hi : w.threads i with
  | none => exact h
  | some p =>
    cases p with
    | done a => exact h
    | fail e => exact h
    | atomic f k => exact .step h (.atomic hi)
    | call q k => exact .step h (.call (answer q) hi)

/-- The steps of some threads, one after the other. -/
theorem reachable_schedule (answer : ∀ q, ρ q) (is : List ℕ) (h : (machine start starts).Reachable w) :
    (machine start starts).Reachable (is.foldl (advance answer) w) := by
  induction is generalizing w with
  | nil => exact h
  | cons i is ih => exact ih (reachable_advance answer i h)

/-- The program and the state after `n` steps of one thread. -/
def solo (answer : ∀ q, ρ q) : ℕ → Program σ ρ Unit → σ → Program σ ρ Unit × σ
  | n + 1, .atomic f k, s => solo answer n (k s) (f s)
  | n + 1, .call q k, s => solo answer n (k (answer q)) s
  | _, p, s => (p, s)

/-- One thread goes on alone. -/
theorem reachable_solo (answer : ∀ q, ρ q) (n : ℕ) {i : ℕ} {p : Program σ ρ Unit}
    (hp : w.threads i = some p) (h : (machine start starts).Reachable w) :
    ∃ w', (machine start starts).Reachable w' ∧ w'.state = (solo answer n p w.state).2 := by
  induction n generalizing w p with
  | zero => exact ⟨w, h, rfl⟩
  | succ n ih =>
    cases p with
    | done a => exact ⟨w, h, rfl⟩
    | fail e => exact ⟨w, h, rfl⟩
    | atomic f k => exact ih (p := k w.state) (Function.update_self _ _ _) (.step h (.atomic hp))
    | call q k =>
      exact ih (w := w.put i w.state (k (answer q))) (Function.update_self _ _ _)
        (.step h (.call (answer q) hp))

end

end Crew
end Verif
