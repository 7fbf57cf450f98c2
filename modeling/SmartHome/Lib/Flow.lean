/-
  Flows: nodes over a shared context.  A node handles one message at a time, in one atomic step,
  and sends messages to other nodes; what was sent waits until it is handled, in any order, or gets
  lost.  The clock goes on in between, and the rest of the program changes the context.
-/
import Mathlib.Algebra.Order.Ring.Rat
import SmartHome.Lib.Machine

namespace Verif

variable {σ μ : Type}

/-- What the nodes do with a message at a time: the new context, and what is sent.  A message says
    which node it is for. -/
abbrev Nodes (σ μ : Type) := ℚ → μ → σ → σ × List μ

/-- A message that was handled, when, and on which context. -/
structure Handled (σ μ : Type) where
  message : μ
  time : ℚ
  context : σ

/-- What was sent when the message was handled. -/
def Handled.sent (F : Nodes σ μ) (h : Handled σ μ) : List μ := (F h.time h.message h.context).2

/-- A flow as it runs. -/
structure Board (σ μ : Type) where
  context : σ
  time : ℚ
  waiting : List μ
  /-- The messages that came from outside. -/
  entered : List μ
  history : List (Handled σ μ)

/-- Where a flow starts, which messages come from outside, and what else changes the context. -/
structure Outside (σ μ : Type) where
  start : σ → Prop
  enters : Board σ μ → μ → Prop
  others : σ → σ → Prop

/-- The flow handles a message. -/
def Board.handle (F : Nodes σ μ) (b : Board σ μ) (before : List μ) (m : μ) (after : List μ) : Board σ μ where
  context := (F b.time m b.context).1
  time := b.time
  waiting := before ++ after ++ (F b.time m b.context).2
  entered := b.entered
  history := b.history ++ [⟨m, b.time, b.context⟩]

/-- What may happen next. -/
inductive Board.Step (F : Nodes σ μ) (E : Outside σ μ) : Board σ μ → Board σ μ → Prop
  | enter {b : Board σ μ} {m : μ} : E.enters b m →
      Step F E b { b with waiting := b.waiting ++ [m], entered := b.entered ++ [m] }
  | lose {b : Board σ μ} {before after : List μ} {m : μ} : b.waiting = before ++ m :: after →
      Step F E b { b with waiting := before ++ after }
  | handle {b : Board σ μ} {before after : List μ} {m : μ} : b.waiting = before ++ m :: after →
      Step F E b (b.handle F before m after)
  | later {b : Board σ μ} {t : ℚ} : b.time ≤ t → Step F E b { b with time := t }
  | others {b : Board σ μ} {s : σ} : E.others b.context s → Step F E b { b with context := s }

/-- The runs of a flow. -/
def flowMachine (F : Nodes σ μ) (E : Outside σ μ) : Machine (Board σ μ) where
  start b := E.start b.context ∧ b.waiting = [] ∧ b.entered = [] ∧ b.history = []
  step := Board.Step F E

/-! ## Invariants -/

/-- What holds of the context, the time and the history, and what holds of every message that
    waits. -/
structure FlowInvariant (F : Nodes σ μ) (E : Outside σ μ) (I : σ → ℚ → List (Handled σ μ) → Prop)
    (fits : μ → σ → ℚ → Prop) : Prop where
  start : ∀ s t, E.start s → I s t []
  enter : ∀ b m, I b.context b.time b.history → E.enters b m → fits m b.context b.time
  handle : ∀ s t h m, I s t h → fits m s t → I (F t m s).1 t (h ++ [⟨m, t, s⟩])
  sent : ∀ s t h m, I s t h → fits m s t → ∀ o ∈ (F t m s).2, fits o (F t m s).1 t
  kept : ∀ s t h m m', I s t h → fits m s t → fits m' s t → fits m' (F t m s).1 t
  later : ∀ s t t' h, I s t h → t ≤ t' → I s t' h ∧ ∀ m, fits m s t → fits m s t'
  others : ∀ s s' t h, I s t h → E.others s s' → I s' t h ∧ ∀ m, fits m s t → fits m s' t

/-- The same, where what holds of a message may refer to what was handled before. -/
structure HistoryInvariant (F : Nodes σ μ) (E : Outside σ μ) (I : σ → ℚ → List (Handled σ μ) → Prop)
    (fits : μ → σ → ℚ → List (Handled σ μ) → Prop) : Prop where
  start : ∀ s t, E.start s → I s t []
  enter : ∀ b m, I b.context b.time b.history → E.enters b m → fits m b.context b.time b.history
  handle : ∀ s t h m, I s t h → fits m s t h → I (F t m s).1 t (h ++ [⟨m, t, s⟩])
  sent : ∀ s t h m, I s t h → fits m s t h →
    ∀ o ∈ (F t m s).2, fits o (F t m s).1 t (h ++ [⟨m, t, s⟩])
  kept : ∀ s t h m m', I s t h → fits m s t h → fits m' s t h →
    fits m' (F t m s).1 t (h ++ [⟨m, t, s⟩])
  later : ∀ s t t' h, I s t h → t ≤ t' → I s t' h ∧ ∀ m, fits m s t h → fits m s t' h
  others : ∀ s s' t h, I s t h → E.others s s' → I s' t h ∧ ∀ m, fits m s t h → fits m s' t h

variable {F : Nodes σ μ} {E : Outside σ μ} {I : σ → ℚ → List (Handled σ μ) → Prop} {b : Board σ μ}

/-- **The invariant rule of flows.** -/
theorem HistoryInvariant.reachable {fits : μ → σ → ℚ → List (Handled σ μ) → Prop}
    (h : HistoryInvariant F E I fits) (hb : (flowMachine F E).Reachable b) :
    I b.context b.time b.history ∧ ∀ m ∈ b.waiting, fits m b.context b.time b.history := by
  induction hb with
  | @start b hstart =>
    obtain ⟨hs, hwaiting, -, hhistory⟩ := hstart
    rw [hwaiting, hhistory]
    exact ⟨h.start _ _ hs, fun m hm => by cases hm⟩
  | @step b _ _ hstep ih =>
    obtain ⟨hI, hfits⟩ := ih
    cases hstep with
    | enter henters =>
      refine ⟨hI, fun m hm => ?_⟩
      rcases List.mem_append.1 hm with hm | hm
      · exact hfits m hm
      · rw [List.mem_singleton.1 hm]
        exact h.enter b _ hI henters
    | lose hwaiting =>
      refine ⟨hI, fun m hm => hfits m ?_⟩
      rw [hwaiting]
      rcases List.mem_append.1 hm with hm | hm
      · exact List.mem_append_left _ hm
      · exact List.mem_append_right _ (List.mem_cons_of_mem _ hm)
    | @handle before after m hwaiting =>
      have hm : fits m b.context b.time b.history :=
        hfits m (hwaiting ▸ List.mem_append_right _ List.mem_cons_self)
      refine ⟨h.handle _ _ _ _ hI hm, fun m' hm' => ?_⟩
      rcases List.mem_append.1 hm' with hm' | hm'
      · refine h.kept _ _ _ _ _ hI hm (hfits m' ?_)
        rw [hwaiting]
        rcases List.mem_append.1 hm' with hm' | hm'
        · exact List.mem_append_left _ hm'
        · exact List.mem_append_right _ (List.mem_cons_of_mem _ hm')
      · exact h.sent _ _ _ _ hI hm m' hm'
    | later ht =>
      obtain ⟨hI', hlater⟩ := h.later _ _ _ _ hI ht
      exact ⟨hI', fun m hm => hlater m (hfits m hm)⟩
    | others hothers =>
      obtain ⟨hI', hothers⟩ := h.others _ _ _ _ hI hothers
      exact ⟨hI', fun m hm => hothers m (hfits m hm)⟩

theorem FlowInvariant.history {fits : μ → σ → ℚ → Prop} (h : FlowInvariant F E I fits) :
    HistoryInvariant F E I fun m s t _ => fits m s t where
  start := h.start
  enter := h.enter
  handle := h.handle
  sent := h.sent
  kept := h.kept
  later := h.later
  others := h.others

theorem FlowInvariant.reachable {fits : μ → σ → ℚ → Prop} (h : FlowInvariant F E I fits)
    (hb : (flowMachine F E).Reachable b) :
    I b.context b.time b.history ∧ ∀ m ∈ b.waiting, fits m b.context b.time :=
  h.history.reachable hb

/-! ## Histories -/

/-- The last entry, or an earlier one. -/
theorem split_concat {α : Type} {l before after : List α} {a x : α}
    (h : l ++ [a] = before ++ x :: after) :
    (after = [] ∧ before = l ∧ x = a) ∨ ∃ rest, after = rest ++ [a] ∧ l = before ++ x :: rest := by
  rcases List.eq_nil_or_concat after with rfl | ⟨rest, y, rfl⟩
  · obtain ⟨rfl, hxa⟩ := List.append_inj' h rfl
    exact Or.inl ⟨rfl, rfl, (List.cons.inj hxa).1.symm⟩
  · rw [List.concat_eq_append, ← List.cons_append, ← List.append_assoc] at h
    obtain ⟨rfl, hya⟩ := List.append_inj' h rfl
    obtain rfl := (List.cons.inj hya).1
    exact Or.inr ⟨rest, List.concat_eq_append, rfl⟩

/-- `P` holds of every entry and what came before it. -/
def AtEach (P : List (Handled σ μ) → Handled σ μ → Prop) (history : List (Handled σ μ)) : Prop :=
  ∀ before h after, history = before ++ h :: after → P before h

theorem atEach_nil {P : List (Handled σ μ) → Handled σ μ → Prop} : AtEach P [] := by
  intro before h after hsplit
  exact absurd hsplit.symm (List.append_ne_nil_of_right_ne_nil _ (List.cons_ne_nil _ _))

theorem AtEach.concat {P : List (Handled σ μ) → Handled σ μ → Prop} {history : List (Handled σ μ)}
    {h : Handled σ μ} (hall : AtEach P history) (hlast : P history h) : AtEach P (history ++ [h]) := by
  intro before x after hsplit
  rcases split_concat hsplit with ⟨-, rfl, rfl⟩ | ⟨rest, -, hearlier⟩
  · exact hlast
  · exact hall before x rest hearlier

/-! ## Schedules -/

/-- A step of a schedule. -/
inductive Act (μ : Type) where
  | enter (m : μ)
  | handle (i : ℕ)
  | later (t : ℚ)

/-- The board after a step of a schedule. -/
def Board.act (F : Nodes σ μ) (b : Board σ μ) : Act μ → Board σ μ
  | .enter m => { b with waiting := b.waiting ++ [m], entered := b.entered ++ [m] }
  | .handle i => match b.waiting[i]? with
    | some m => b.handle F (b.waiting.take i) m (b.waiting.drop (i + 1))
    | none => b
  | .later t => if b.time ≤ t then { b with time := t } else b

theorem reachable_act {a : Act μ} (hb : (flowMachine F E).Reachable b)
    (henters : ∀ m, a = .enter m → E.enters b m) : (flowMachine F E).Reachable (b.act F a) := by
  cases a with
  | enter m => exact .step hb (.enter (henters m rfl))
  | handle i =>
    simp only [Board.act]
    cases hm : b.waiting[i]? with
    | none => exact hb
    | some m =>
      obtain ⟨hi, rfl⟩ := List.getElem?_eq_some_iff.1 hm
      refine .step hb (.handle ?_)
      rw [← List.drop_eq_getElem_cons hi, List.take_append_drop]
  | later t =>
    simp only [Board.act]
    split_ifs with ht
    · exact .step hb (.later ht)
    · exact hb

theorem reachable_acts {acts : List (Act μ)} (hb : (flowMachine F E).Reachable b)
    (henters : ∀ b m, Act.enter m ∈ acts → E.enters b m) :
    (flowMachine F E).Reachable (acts.foldl (Board.act F) b) := by
  induction acts generalizing b with
  | nil => exact hb
  | cons a acts ih =>
    refine ih (reachable_act hb fun m hm => henters b m (hm ▸ List.mem_cons_self)) fun b' m hm => ?_
    exact henters b' m (List.mem_cons_of_mem _ hm)

end Verif
