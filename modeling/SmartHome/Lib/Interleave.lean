/-
  Programs that run side by side on one durable state.  An atomic step of one may come between any
  two steps of another, and a program may die at any point.
-/
import Mathlib.Data.List.Count
import Mathlib.Data.List.Nodup
import Mathlib.Data.List.Forall2
import SmartHome.Lib.Guarantee
import SmartHome.Lib.Machine

namespace Verif

open Program

variable {ι σ : Type} {ρ : ι → Type} {α β τ : Type}

/-- Programs that run on one state, and the requests made so far with the states in which they
    were made. -/
structure Pool (σ : Type) (ρ : ι → Type) (α : Type) where
  state : σ
  calls : List (σ × ι)
  threads : List (Program σ ρ α)

/-- What may happen next.  Only programs that `starts` allows are started, and only atomic steps
    that `ok` allows are taken. -/
inductive Pool.Step (starts : Program σ ρ α → Prop) (ok : Program σ ρ α → σ → Prop) :
    Pool σ ρ α → Pool σ ρ α → Prop
  | start {w : Pool σ ρ α} {p : Program σ ρ α} : starts p →
      Step starts ok w { w with threads := w.threads ++ [p] }
  | crash {w : Pool σ ρ α} {ts us : List (Program σ ρ α)} {p : Program σ ρ α} :
      w.threads = ts ++ p :: us → Step starts ok w { w with threads := ts ++ us }
  | atomic {w : Pool σ ρ α} {ts us : List (Program σ ρ α)} {f : σ → σ} {k : σ → Program σ ρ α} :
      w.threads = ts ++ .atomic f k :: us → ok (.atomic f k) w.state →
      Step starts ok w { w with state := f w.state, threads := ts ++ k w.state :: us }
  | call {w : Pool σ ρ α} {ts us : List (Program σ ρ α)} {q : ι} {k : ρ q → Program σ ρ α} (r : ρ q) :
      w.threads = ts ++ .call q k :: us →
      Step starts ok w { w with calls := w.calls ++ [(w.state, q)], threads := ts ++ k r :: us }

/-- The runs of a pool from a state. -/
def poolMachine (start : σ → Prop) (starts : Program σ ρ α → Prop) (ok : Program σ ρ α → σ → Prop) :
    Machine (Pool σ ρ α) where
  start w := start w.state ∧ w.calls = [] ∧ w.threads = []
  step := Pool.Step starts ok

/-! ## Schedules -/

/-- The next step of one program, where the outside answers by `answer`. -/
def Pool.advance (answer : ∀ q, ρ q) (i : ℕ) (w : Pool σ ρ α) : Pool σ ρ α :=
  match w.threads[i]? with
  | some (.atomic f k) => { w with state := f w.state, threads := w.threads.set i (k w.state) }
  | some (.call q k) => { w with
      calls := w.calls ++ [(w.state, q)], threads := w.threads.set i (k (answer q)) }
  | _ => w

/-- One more program. -/
def Pool.launch (p : Program σ ρ α) (w : Pool σ ρ α) : Pool σ ρ α :=
  { w with threads := w.threads ++ [p] }

theorem exists_split {γ : Type} {l : List γ} {i : ℕ} {a : γ} (h : l[i]? = some a) :
    ∃ ts us, l = ts ++ a :: us ∧ ∀ b, l.set i b = ts ++ b :: us := by
  obtain ⟨hi, ha⟩ := List.getElem?_eq_some_iff.1 h
  refine ⟨l.take i, l.drop (i + 1), ?_, fun b => List.set_eq_take_append_cons_drop.trans (if_pos hi)⟩
  rw [← ha, List.getElem_cons_drop hi, List.take_append_drop]

section
variable {start : σ → Prop} {starts : Program σ ρ α → Prop} {ok : Program σ ρ α → σ → Prop}
  {w : Pool σ ρ α}

theorem reachable_launch {p : Program σ ρ α} (hp : starts p)
    (h : (poolMachine start starts ok).Reachable w) :
    (poolMachine start starts ok).Reachable (w.launch p) := .step h (.start hp)

theorem step_advance (starts : Program σ ρ α → Prop) (answer : ∀ q, ρ q) (w : Pool σ ρ α)
    (i : ℕ) (hok : ∀ p, w.threads[i]? = some p → ok p w.state) :
    w.advance answer i = w ∨ Pool.Step starts ok w (w.advance answer i) := by
  unfold Pool.advance
  cases ht : w.threads[i]? with
  | none => exact Or.inl rfl
  | some p =>
    obtain ⟨ts, us, hts, hset⟩ := exists_split ht
    cases p with
    | done a => exact Or.inl rfl
    | fail e => exact Or.inl rfl
    | atomic f k => simp only [hset]; exact Or.inr (.atomic hts (hok _ ht))
    | call q k => simp only [hset]; exact Or.inr (.call (answer q) hts)

theorem reachable_advance (answer : ∀ q, ρ q) (i : ℕ)
    (hok : ∀ p, w.threads[i]? = some p → ok p w.state)
    (h : (poolMachine start starts ok).Reachable w) :
    (poolMachine start starts ok).Reachable (w.advance answer i) := by
  rcases step_advance starts answer w i hok with heq | hstep
  · rw [heq]; exact h
  · exact .step h hstep

/-- A program that is started, and the steps of that and other programs after it. -/
def Pool.play (answer : ∀ q, ρ q) (w : Pool σ ρ α) (act : Program σ ρ α × List ℕ) : Pool σ ρ α :=
  act.2.foldl (fun w i => w.advance answer i) (w.launch act.1)

theorem reachable_play (answer : ∀ q, ρ q) {acts : List (Program σ ρ α × List ℕ)}
    (hacts : ∀ act ∈ acts, starts act.1)
    (h : (poolMachine start starts fun _ _ => True).Reachable w) :
    (poolMachine start starts fun _ _ => True).Reachable (acts.foldl (Pool.play answer) w) := by
  have hsteps : ∀ (is : List ℕ) {w : Pool σ ρ α},
      (poolMachine start starts fun _ _ => True).Reachable w →
      (poolMachine start starts fun _ _ => True).Reachable
        (is.foldl (fun w i => w.advance answer i) w) := by
    intro is
    induction is with
    | nil => exact id
    | cons i is ih => exact fun h => ih (reachable_advance answer i (fun _ _ => trivial) h)
  induction acts generalizing w with
  | nil => exact h
  | cons act acts ih =>
    refine ih (fun act' h' => hacts act' (List.mem_cons_of_mem _ h')) ?_
    exact hsteps act.2 (reachable_launch (hacts act List.mem_cons_self) h)

end

/-! ## Pools of programs that guarantee -/

section
variable [DecidableEq τ] {G : Rules σ ι τ} {starts : Program σ ρ α → Prop}
  {ok : Program σ ρ α → σ → Prop} {w w' : Pool σ ρ α}

/-- The tokens that were spent. -/
def Pool.spent (G : Rules σ ι τ) (w : Pool σ ρ α) : List τ := w.calls.filterMap fun c => G.cost c.2

/-- What a program knows and holds. -/
structure Owner (G : Rules σ ι τ) where
  known : G.Known
  held : List τ

/-- The program guarantees its steps, from what it knows and holds. -/
def Owns (ok : Program σ ρ α → σ → Prop) (s : σ) (p : Program σ ρ α) (o : Owner G) : Prop :=
  o.known.holds s ∧ Guar G ok (fun _ _ _ => True) p o.known o.held

/-- The invariant of a pool: no more tokens are spent or held than issued. -/
structure Pool.Good (G : Rules σ ι τ) (ok : Program σ ρ α → σ → Prop) (w : Pool σ ρ α) : Prop where
  inv : G.inv w.state
  owners : ∃ os : List (Owner G), List.Forall₂ (Owns ok w.state) w.threads os ∧
    ∀ t, (w.spent G).count t + (os.flatMap Owner.held).count t ≤ (G.issued w.state).count t
  calls : ∀ c ∈ w.calls, G.inv c.1 ∧ ∀ t ∈ G.cost c.2, t ∈ G.issued c.1

/-- The programs are the others of one another, in any state. -/
structure Rules.Peers (G : Rules σ ι τ) : Prop where
  others : ∀ s s', G.rel s s' → G.others s s'
  possible : ∀ s, G.possible s

/-- What was known stays known. -/
theorem owns_stable (hG : G.Peers) {s s' : σ} (hrel : G.rel s s') {ts : List (Program σ ρ α)}
    {os : List (Owner G)} (h : List.Forall₂ (Owns ok s) ts os) : List.Forall₂ (Owns ok s') ts os :=
  h.imp fun _ o ho => ⟨o.known.stable s s' (hG.others s s' hrel) ho.1, ho.2⟩

theorem forall₂_split {γ δ : Type} {R : γ → δ → Prop} {ts us : List γ} {p : γ} {os : List δ}
    (h : List.Forall₂ R (ts ++ p :: us) os) : ∃ as o bs, os = as ++ o :: bs ∧ List.Forall₂ R ts as ∧
      R p o ∧ List.Forall₂ R us bs := by
  induction ts generalizing os with
  | nil =>
    cases h with
    | cons hp hus => exact ⟨[], _, _, rfl, .nil, hp, hus⟩
  | cons t ts ih =>
    cases h with
    | cons ht h =>
      obtain ⟨as, o, bs, rfl, hts, hp, hus⟩ := ih h
      exact ⟨_ :: as, o, bs, rfl, .cons ht hts, hp, hus⟩

theorem Pool.Good.step (hG : G.Peers) (hstarts : ∀ p, starts p → Guar G ok (fun _ _ _ => True) p (.trivial G) [])
    (h : w.Good G ok) (hs : Pool.Step starts ok w w') :
    w'.Good G ok ∧ G.rel w.state w'.state := by
  obtain ⟨hinv, ⟨os, hos, hcount⟩, hcalls⟩ := h
  cases hs with
  | start hp =>
    refine ⟨⟨hinv, ⟨os ++ [⟨.trivial G, []⟩], ?_, fun t => ?_⟩, hcalls⟩, G.refl _⟩
    · exact List.rel_append hos (.cons ⟨trivial, hstarts _ hp⟩ .nil)
    · simpa [Pool.spent] using hcount t
  | crash hts =>
    rw [hts] at hos
    obtain ⟨as, o, bs, rfl, has, -, hbs⟩ := forall₂_split hos
    refine ⟨⟨hinv, ⟨as ++ bs, List.rel_append has hbs, fun t => ?_⟩, hcalls⟩, G.refl _⟩
    have := hcount t
    simp only [Pool.spent, List.flatMap_append, List.flatMap_cons, List.count_append] at this ⊢
    omega
  | @atomic ts us f k hts hok =>
    rw [hts] at hos
    obtain ⟨as, o, bs, rfl, has, ⟨hknown, hguar⟩, hbs⟩ := forall₂_split hos
    obtain ⟨hinv', hrel, A', held', hA', hissued, hk⟩ := hguar w.state hinv hknown hok (hG.possible _)
    refine ⟨⟨hinv', ⟨as ++ ⟨A', held'⟩ :: bs, ?_, fun t => ?_⟩, hcalls⟩, hrel⟩
    · exact List.rel_append (owns_stable hG hrel has) (.cons ⟨hA', hk⟩ (owns_stable hG hrel hbs))
    · have := hcount t
      have := hissued t
      simp only [Pool.spent, List.flatMap_append, List.flatMap_cons, List.count_append] at *
      omega
  | @call ts us q k r hts =>
    rw [hts] at hos
    obtain ⟨as, o, bs, rfl, has, ⟨hknown, hcost, hguar⟩, hbs⟩ := forall₂_split hos
    -- the token that the request costs goes from the held to the spent ones
    have hmove : ∀ t, (G.cost q).toList.count t + (o.held.diff (G.cost q).toList).count t ≤
        o.held.count t := by
      intro t
      cases hq : G.cost q with
      | none => simp
      | some t' =>
        have hmem := hcost t' (by rw [hq]; rfl)
        rw [Option.toList_some, List.diff_cons, List.diff_nil, List.count_singleton]
        by_cases ht : t' = t
        · subst ht
          rw [List.count_erase_self]
          have := List.count_pos_iff.2 hmem
          simp
          omega
        · rw [List.count_erase_of_ne (fun h => ht h.symm)]
          simp [ht]
    have hspent : ∀ t, (Pool.spent G ⟨w.state, w.calls ++ [(w.state, q)], ts ++ k r :: us⟩).count t =
        (w.spent G).count t + (G.cost q).toList.count t := by
      intro t
      cases hq : G.cost q <;> simp [Pool.spent, hq]
    refine ⟨⟨hinv, ⟨as ++ ⟨o.known, o.held.diff (G.cost q).toList⟩ :: bs, ?_, fun t => ?_⟩, ?_⟩,
      G.refl _⟩
    · exact List.rel_append has (.cons ⟨hknown, hguar r⟩ hbs)
    · have := hcount t
      have := hmove t
      rw [hspent]
      simp only [List.flatMap_append, List.flatMap_cons, List.count_append] at *
      omega
    · intro c hc
      rcases List.mem_append.1 hc with hc | hc
      · exact hcalls c hc
      · rw [List.mem_singleton.1 hc]
        refine ⟨hinv, fun t ht => ?_⟩
        have hheld : t ∈ (as ++ o :: bs).flatMap Owner.held :=
          List.mem_flatMap.2 ⟨o, List.mem_append_right _ List.mem_cons_self, hcost t ht⟩
        have := hcount t
        have := List.count_pos_iff.2 hheld
        show t ∈ G.issued w.state
        exact List.count_pos_iff.1 (by omega)

/-- **The rule of pools.** -/
theorem Pool.Good.reachable {start : σ → Prop} (hG : G.Peers) (hstart : ∀ s, start s → G.inv s)
    (hstarts : ∀ p, starts p → Guar G ok (fun _ _ _ => True) p (.trivial G) [])
    (h : (poolMachine start starts ok).Reachable w) : w.Good G ok := by
  refine Machine.Invariant.reachable (p := Pool.Good G ok) ⟨?_, ?_⟩ h
  · rintro w ⟨hs, hc, ht⟩
    refine ⟨hstart _ hs, ⟨[], by rw [ht]; exact .nil, fun t => ?_⟩, ?_⟩
    · simp [Pool.spent, hc]
    · rw [hc]; intro c hc; cases hc
  · intro w w' _ h hs
    exact (h.step hG hstarts hs).1

/-- No token is spent more often than issued. -/
theorem Pool.Good.spent_le (h : w.Good G ok) (t : τ) :
    (w.spent G).count t ≤ (G.issued w.state).count t := by
  obtain ⟨os, -, hcount⟩ := h.owners
  have := hcount t
  omega

theorem Pool.Good.nodup (h : w.Good G ok) (hissued : (G.issued w.state).Nodup) : (w.spent G).Nodup := by
  exact List.nodup_iff_count_le_one.2 fun t =>
    Nat.le_trans (h.spent_le t) (List.nodup_iff_count_le_one.1 hissued t)

end

end Verif
