/-
  What one program guarantees while others may change the state between its atomic steps.

  `Guar` is the condition on one program: whatever the others did in between, its atomic steps keep
  an invariant and stay within a relation.  A program may know something that no step of the others
  destroys.  It may hold tokens, which it gets where its atomic steps issue them, and every request
  that costs a token takes one that it holds; so no token is spent more often than issued.
-/
import Mathlib.Data.List.Count
import SmartHome.Lib.Program

namespace Verif

open Program

variable {ι σ : Type} {ρ : ι → Type} {α β τ : Type}

/-- What the atomic steps of programs keep, what others may do, which states can be, and how tokens
    are issued and spent. -/
structure Rules (σ ι τ : Type) where
  inv : σ → Prop
  rel : σ → σ → Prop
  refl : ∀ s, rel s s
  others : σ → σ → Prop
  possible : σ → Prop
  issued : σ → List τ
  cost : ι → Option τ

/-- A fact that no step of the others destroys. -/
structure Rules.Known (G : Rules σ ι τ) where
  holds : σ → Prop
  stable : ∀ s s', G.others s s' → holds s → holds s'

/-- What follows from a fact. -/
def Rules.Known.Tells {G : Rules σ ι τ} (A : G.Known) (P : σ → Prop) : Prop := ∀ s, A.holds s → P s

/-- The fact that always holds. -/
def Rules.Known.trivial (G : Rules σ ι τ) : G.Known := ⟨fun _ => True, fun _ _ _ h => h⟩

section
variable [DecidableEq τ] (G : Rules σ ι τ)

/-- From wherever `A` holds, with the tokens `held`: every atomic step keeps the invariant and the
    relation, every request that costs a token takes one, and the result satisfies `post`. -/
def Guar (ok : Program σ ρ α → σ → Prop) (post : α → G.Known → List τ → Prop) :
    Program σ ρ α → G.Known → List τ → Prop
  | .done a, A, held => post a A held
  | .fail _, _, _ => True
  | .atomic f k, A, held => ∀ s, G.inv s → A.holds s → ok (.atomic f k) s → G.possible (f s) →
      G.inv (f s) ∧ G.rel s (f s) ∧ ∃ (A' : G.Known) (held' : List τ), A'.holds (f s) ∧
        (∀ t, held'.count t + (G.issued s).count t ≤ held.count t + (G.issued (f s)).count t) ∧
        Guar ok post (k s) A' held'
  | .call q k, A, held => (∀ t ∈ G.cost q, t ∈ held) ∧
      ∀ r, Guar ok post (k r) A (held.diff (G.cost q).toList)

end

section
variable [DecidableEq τ] {G : Rules σ ι τ} {ok : Program σ ρ α → σ → Prop}
  {post : α → G.Known → List τ → Prop} {A : G.Known} {held : List τ}

/-- **The rule of sequences.** -/
theorem guar_bind {p : Program σ ρ β} {k : β → Program σ ρ α}
    (h : Guar G (fun _ _ => True) (fun b A held => Guar G ok post (k b) A held) p A held) :
    Guar G ok post (p >>= k) A held := by
  induction p generalizing A held with
  | done b => exact h
  | fail e => trivial
  | atomic f g ih =>
    intro s hs hA _ hpossible
    obtain ⟨hinv, hrel, A', held', hA', hcount, hk⟩ := h s hs hA trivial hpossible
    exact ⟨hinv, hrel, A', held', hA', hcount, ih s hk⟩
  | call q g ih => exact ⟨h.1, fun r => ih r (h.2 r)⟩

/-- A failure that is caught, with whatever is known and held by then. -/
theorem guar_attempt {p : Program σ ρ β} {k : Except String β → Program σ ρ α}
    (h : Guar G (fun _ _ => True) (fun b A held => Guar G ok post (k (.ok b)) A held) p A held)
    (herror : ∀ e A held, Guar G ok post (k (.error e)) A held) :
    Guar G ok post (p.attempt >>= k) A held := by
  induction p generalizing A held with
  | done b => exact h
  | fail e => exact herror e A held
  | atomic f g ih =>
    intro s hs hA _ hpossible
    obtain ⟨hinv, hrel, A', held', hA', hcount, hk⟩ := h s hs hA trivial hpossible
    exact ⟨hinv, hrel, A', held', hA', hcount, ih s hk⟩
  | call q g ih => exact ⟨h.1, fun r => ih r (h.2 r)⟩

theorem Guar.mono {post' : α → G.Known → List τ → Prop} {p : Program σ ρ α} (h : Guar G ok post p A held)
    (hpost : ∀ a A held, post a A held → post' a A held) : Guar G ok post' p A held := by
  induction p generalizing A held with
  | done a => exact hpost a A held h
  | fail e => trivial
  | atomic f k ih =>
    intro s hs hA hok hpossible
    obtain ⟨hinv, hrel, A', held', hA', hcount, hk⟩ := h s hs hA hok hpossible
    exact ⟨hinv, hrel, A', held', hA', hcount, ih s hk⟩
  | call q k ih => exact ⟨h.1, fun r => ih r (h.2 r)⟩

/-- A program after which nothing special is known or held. -/
theorem guar_then {p : Program σ ρ β} {k : β → Program σ ρ α}
    (h : Guar G (fun _ _ => True) (fun _ _ _ => True) p A held)
    (hk : ∀ b A held, Guar G ok post (k b) A held) : Guar G ok post (p >>= k) A held :=
  guar_bind (h.mono fun b A held _ => hk b A held)

theorem guar_require {c : Prop} [Decidable c] {e : String} {k : Unit → Program σ ρ α}
    (h : c → Guar G ok post (k ()) A held) : Guar G ok post (require c e >>= k) A held := by
  unfold require
  split_ifs with hc
  · exact h hc
  · trivial

theorem guar_lift {x : Except String β} {k : β → Program σ ρ α}
    (h : ∀ b, x = .ok b → Guar G ok post (k b) A held) : Guar G ok post (lift x >>= k) A held := by
  cases x with
  | ok b => exact h b rfl
  | error e => trivial

theorem guar_get {k : σ → Program σ ρ α} (h : ∀ s, Guar G ok post (k s) A held) :
    Guar G ok post (get >>= k) A held := by
  intro s hs hA _ _
  exact ⟨hs, G.refl s, A, held, hA, fun t => Nat.le_refl _, h s⟩

/-- A request that costs nothing. -/
theorem guar_ask {q : ι} {k : ρ q → Program σ ρ α} (hq : G.cost q = none)
    (h : ∀ r, Guar G ok post (k r) A held) : Guar G ok post (ask q >>= k) A held := by
  refine ⟨fun t ht => ?_, fun r => ?_⟩
  · rw [hq] at ht; cases ht
  · rw [hq]; exact h r

/-- A request that costs the token that was earned last. -/
theorem guar_spend {q : ι} {k : ρ q → Program σ ρ α} {t : τ} (hq : G.cost q = some t)
    (h : ∀ r, Guar G ok post (k r) A held) : Guar G ok post (ask q >>= k) A (t :: held) := by
  refine ⟨fun t' ht' => ?_, fun r => ?_⟩
  · rw [hq] at ht'
    rw [Option.some.inj ht']
    exact List.mem_cons_self
  · have hdiff : (t :: held).diff (G.cost q).toList = held := by rw [hq]; simp
    rw [hdiff]
    exact h r

/-- A transaction after which more is known, or that issues tokens. -/
theorem guar_earn {f : σ → Except String (σ × β)} {k : β → Program σ ρ α}
    (h : ∀ s s' b, G.inv s → A.holds s → G.possible s' → f s = .ok (s', b) → G.inv s' ∧ G.rel s s' ∧
      ∃ (A' : G.Known) (held' : List τ), A'.holds s' ∧
        (∀ t, held'.count t + (G.issued s).count t ≤ held.count t + (G.issued s').count t) ∧
        Guar G ok post (k b) A' held') :
    Guar G ok post (commit f >>= k) A held := by
  intro s hs hA _ hpossible
  cases hf : f s with
  | ok r =>
    simp only [hf] at hpossible ⊢
    exact h s r.1 r.2 hs hA hpossible hf
  | error e =>
    simp only [hf]
    exact ⟨hs, G.refl s, A, held, hA, fun t => Nat.le_refl _, trivial⟩

/-- The token that is issued last may be held. -/
theorem count_earned {issued issued' : List τ} {t : τ} (h : issued' = issued ++ [t]) (t' : τ) :
    (t :: held).count t' + issued.count t' ≤ held.count t' + issued'.count t' := by
  rw [h, List.count_append, List.count_cons, List.count_singleton]
  omega

/-- The last transaction of a program, in a step that is taken. -/
theorem guar_last {f : σ → Except String (σ × α)}
    (h : ∀ s s' b, G.inv s → A.holds s → ok (commit f) s → f s = .ok (s', b) →
      G.inv s' ∧ G.rel s s' ∧ (G.issued s).Sublist (G.issued s')) :
    Guar G ok (fun _ _ _ => True) (commit f) A held := by
  intro s hs hA hok _
  cases hf : f s with
  | ok r =>
    obtain ⟨hinv, hrel, hissued⟩ := h s r.1 r.2 hs hA hok hf
    simp only [hf]
    exact ⟨hinv, hrel, .trivial G, held, trivial,
      fun t => Nat.add_le_add_left (hissued.count_le t) _, trivial⟩
  | error e =>
    simp only [hf]
    exact ⟨hs, G.refl s, A, held, hA, fun t => Nat.le_refl _, trivial⟩

end

end Verif
