/-
  Conditions on the states of a program, whatever the outside answers: `Stays` holds where every
  state in which the program may stop satisfies `P`, and `Ends` where the program returns if the
  outside answers by `answer`.
-/
import SmartHome.Lib.Program

namespace Verif.Program

variable {ι σ : Type} {ρ : ι → Type} {α β : Type}

/-! ## Every state -/

/-- Every state in which the program may stop satisfies `P`, and what it returns satisfies `post` in
    the state that it leaves. -/
def Stays (P : σ → Prop) (post : α → σ → Prop) : Program σ ρ α → σ → Prop
  | done a, s => P s ∧ post a s
  | fail _, s => P s
  | atomic f k, s => P s ∧ Stays P post (k s) (f s)
  | call _ k, s => P s ∧ ∀ r, Stays P post (k r) s

section
variable {P : σ → Prop} {post : α → σ → Prop} {p : Program σ ρ α} {s : σ} {w w' : World σ ι}

theorem Stays.start (h : p.Stays P post s) : P s := by
  cases p with
  | fail e => exact h
  | _ => exact h.1

/-- **The rule of states.** -/
theorem Stays.run (h : p.Stays P post w.state) (hr : Run p w w') : P w'.state := by
  induction hr with
  | stop => exact h.start
  | atomic _ ih => exact ih h.2
  | call r _ ih => exact ih (h.2 r)

theorem Stays.returns {a : α} (h : p.Stays P post w.state) (hr : Returns p w a w') : post a w'.state := by
  induction hr with
  | done => exact h.2
  | atomic _ ih => exact ih h.2
  | call r _ ih => exact ih (h.2 r)

theorem Stays.mono {P' : σ → Prop} {post' : α → σ → Prop} (h : p.Stays P post s) (hP : ∀ s', P s' → P' s')
    (hpost : ∀ a s', P s' → post a s' → post' a s') : p.Stays P' post' s := by
  induction p generalizing s with
  | done a => exact ⟨hP s h.1, hpost a s h.1 h.2⟩
  | fail e => exact hP s h
  | atomic f k ih => exact ⟨hP s h.1, ih s h.2⟩
  | call q k ih => exact ⟨hP s h.1, fun r => ih r (h.2 r)⟩

/-- **The rule of sequences.** -/
theorem stays_bind {k : α → Program σ ρ β} {post : β → σ → Prop}
    (h : p.Stays P (fun a s => (k a).Stays P post s) s) : (p >>= k).Stays P post s := by
  induction p generalizing s with
  | done a => exact h.2
  | fail e => exact h
  | atomic f g ih => exact ⟨h.1, ih s h.2⟩
  | call q g ih => exact ⟨h.1, fun r => ih r (h.2 r)⟩

theorem stays_pure {a : α} (hs : P s) (h : post a s) : (pure a : Program σ ρ α).Stays P post s := ⟨hs, h⟩

theorem stays_fail {e : String} (hs : P s) : (fail e : Program σ ρ α).Stays P post s := hs

theorem stays_require {c : Prop} [Decidable c] {e : String} {k : Unit → Program σ ρ α} (hs : P s)
    (h : c → (k ()).Stays P post s) : (require c e >>= k).Stays P post s := by
  unfold require
  split_ifs with hc
  · exact h hc
  · exact hs

theorem stays_get {k : σ → Program σ ρ α} (hs : P s) (h : (k s).Stays P post s) : (get >>= k).Stays P post s :=
  ⟨hs, h⟩

theorem stays_ask {q : ι} {k : ρ q → Program σ ρ α} (hs : P s) (h : ∀ r, (k r).Stays P post s) :
    (ask q >>= k).Stays P post s := ⟨hs, h⟩

theorem stays_transaction {f : σ → Except String σ} {k : Unit → Program σ ρ α} (hs : P s)
    (h : ∀ s', f s = .ok s' → (k ()).Stays P post s') : (transaction f >>= k).Stays P post s := by
  refine ⟨hs, ?_⟩
  cases hf : f s with
  | ok s' => simp only [hf]; exact h s' hf
  | error e => simp only [hf]; exact hs

/-- A failure that is caught. -/
theorem stays_attempt {k : Except String α → Program σ ρ β} {post : β → σ → Prop}
    (h : p.Stays P (fun a s => (k (.ok a)).Stays P post s) s)
    (herror : ∀ e s', P s' → (k (.error e)).Stays P post s') : (p.attempt >>= k).Stays P post s := by
  induction p generalizing s with
  | done a => exact h.2
  | fail e => exact herror e s h
  | atomic f g ih => exact ⟨h.1, ih s h.2⟩
  | call q g ih => exact ⟨h.1, fun r => ih r (h.2 r)⟩

end

/-- A program that returns may also stop there. -/
theorem Returns.run {p : Program σ ρ α} {w w' : World σ ι} {a : α} (h : Returns p w a w') : Run p w w' := by
  induction h with
  | done => exact .stop
  | atomic _ ih => exact .atomic ih
  | call r _ ih => exact .call r ih

/-! ## A run to the end -/

/-- The program returns where the outside answers by `answer`, and what it returns satisfies `post`. -/
def Ends (answer : ∀ q, ρ q) (post : α → σ → Prop) : Program σ ρ α → σ → Prop
  | done a, s => post a s
  | fail _, _ => False
  | atomic f k, s => Ends answer post (k s) (f s)
  | call q k, s => Ends answer post (k (answer q)) s

section
variable {answer : ∀ q, ρ q} {post : α → σ → Prop} {p : Program σ ρ α} {s : σ}

/-- **The rule of ends.** -/
theorem Ends.returns (h : p.Ends answer post s) (w : World σ ι) (hw : w.state = s) :
    ∃ a w', Returns p w a w' ∧ post a w'.state := by
  induction p generalizing s w with
  | done a => exact ⟨a, w, .done, hw ▸ h⟩
  | fail e => exact h.elim
  | atomic f k ih =>
    subst hw
    obtain ⟨a, w', hr, hpost⟩ := ih w.state h (w.put (f w.state)) rfl
    exact ⟨a, w', .atomic hr, hpost⟩
  | call q k ih =>
    obtain ⟨a, w', hr, hpost⟩ := ih (answer q) h (w.request q) hw
    exact ⟨a, w', .call (answer q) hr, hpost⟩

theorem Ends.mono {post' : α → σ → Prop} (h : p.Ends answer post s) (hpost : ∀ a s', post a s' → post' a s') :
    p.Ends answer post' s := by
  induction p generalizing s with
  | done a => exact hpost a s h
  | fail e => exact h
  | atomic f k ih => exact ih s h
  | call q k ih => exact ih (answer q) h

/-- What holds at the end of every run. -/
theorem Ends.of_stays {P : σ → Prop} (h : p.Ends answer (fun _ _ => True) s) (h' : p.Stays P post s) :
    p.Ends answer post s := by
  induction p generalizing s with
  | done a => exact h'.2
  | fail e => exact h.elim
  | atomic f k ih => exact ih s h h'.2
  | call q k ih => exact ih (answer q) h (h'.2 (answer q))

theorem ends_bind {k : α → Program σ ρ β} {post : β → σ → Prop}
    (h : p.Ends answer (fun a s => (k a).Ends answer post s) s) : (p >>= k).Ends answer post s := by
  induction p generalizing s with
  | done a => exact h
  | fail e => exact h
  | atomic f g ih => exact ih s h
  | call q g ih => exact ih (answer q) h

theorem ends_transaction {f : σ → Except String σ} {s' : σ} {k : Unit → Program σ ρ α} (hf : f s = .ok s')
    (h : (k ()).Ends answer post s') : (transaction f >>= k).Ends answer post s := by
  unfold transaction
  simp only [Bind.bind, Program.bind, Ends, hf]
  exact h

/-- A failure that would be caught. -/
theorem ends_attempt {k : Except String α → Program σ ρ β} {post : β → σ → Prop}
    (h : p.Ends answer (fun a s => (k (.ok a)).Ends answer post s) s) : (p.attempt >>= k).Ends answer post s := by
  induction p generalizing s with
  | done a => exact h
  | fail e => exact h.elim
  | atomic f g ih => exact ih s h
  | call q g ih => exact ih (answer q) h

theorem ends_pure {a : α} (h : post a s) : (pure a : Program σ ρ α).Ends answer post s := h

theorem ends_get {k : σ → Program σ ρ α} (h : (k s).Ends answer post s) : (get >>= k).Ends answer post s := h

theorem ends_lift {x : Except String β} {b : β} {k : β → Program σ ρ α} (hx : x = .ok b)
    (h : (k b).Ends answer post s) : (lift x >>= k).Ends answer post s := by
  rw [hx]
  exact h

theorem ends_ask {q : ι} {k : ρ q → Program σ ρ α} (h : (k (answer q)).Ends answer post s) :
    (ask q >>= k).Ends answer post s := h

theorem ends_require {c : Prop} [Decidable c] {e : String} {k : Unit → Program σ ρ α} (hc : c)
    (h : (k ()).Ends answer post s) : (require c e >>= k).Ends answer post s := by
  rw [require, if_pos hc]
  exact h

end

/-! ## Requests of a run to the end -/

section
variable {δ : Type} {answer : ∀ q, ρ q} {log : σ × ι → Option δ} {ds : List δ} {w : World σ ι} {p : Program σ ρ α}

/-- Where the outside answers by `answer`, the program makes the recorded requests `ds`. -/
def Issues (answer : ∀ q, ρ q) (log : σ × ι → Option δ) (ds : List δ) (p : Program σ ρ α) (w : World σ ι) : Prop :=
  (exec answer p w).calls.filterMap log = w.calls.filterMap log ++ ds

/-- A program that makes no recorded request. -/
theorem issues_lead {R : σ → σ → Prop} {post : α → σ → Prop} {k : α → Program σ ρ β} (hp : p.Leads log R post w.state)
    (h : p.Ends answer (fun a s => ∀ w' : World σ ι, w'.state = s → (k a).Issues answer log ds w') w.state) :
    (p >>= k).Issues answer log ds w := by
  induction p generalizing w with
  | done a => exact h w rfl
  | fail e => exact h.elim
  | atomic f g ih => exact @ih w.state (w.put (f w.state)) hp.2 h
  | call q g ih =>
    have hrest := @ih (answer q) (w.request q) (hp.2 _) h
    have hcalls : (w.request q).calls.filterMap log = w.calls.filterMap log := by
      simp only [World.request_calls, List.filterMap_append, List.filterMap_cons_none hp.1, List.filterMap_nil,
        List.append_nil]
    rw [Issues, hcalls] at hrest
    exact hrest

/-- A request that is recorded. -/
theorem issues_ask {q : ι} {d : δ} {k : ρ q → Program σ ρ α} (hq : log (w.state, q) = some d)
    (h : (k (answer q)).Issues answer log ds (w.request q)) : (ask q >>= k).Issues answer log (d :: ds) w := by
  have hcalls : (w.request q).calls.filterMap log = w.calls.filterMap log ++ [d] := by
    simp only [World.request_calls, List.filterMap_append, List.filterMap_cons_some hq, List.filterMap_nil]
  rw [Issues, hcalls, List.append_assoc] at h
  exact h

theorem issues_require {c : Prop} [Decidable c] {e : String} {k : Unit → Program σ ρ α} (hc : c)
    (h : (k ()).Issues answer log ds w) : (require c e >>= k).Issues answer log ds w := by
  rw [require, if_pos hc]
  exact h

/-- A request that is not recorded. -/
theorem issues_other {q : ι} {k : ρ q → Program σ ρ α} (hq : log (w.state, q) = none)
    (h : (k (answer q)).Issues answer log ds (w.request q)) : (ask q >>= k).Issues answer log ds w := by
  have hcalls : (w.request q).calls.filterMap log = w.calls.filterMap log := by
    simp only [World.request_calls, List.filterMap_append, List.filterMap_cons_none hq, List.filterMap_nil, List.append_nil]
  rw [Issues, hcalls] at h
  exact h

/-- A program that makes no recorded request, whether it returns or not. -/
theorem issues_nothing {R : σ → σ → Prop} {post : α → σ → Prop} (h : p.Leads log R post w.state) :
    p.Issues answer log [] w := by
  induction p generalizing w with
  | done a => exact (List.append_nil _).symm
  | fail e => exact (List.append_nil _).symm
  | atomic f g ih => exact @ih w.state (w.put (f w.state)) h.2
  | call q g ih => exact issues_other h.1 (@ih (answer q) (w.request q) (h.2 _))

theorem leads_of_log {ε : Type} {log' : σ × ι → Option ε} {R : σ → σ → Prop} {post : α → σ → Prop} {s : σ}
    (h : p.Leads log R post s) (hlog : ∀ x, log x = none → log' x = none) : p.Leads log' R post s := by
  induction p generalizing s with
  | done a => exact h
  | fail e => trivial
  | atomic f g ih => exact ⟨h.1, ih s h.2⟩
  | call q g ih => exact ⟨hlog _ h.1, fun r => ih r (h.2 r)⟩

theorem Ends.exec {post : α → σ → Prop} (h : p.Ends answer post w.state) : ∃ a, post a (exec answer p w).state := by
  induction p generalizing w with
  | done a => exact ⟨a, h⟩
  | fail e => exact h.elim
  | atomic f g ih => exact @ih w.state (w.put (f w.state)) h
  | call q g ih => exact @ih (answer q) (w.request q) h

end
end Verif.Program
