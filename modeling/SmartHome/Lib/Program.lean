/-
  Programs over a durable state.  A program updates the state in atomic steps and calls the
  outside, which answers as it likes.  It may stop before any step, because a check fails or
  because the process dies, and leaves the state as the steps so far have made it.

  `Run` gives the worlds that a program may leave behind, `Safe` the condition that all of them
  satisfy an invariant, by recursion on the program; the rules `Safe.run` and `Safe.bind` connect
  the two.
-/
import Mathlib.Tactic.Common

namespace Verif

/-- A program with durable state `σ` that makes requests of type `ι`; a request `q` gets a reply
    of type `ρ q`. -/
inductive Program {ι : Type} (σ : Type) (ρ : ι → Type) (α : Type) where
  /-- The program returns. -/
  | done (a : α)
  /-- The program raises. -/
  | fail (reason : String)
  /-- One atomic step: the state `s` becomes `f s`, and the program goes on with `k s`. -/
  | atomic (f : σ → σ) (k : σ → Program σ ρ α)
  /-- A request to the outside. -/
  | call (q : ι) (k : ρ q → Program σ ρ α)

/-- The durable state, and the requests made so far with the states in which they were made. -/
structure World (σ ι : Type) where
  state : σ
  calls : List (σ × ι)

namespace World
variable {σ ι : Type} (w : World σ ι)

/-- The world with a new state. -/
def put (s : σ) : World σ ι := { w with state := s }

/-- The world after a request. -/
def request (q : ι) : World σ ι := { w with calls := w.calls ++ [(w.state, q)] }

@[simp] theorem put_state (s : σ) : (w.put s).state = s := rfl
@[simp] theorem put_calls (s : σ) : (w.put s).calls = w.calls := rfl
@[simp] theorem request_state (q : ι) : (w.request q).state = w.state := rfl
@[simp] theorem request_calls (q : ι) : (w.request q).calls = w.calls ++ [(w.state, q)] := rfl

end World

namespace Program
variable {ι σ : Type} {ρ : ι → Type} {α β : Type}

/-- One program after another. -/
def bind : Program σ ρ α → (α → Program σ ρ β) → Program σ ρ β
  | done a, k => k a
  | fail e, _ => fail e
  | atomic f g, k => atomic f fun s => (g s).bind k
  | call q g, k => call q fun r => (g r).bind k

instance : Monad (Program σ ρ) where
  pure := done
  bind := bind

/-- Stop unless `p` holds. -/
def require (p : Prop) [Decidable p] (reason : String) : Program σ ρ Unit :=
  if p then done () else fail reason

/-- The value of a computation that may stop. -/
def lift : Except String α → Program σ ρ α
  | .ok a => done a
  | .error e => fail e

/-- The state. -/
def get : Program σ ρ σ := atomic id done

/-- The reply to a request. -/
def ask (q : ι) : Program σ ρ (ρ q) := call q done

/-- A transaction: the new state is kept if the computation does not stop. -/
def transaction (f : σ → Except String σ) : Program σ ρ Unit :=
  atomic (fun s => match f s with | .ok s' => s' | .error _ => s)
    fun s => match f s with | .ok _ => done () | .error e => fail e

/-- A transaction with a result. -/
def commit (f : σ → Except String (σ × α)) : Program σ ρ α :=
  atomic (fun s => match f s with | .ok r => r.1 | .error _ => s)
    fun s => match f s with | .ok r => done r.2 | .error e => fail e

/-! ## Runs -/

/-- The worlds in which a program may stop. -/
inductive Run : Program σ ρ α → World σ ι → World σ ι → Prop
  | stop {p : Program σ ρ α} {w : World σ ι} : Run p w w
  | atomic {f : σ → σ} {k : σ → Program σ ρ α} {w w' : World σ ι} :
      Run (k w.state) (w.put (f w.state)) w' → Run (.atomic f k) w w'
  | call {q : ι} {k : ρ q → Program σ ρ α} {w w' : World σ ι} (r : ρ q) :
      Run (k r) (w.request q) w' → Run (.call q k) w w'

/-- The world that a program leaves behind where the outside answers by `answer`. -/
def exec (answer : ∀ q, ρ q) : Program σ ρ α → World σ ι → World σ ι
  | done _, w => w
  | fail _, w => w
  | atomic f k, w => exec answer (k w.state) (w.put (f w.state))
  | call q k, w => exec answer (k (answer q)) (w.request q)

theorem run_exec (answer : ∀ q, ρ q) (p : Program σ ρ α) (w : World σ ι) :
    Run p w (exec answer p w) := by
  induction p generalizing w with
  | done a => exact .stop
  | fail e => exact .stop
  | atomic f k ih => exact .atomic (ih w.state _)
  | call q k ih => exact .call (answer q) (ih (answer q) _)

/-! ## Safety -/

/-- Every world in which the program may stop satisfies `I`, and a world in which it returns
    satisfies `post`. -/
def Safe (I : World σ ι → Prop) (post : α → World σ ι → Prop) :
    Program σ ρ α → World σ ι → Prop
  | done a, w => I w ∧ post a w
  | fail _, w => I w
  | atomic f k, w => I w ∧ Safe I post (k w.state) (w.put (f w.state))
  | call q k, w => I w ∧ ∀ r, Safe I post (k r) (w.request q)

section
variable {I : World σ ι → Prop} {post : α → World σ ι → Prop} {p : Program σ ρ α}
  {w w' : World σ ι}

theorem Safe.inv (h : Safe I post p w) : I w := by
  cases p with
  | fail e => exact h
  | _ => exact h.1

/-- **The safety rule.** -/
theorem Safe.run (h : Safe I post p w) (hr : Run p w w') : I w' := by
  induction hr with
  | stop => exact h.inv
  | atomic _ ih => exact ih h.2
  | call r _ ih => exact ih (h.2 r)

/-- **The rule of sequences.** -/
theorem Safe.bind {k : α → Program σ ρ β} {post : β → World σ ι → Prop}
    (h : Safe I (fun a w => Safe I post (k a) w) p w) : Safe I post (p >>= k) w := by
  induction p generalizing w with
  | done a => exact h.2
  | fail e => exact h
  | atomic f g ih => exact ⟨h.1, ih _ h.2⟩
  | call q g ih => exact ⟨h.1, fun r => ih r (h.2 r)⟩

end

/-! ## Results -/

/-- The program returns a value and leaves a world behind. -/
inductive Returns : Program σ ρ α → World σ ι → α → World σ ι → Prop
  | done {a : α} {w : World σ ι} : Returns (.done a) w a w
  | atomic {f : σ → σ} {k : σ → Program σ ρ α} {w w' : World σ ι} {a : α} :
      Returns (k w.state) (w.put (f w.state)) a w' → Returns (.atomic f k) w a w'
  | call {q : ι} {k : ρ q → Program σ ρ α} {w w' : World σ ι} {a : α} (r : ρ q) :
      Returns (k r) (w.request q) a w' → Returns (.call q k) w a w'

/-- What a program returns where the outside answers by `answer`. -/
def outcome (answer : ∀ q, ρ q) : Program σ ρ α → World σ ι → Option (α × World σ ι)
  | done a, w => some (a, w)
  | fail _, _ => none
  | atomic f k, w => outcome answer (k w.state) (w.put (f w.state))
  | call q k, w => outcome answer (k (answer q)) (w.request q)

theorem returns_outcome {answer : ∀ q, ρ q} {p : Program σ ρ α} {w w' : World σ ι} {a : α}
    (h : outcome answer p w = some (a, w')) : Returns p w a w' := by
  induction p generalizing w with
  | done a' => cases h; exact .done
  | fail e => cases h
  | atomic f k ih => exact .atomic (ih w.state h)
  | call q k ih => exact .call (answer q) (ih (answer q) h)

/-- The world after some first steps of a program. -/
def interrupted (answer : ∀ q, ρ q) : ℕ → Program σ ρ α → World σ ι → World σ ι
  | n + 1, atomic f k, w => interrupted answer n (k w.state) (w.put (f w.state))
  | n + 1, call q k, w => interrupted answer n (k (answer q)) (w.request q)
  | _, _, w => w

theorem run_interrupted (answer : ∀ q, ρ q) (n : ℕ) (p : Program σ ρ α) (w : World σ ι) :
    Run p w (interrupted answer n p w) := by
  induction n generalizing p w with
  | zero => exact .stop
  | succ n ih =>
    cases p with
    | done a => exact .stop
    | fail e => exact .stop
    | atomic f k => exact .atomic (ih _ _)
    | call q k => exact .call (answer q) (ih _ _)

/-! ## Rules of safety -/

section
variable {I : World σ ι → Prop} {post : α → World σ ι → Prop} {p : Program σ ρ α} {w w' : World σ ι}

/-- **The rule of results.** -/
theorem Safe.returns {a : α} (h : Safe I post p w) (hr : Returns p w a w') : post a w' := by
  induction hr with
  | done => exact h.2
  | atomic _ ih => exact ih h.2
  | call r _ ih => exact ih (h.2 r)

theorem Safe.mono {post' : α → World σ ι → Prop} (h : Safe I post p w)
    (hp : ∀ a w', I w' → post a w' → post' a w') : Safe I post' p w := by
  induction p generalizing w with
  | done a => exact ⟨h.1, hp a w h.1 h.2⟩
  | fail e => exact h
  | atomic f k ih => exact ⟨h.1, ih _ h.2⟩
  | call q k ih => exact ⟨h.1, fun r => ih r (h.2 r)⟩

theorem safe_require {c : Prop} [Decidable c] {e : String} {k : Unit → Program σ ρ α} (hi : I w)
    (h : c → Safe I post (k ()) w) : Safe I post (require c e >>= k) w := by
  unfold require
  split_ifs with hc
  · exact h hc
  · exact hi

theorem safe_lift {x : Except String β} {k : β → Program σ ρ α} (hi : I w)
    (h : ∀ a, x = .ok a → Safe I post (k a) w) : Safe I post (lift x >>= k) w := by
  cases x with
  | ok a => exact h a rfl
  | error e => exact hi

theorem safe_get {k : σ → Program σ ρ α} (hi : I w) (h : Safe I post (k w.state) w) :
    Safe I post (get >>= k) w := ⟨hi, h⟩

theorem safe_transaction {f : σ → Except String σ} {k : Unit → Program σ ρ α} (hi : I w)
    (h : ∀ s, f w.state = .ok s → Safe I post (k ()) (w.put s)) : Safe I post (transaction f >>= k) w := by
  refine ⟨hi, ?_⟩
  cases hf : f w.state with
  | ok s => simp only [hf]; exact h s hf
  | error e => simp only [hf]; exact hi

end

theorem bind_done (p : Program σ ρ α) : p.bind done = p := by
  induction p with
  | done a => rfl
  | fail e => rfl
  | atomic f k ih => simp only [bind, ih]
  | call q k ih => simp only [bind, ih]

theorem bind_bind {γ : Type} (p : Program σ ρ α) (f : α → Program σ ρ β) (g : β → Program σ ρ γ) :
    (p.bind f).bind g = p.bind fun a => (f a).bind g := by
  induction p with
  | done a => rfl
  | fail e => rfl
  | atomic h k ih => simp only [bind, ih]
  | call q k ih => simp only [bind, ih]

instance : LawfulMonad (Program σ ρ) :=
  LawfulMonad.mk' (Program σ ρ) bind_done (fun _ _ => rfl) bind_bind

/-- The outcome of a program whose failure is caught. -/
def attempt : Program σ ρ α → Program σ ρ (Except String α)
  | done a => done (.ok a)
  | fail e => done (.error e)
  | atomic f k => atomic f fun s => (k s).attempt
  | call q k => call q fun r => (k r).attempt

theorem attempt_ask (q : ι) (k : ρ q → Program σ ρ α) :
    (ask q >>= k).attempt = ask q >>= fun r => (k r).attempt := rfl

/-! ## Reading -/

section
variable {δ : Type} (log : σ × ι → Option δ) (s : σ)

/-- In the state `s` the program changes nothing and makes no request that `log` records, and what
    it returns satisfies `post`. -/
def Reads (post : α → Prop) : Program σ ρ α → Prop
  | done a => post a
  | fail _ => True
  | atomic f k => f s = s ∧ Reads post (k s)
  | call q k => log (s, q) = none ∧ ∀ r, Reads post (k r)

variable {log s} {p : Program σ ρ α} {post : α → Prop}

theorem Reads.mono {post' : α → Prop} (h : p.Reads log s post) (hp : ∀ a, post a → post' a) :
    p.Reads log s post' := by
  induction p with
  | done a => exact hp a h
  | fail e => trivial
  | atomic f k ih => exact ⟨h.1, ih s h.2⟩
  | call q k ih => exact ⟨h.1, fun r => ih r (h.2 r)⟩

theorem reads_pure {a : α} (h : post a) : (pure a : Program σ ρ α).Reads log s post := h

theorem reads_bind {k : α → Program σ ρ β} {post : β → Prop}
    (h : p.Reads log s fun a => (k a).Reads log s post) : (p >>= k).Reads log s post := by
  induction p with
  | done a => exact h
  | fail e => trivial
  | atomic f g ih => exact ⟨h.1, ih s h.2⟩
  | call q g ih => exact ⟨h.1, fun r => ih r (h.2 r)⟩

theorem reads_require {c : Prop} [Decidable c] {e : String} {post : Unit → Prop} (h : c → post ()) :
    (require c e : Program σ ρ Unit).Reads log s post := by
  unfold require
  split_ifs with hc
  · exact h hc
  · trivial

theorem reads_lift {x : Except String α} (h : ∀ a, x = .ok a → post a) :
    (lift x : Program σ ρ α).Reads log s post := by
  cases x with
  | ok a => exact h a rfl
  | error e => trivial

theorem reads_get {post : σ → Prop} (h : post s) : (get : Program σ ρ σ).Reads log s post := ⟨rfl, h⟩

theorem reads_ask {q : ι} {post : ρ q → Prop} (hq : log (s, q) = none) (h : ∀ r, post r) :
    (ask q : Program σ ρ (ρ q)).Reads log s post := ⟨hq, h⟩

theorem reads_attempt (h : p.Reads log s post) :
    p.attempt.Reads log s fun o => ∀ a, o = .ok a → post a := by
  induction p with
  | done a =>
    rintro b ⟨⟩
    exact h
  | fail e => rintro b ⟨⟩
  | atomic f k ih => exact ⟨h.1, ih s h.2⟩
  | call q k ih => exact ⟨h.1, fun r => ih r (h.2 r)⟩

end

/-! ## What goes before -/

section
variable {δ : Type} (log : σ × ι → Option δ) (R : σ → σ → Prop)

/-- From the state `s` the program changes the state as `R` allows and makes no request that `log`
    records; what it returns satisfies `post` in the state that it leaves. -/
def Leads (post : α → σ → Prop) : Program σ ρ α → σ → Prop
  | done a, s => post a s
  | fail _, _ => True
  | atomic f k, s => R s (f s) ∧ Leads post (k s) (f s)
  | call q k, s => log (s, q) = none ∧ ∀ r, Leads post (k r) s

variable {log R} {p : Program σ ρ α} {post : α → σ → Prop} {s : σ}

theorem Leads.mono {post' : α → σ → Prop} (h : p.Leads log R post s)
    (hp : ∀ a s', post a s' → post' a s') : p.Leads log R post' s := by
  induction p generalizing s with
  | done a => exact hp a s h
  | fail e => trivial
  | atomic f k ih => exact ⟨h.1, ih s h.2⟩
  | call q k ih => exact ⟨h.1, fun r => ih r (h.2 r)⟩

theorem leads_pure {a : α} (h : post a s) : (pure a : Program σ ρ α).Leads log R post s := h

theorem leads_bind {k : α → Program σ ρ β} {post : β → σ → Prop}
    (h : p.Leads log R (fun a => (k a).Leads log R post) s) : (p >>= k).Leads log R post s := by
  induction p generalizing s with
  | done a => exact h
  | fail e => trivial
  | atomic f g ih => exact ⟨h.1, ih s h.2⟩
  | call q g ih => exact ⟨h.1, fun r => ih r (h.2 r)⟩

theorem leads_require {c : Prop} [Decidable c] {e : String} {post : Unit → σ → Prop}
    (h : c → post () s) : (require c e : Program σ ρ Unit).Leads log R post s := by
  unfold require
  split_ifs with hc
  · exact h hc
  · trivial

theorem leads_ask {q : ι} {post : ρ q → σ → Prop} (hq : log (s, q) = none) (h : ∀ r, post r s) :
    (ask q : Program σ ρ (ρ q)).Leads log R post s := ⟨hq, h⟩

theorem leads_lift {x : Except String α} (h : ∀ a, x = .ok a → post a s) :
    (lift x : Program σ ρ α).Leads log R post s := by
  cases x with
  | ok a => exact h a rfl
  | error e => trivial

theorem leads_get {post : σ → σ → Prop} (hR : R s s) (h : post s s) :
    (get : Program σ ρ σ).Leads log R post s := ⟨hR, h⟩

theorem leads_transaction {f : σ → Except String σ} {post : Unit → σ → Prop} (hR : R s s)
    (h : ∀ s', f s = .ok s' → R s s' ∧ post () s') :
    (transaction f : Program σ ρ Unit).Leads log R post s := by
  unfold transaction
  cases hf : f s with
  | ok s' =>
    obtain ⟨hstep, hpost⟩ := h s' hf
    simp only [Leads, hf]
    exact ⟨hstep, hpost⟩
  | error e =>
    simp only [Leads, hf]
    exact ⟨hR, trivial⟩

/-- A caught failure leaves a state that `R` allows. -/
theorem leads_attempt (hrefl : ∀ s, R s s) (htrans : ∀ {a b c}, R a b → R b c → R a c)
    (h : p.Leads log R post s) :
    p.attempt.Leads log R (fun o s' => R s s' ∧ ∀ a, o = .ok a → post a s') s := by
  induction p generalizing s with
  | done a =>
    refine ⟨hrefl s, ?_⟩
    rintro b ⟨⟩
    exact h
  | fail e =>
    refine ⟨hrefl s, ?_⟩
    rintro b ⟨⟩
  | atomic f k ih =>
    exact ⟨h.1, (ih s h.2).mono fun o s' ho => ⟨htrans h.1 ho.1, ho.2⟩⟩
  | call q k ih => exact ⟨h.1, fun r => ih r (h.2 r)⟩

/-- A program that only reads. -/
theorem Reads.leads {post : α → Prop} (h : p.Reads log s post) (hrefl : ∀ s, R s s) :
    p.Leads log R (fun a s' => s' = s ∧ post a) s := by
  induction p with
  | done a => exact ⟨rfl, h⟩
  | fail e => trivial
  | atomic f k ih =>
    obtain ⟨hf, hk⟩ := h
    refine ⟨by rw [hf]; exact hrefl s, ?_⟩
    rw [hf]
    exact ih s hk
  | call q k ih => exact ⟨h.1, fun r => ih r (h.2 r)⟩

end

/-! ## Programs from a known state -/

/-- The state of the world, and its requests as far as `log` records them. -/
structure At {δ : Type} (log : σ × ι → Option δ) (s : σ) (ds : List δ) (w : World σ ι) : Prop where
  state : w.state = s
  logged : w.calls.filterMap log = ds

/-- From every world with the state `s` and the recorded requests `ds` the program keeps `I`. -/
def Keeps {δ : Type} (I : World σ ι → Prop) (log : σ × ι → Option δ) (p : Program σ ρ α) (s : σ)
    (ds : List δ) : Prop :=
  ∀ w, I w → At log s ds w → Safe I (fun _ _ => True) p w

/-- Requests that are not recorded do not matter. -/
def Ignores {δ : Type} (I : World σ ι → Prop) (log : σ × ι → Option δ) : Prop :=
  ∀ w q, I w → log (w.state, q) = none → I (w.request q)

section
variable {δ : Type} {I : World σ ι → Prop} {log : σ × ι → Option δ} {s : σ} {ds : List δ}
  {p : Program σ ρ α} {k : α → Program σ ρ β}

theorem Keeps.run (h : Keeps I log p s ds) {w w' : World σ ι} (hi : I w) (hw : At log s ds w)
    (hr : Run p w w') : I w' := (h w hi hw).run hr

theorem keeps_pure {a : α} : Keeps I log (pure a : Program σ ρ α) s ds := by
  intro w hi hw
  exact ⟨hi, trivial⟩

theorem keeps_fail {e : String} : Keeps I log (fail e : Program σ ρ α) s ds := by
  intro w hi hw
  exact hi

/-- **The rule of what goes before.** -/
theorem keeps_lead {R : σ → σ → Prop} (hI : Ignores I log)
    (hR : ∀ w s', I w → R w.state s' → I (w.put s')) {post : α → σ → Prop}
    (hp : p.Leads log R post s) (h : ∀ a s', post a s' → Keeps I log (k a) s' ds) :
    Keeps I log (p >>= k) s ds := by
  intro w hi hw
  induction p generalizing s w with
  | done a => exact h a s hp w hi hw
  | fail e => exact hi
  | atomic f g ih =>
    obtain ⟨hf, hg⟩ := hp
    obtain ⟨rfl, hl⟩ := hw
    exact ⟨hi, ih w.state hg (w.put (f w.state)) (hR w _ hi hf) ⟨rfl, hl⟩⟩
  | call q g ih =>
    obtain ⟨hq, hg⟩ := hp
    obtain ⟨rfl, hl⟩ := hw
    refine ⟨hi, fun r => ih r (hg r) _ (hI w q hi hq) ⟨rfl, ?_⟩⟩
    simp [hq, hl]

/-- **The rule of reading.** -/
theorem keeps_read (hI : Ignores I log) {post : α → Prop} (hp : p.Reads log s post)
    (h : ∀ a, post a → Keeps I log (k a) s ds) : Keeps I log (p >>= k) s ds := by
  refine keeps_lead hI ?_ (hp.leads (R := Eq) fun _ => rfl) ?_
  · rintro w s' hi rfl
    exact hi
  · rintro a s' ⟨rfl, ha⟩
    exact h a ha

theorem keeps_reads (hI : Ignores I log) {post : α → Prop} (hp : p.Reads log s post) :
    Keeps I log p s ds := by
  rw [← bind_pure p]
  exact keeps_read hI hp fun a _ => keeps_pure

/-- After a check the rest of the program may use what was checked. -/
theorem keeps_require {c : Prop} [Decidable c] {e : String} {k : Unit → Program σ ρ β}
    (h : c → Keeps I log (k ()) s ds) : Keeps I log (require c e >>= k) s ds := by
  intro w hi hw
  unfold require
  split_ifs with hc
  · exact h hc w hi hw
  · exact hi

theorem keeps_lift {x : Except String α} (h : ∀ a, x = .ok a → Keeps I log (k a) s ds) :
    Keeps I log (lift x >>= k) s ds := by
  intro w hi hw
  cases x with
  | ok a => exact h a rfl w hi hw
  | error e => exact hi

theorem keeps_get {k : σ → Program σ ρ β} (h : Keeps I log (k s) s ds) :
    Keeps I log (get >>= k) s ds := by
  intro w hi hw
  refine ⟨hi, ?_⟩
  show Safe I _ (k w.state) w
  rw [hw.state]
  exact h w hi hw

/-- A request that is not recorded. -/
theorem keeps_ask (hI : Ignores I log) {q : ι} {k : ρ q → Program σ ρ β} (hq : log (s, q) = none)
    (h : ∀ r, Keeps I log (k r) s ds) : Keeps I log (ask q >>= k) s ds :=
  keeps_read hI (reads_ask hq fun _ => trivial) fun r _ => h r

/-- A request that is recorded. -/
theorem keeps_record {q : ι} {k : ρ q → Program σ ρ β} {d : δ} (hq : log (s, q) = some d)
    (hi : ∀ w, I w → At log s ds w → I (w.request q))
    (h : ∀ r, Keeps I log (k r) s (ds ++ [d])) : Keeps I log (ask q >>= k) s ds := by
  intro w hw hat
  refine ⟨hw, fun r => h r _ (hi w hw hat) ⟨hat.state, ?_⟩⟩
  simp [hat.state, hq, hat.logged]

/-- A transaction that stops changes nothing. -/
theorem keeps_transaction {f : σ → Except String σ} {k : Unit → Program σ ρ β}
    (h : ∀ s', f s = .ok s' → (∀ w, I w → At log s ds w → I (w.put s')) ∧
      Keeps I log (k ()) s' ds) : Keeps I log (transaction f >>= k) s ds := by
  intro w hw hat
  refine ⟨hw, ?_⟩
  cases hf : f w.state with
  | ok s' =>
    simp only [hf]
    rw [hat.state] at hf
    obtain ⟨hput, hk⟩ := h s' hf
    exact hk _ (hput w hw hat) ⟨rfl, hat.logged⟩
  | error e =>
    simp only [hf]
    exact hw

end

/-! ## Conditions on the state and the recorded requests -/

section
variable {δ : Type} {J : σ → List δ → Prop} {log : σ × ι → Option δ} {s : σ} {ds : List δ}

/-- A condition on the state and the recorded requests. -/
def Tracks (J : σ → List δ → Prop) (log : σ × ι → Option δ) (w : World σ ι) : Prop :=
  J w.state (w.calls.filterMap log)

theorem tracks_ignores : Ignores (Tracks J log) log := by
  intro w q h hq
  show J w.state ((w.calls ++ [(w.state, q)]).filterMap log)
  have hlog : [(w.state, q)].filterMap log = [] := by simp [hq]
  rw [List.filterMap_append, hlog, List.append_nil]
  exact h

theorem keeps_update {f : σ → Except String σ} {k : Unit → Program σ ρ β}
    (h : ∀ s', f s = .ok s' → J s' ds ∧ Keeps (Tracks J log) log (k ()) s' ds) :
    Keeps (Tracks J log) log (transaction f >>= k) s ds := by
  refine keeps_transaction fun s' hs' => ⟨fun w _ hat => ?_, (h s' hs').2⟩
  show J s' (w.calls.filterMap log)
  rw [hat.logged]
  exact (h s' hs').1

theorem keeps_effect {q : ι} {k : ρ q → Program σ ρ β} {d : δ} (hq : log (s, q) = some d)
    (hJ : J s (ds ++ [d])) (h : ∀ r, Keeps (Tracks J log) log (k r) s (ds ++ [d])) :
    Keeps (Tracks J log) log (ask q >>= k) s ds := by
  refine keeps_record hq (fun w _ hat => ?_) h
  show J w.state ((w.calls ++ [(w.state, q)]).filterMap log)
  have hlog : [(w.state, q)].filterMap log = [d] := by simp [hat.state, hq]
  rw [List.filterMap_append, hlog, hat.logged, hat.state]
  exact hJ

end

end Program
end Verif
