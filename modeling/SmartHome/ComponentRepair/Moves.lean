/-
  How a row moves from one transaction to the next, where a rollback is only concluded while the
  operation is still rolling back.
-/
import SmartHome.ComponentRepair.Invariants

namespace SmartHome.ComponentRepair

open Verif

/-- How the state of a row may change. -/
structure State.Keeps (s s' : State) : Prop where
  released : s = .released → s' = .released
  settled : s = .failedWithoutEffect ∨ s = .confirmedNotApplied ∨ s = .rolledBack →
    s' = s ∨ s' = .released
  verified : s = .verified → s' = .verified ∨ s' = .released ∨ s' = .rollbackIntent

section
variable (expiry : ℚ)

/-- The receipt of an action was recorded. -/
def Row.Records (r r' : Row) (a : Action) (p : Receipt) : Prop :=
  (∃ now, receiptMatches expiry r p (some a) now) ∧ r'.receipt = some (a, p)

/-- How a row may move. -/
structure Row.Move (r r' : Row) : Prop where
  same : r.Same r'
  state : r.state.Keeps r'.state
  enters : ∀ a ∉ r.pending, a ∈ r'.pending →
    ∃ p, r.Records expiry r' a p ∧ p.securityCleanupConfirmed = false
  leaves : ∀ a ∈ r.pending, a ∉ r'.pending →
    ∃ p, r.Records expiry r' a p ∧ p.securityCleanupConfirmed = true
  applied : r.state.applying = true → r'.state.applying = false → ∃ p, r.Records expiry r' .apply p
  rolledBack : r.state.rollingBack = true → r'.state.rollingBack = false →
    ∃ p, r.Records expiry r' .rollback p

end

theorem State.Keeps.refl (s : State) : s.Keeps s := ⟨id, fun _ => Or.inl rfl, Or.inl⟩

/-- A state in which the operation is neither settled nor released may change at will. -/
theorem State.keeps {s s' : State} (hterminal : s.terminal = false) (hreleased : s ≠ .released) :
    s.Keeps s' := by
  constructor
  · intro h
    exact absurd h hreleased
  · rintro (rfl | rfl | rfl) <;> cases hterminal
  · rintro rfl
    cases hterminal

theorem State.not_terminal {s : State} (h : s.busy = true) : s.terminal = false := by
  cases s <;> first | rfl | cases h

theorem State.keeps_of_busy {s : State} (s' : State) (h : s.busy = true) : s.Keeps s' := by
  refine State.keeps (State.not_terminal h) ?_
  rintro rfl
  cases h

theorem State.keeps_rollbackIntent : State.Keeps .verified .rollbackIntent := by
  constructor
  · intro h; cases h
  · rintro (h | h | h) <;> cases h
  · intro _; exact Or.inr (Or.inr rfl)

theorem State.keeps_released {s : State} : s.Keeps .released :=
  ⟨fun _ => rfl, fun _ => Or.inr rfl, fun _ => Or.inr (Or.inl rfl)⟩

section
variable {expiry now time : ℚ} {l l' : Ledger} {r x : Row} {p : Receipt} {a : Action} {state : State}
  {result : Result}

theorem Row.Move.refl : r.Move expiry r where
  same := Row.Same.refl r
  state := State.Keeps.refl _
  enters _ ha ha' := absurd ha' ha
  leaves _ ha ha' := absurd ha ha'
  applied hr hr' := by rw [hr] at hr'; cases hr'
  rolledBack hr hr' := by rw [hr] at hr'; cases hr'

/-- A move in which nothing becomes pending, nothing is cleaned up and nothing is settled. -/
theorem Row.move_quiet (hpending : result.pendingCleanupActions = r.pending)
    (hstate : r.state.Keeps state) (happlied : r.state.applying = true → state.applying = true)
    (hrolledBack : r.state.rollingBack = true → state.rollingBack = true) :
    r.Move expiry (r.with now state result) where
  same := Row.same_with
  state := hstate
  enters a ha ha' := by
    rw [Row.with_pending, hpending] at ha'
    exact absurd ha' ha
  leaves a ha ha' := by
    rw [Row.with_pending, hpending] at ha'
    exact absurd ha ha'
  applied hr hr' := by
    rw [Row.with_state, happlied hr] at hr'
    cases hr'
  rolledBack hr hr' := by
    rw [Row.with_state, hrolledBack hr] at hr'
    cases hr'

/-- An outcome on top of what is pending is a move, if it is for the action that is under way. -/
theorem IsOutcome.move {previous : Result} (hout : IsOutcome result previous a p)
    (hmatch : receiptMatches expiry r p (some a) time)
    (hprevious : previous.pendingCleanupActions = r.pending) (hstate : r.state.Keeps state)
    (happlied : r.state.applying = true → a = .apply)
    (hrolledBack : r.state.rollingBack = true → a = .rollback) :
    r.Move expiry (r.with now state result) := by
  have hrecords : r.Records expiry (r.with now state result) a p := ⟨⟨time, hmatch⟩, hout.receipt⟩
  constructor
  case same => exact Row.same_with
  case state => exact hstate
  case enters =>
    intro b hb hb'
    rw [Row.with_pending, hout.pending, hprevious] at hb'
    rcases hb' with ⟨rfl, hp⟩ | ⟨-, hmem⟩
    · exact ⟨p, hrecords, hp⟩
    · exact absurd hmem hb
  case leaves =>
    intro b hb hb'
    rw [Row.with_pending, hout.pending, hprevious, not_or, not_and, not_and] at hb'
    by_cases hba : b = a
    · subst hba
      exact ⟨p, hrecords, by simpa using hb'.1 rfl⟩
    · exact absurd hb (hb'.2 hba)
  case applied =>
    intro hr _
    obtain rfl := happlied hr
    exact ⟨p, hrecords⟩
  case rolledBack =>
    intro hr _
    obtain rfl := hrolledBack hr
    exact ⟨p, hrecords⟩

theorem State.not_rollingBack {s : State} (h : s.applying = true) : s.rollingBack = false := by
  cases s <;> first | rfl | cases h

/-- The two intents to roll back one operation are one intent. -/
theorem Ledger.Core.admitted_rollback (h : l.Core) {r₀ : Row} (hr : r ∈ l.rows)
    (hrolling : r.state.rollingBack = true) (hr₀ : l.Admitted .rollback r₀) (hid : r₀.id = r.id) :
    r₀.pending = r.pending := by
  obtain ⟨a, ha, hact, rfl, -⟩ := h.admitted hr₀
  obtain ⟨b, hb, hact', hid', hpending⟩ := h.rolling r hr hrolling
  have hkey : a.key = b.key := by
    rw [Admission.key, Admission.key, hact, hact', hid, hid']
  rw [List.inj_on_of_nodup_map h.once ha hb hkey, hpending]

theorem Puts.move (h : l.Core) (hr : r ∈ l.rows) (hp : Puts expiry True l r state result) :
    r.Move expiry (r.with now state result) := by
  have hrow := h.rows r hr
  cases hp with
  | validated proof hstate =>
    refine Row.move_quiet (hrow.early (Or.inl hstate)).1.symm ?_ ?_ ?_ <;> rw [hstate]
    · exact State.keeps rfl (by decide)
    · intro h; cases h
    · intro h; cases h
  | @applied r₀ reply time happlying hr₀ hid =>
    have hempty : r.pending = ∅ := (hrow.early (Or.inr (Or.inr happlying))).1
    have hkeeps := State.keeps_of_busy ((applyOutcome expiry r₀ reply time).1)
      (State.busy_of_applying happlying)
    have hnot : r.state.rollingBack = true → Action.apply = .rollback := by
      rw [State.not_rollingBack happlying]; intro h; cases h
    rcases applyOutcome_cases expiry r₀ reply time with
      ⟨p, hmatch, hout, -⟩ | ⟨hs, hpending, -⟩
    · exact hout.move (receiptMatches_same (h.same_admitted hr hr₀ hid) hmatch)
        ((h.admitted_apply hr₀).1.trans hempty.symm) hkeeps (fun _ => rfl) hnot
    · refine Row.move_quiet (hpending.trans hempty.symm) hkeeps (fun _ => ?_) (fun hrolling => ?_)
      · rw [hs]; rfl
      · cases hnot hrolling
  | @reconciled p time v hdue hv =>
    obtain ⟨action, hmatch, hout, ⟨hbusy, hs, -⟩ | ⟨hrolling, rfl, -⟩ | ⟨happlying, rfl, -⟩⟩ :=
      verdict_cases hv
    · rw [State.busy, Bool.or_eq_false_iff] at hbusy
      refine hout.move hmatch rfl (hs ▸ State.Keeps.refl _) (fun happlying => ?_) (fun hrolling => ?_)
      · rw [hbusy.1] at happlying; cases happlying
      · rw [hbusy.2] at hrolling; cases hrolling
    · refine hout.move hmatch rfl (State.keeps_of_busy _ (State.busy_of_rollingBack hrolling))
        (fun happlying => ?_) (fun _ => rfl)
      rw [State.not_rollingBack happlying] at hrolling; cases hrolling
    · refine hout.move hmatch rfl (State.keeps_of_busy _ (State.busy_of_applying happlying))
        (fun _ => rfl) (fun hrolling => ?_)
      rw [State.not_rollingBack happlying] at hrolling; cases hrolling
  | verified hstate hsaved hclean hpending hreceipt =>
    have hempty : r.pending = ∅ := by
      have hok := hrow.result
      rw [Row.pending, hsaved] at *
      exact hok.clean hclean
    refine Row.move_quiet (hpending.trans hempty.symm) ?_ ?_ ?_ <;>
      rcases hstate with hstate | hstate <;> rw [hstate]
    · exact State.keeps rfl (by decide)
    · exact State.keeps rfl (by decide)
    all_goals intro h; cases h
  | canceled hstate hpending hreceipt =>
    have hempty : r.pending = ∅ := (hrow.early (hstate.imp_right Or.inl)).1
    refine Row.move_quiet (hpending.trans hempty.symm) ?_ ?_ ?_ <;>
      rcases hstate with hstate | hstate <;> rw [hstate]
    · exact State.keeps rfl (by decide)
    · exact State.keeps rfl (by decide)
    all_goals intro h; cases h
  | released hterminal hresult =>
    have hpending : result.pendingCleanupActions = r.pending := by rw [Row.pending, hresult]; rfl
    refine Row.move_quiet hpending State.keeps_released ?_ ?_
    · intro happlying
      rw [State.not_terminal (State.busy_of_applying happlying)] at hterminal
      cases hterminal
    · intro hrolling
      rw [State.not_terminal (State.busy_of_rollingBack hrolling)] at hterminal
      cases hterminal
  | @rolledBack r₀ reply time hstrict hr₀ hid =>
    have hrolling := hstrict trivial
    have hprevious := h.admitted_rollback hr hrolling hr₀ hid
    have hkeeps := State.keeps_of_busy ((rollbackOutcome expiry r₀ reply time).1)
      (State.busy_of_rollingBack hrolling)
    have hnot : r.state.applying = true → Action.rollback = .apply := by
      intro happlying
      rw [State.not_rollingBack happlying] at hrolling
      cases hrolling
    rcases rollbackOutcome_cases expiry r₀ reply time with
      ⟨p, hmatch, hout, -⟩ | hs
    · exact hout.move (receiptMatches_same (h.same_admitted hr hr₀ hid) hmatch) hprevious hkeeps hnot
        fun _ => rfl
    · refine Row.move_quiet ?_ hkeeps (fun happlying => ?_) (fun _ => ?_)
      · rw [hs]; exact hprevious
      · cases hnot happlying
      · rw [hs]; rfl

theorem Admission.move (expiry : ℚ) {a : Admission} (h : l.Core) (hr : a.row ∈ l.rows) (hmeets : a.Meets) :
    a.row.Move expiry (a.row.with now a.action.intent (a.action.intentResult a.row)) := by
  rcases hmeets.ready with ⟨hact, hstate⟩ | ⟨hact, hstate⟩ <;> rw [hact]
  · have hempty := ((h.rows _ hr).early (Or.inr (Or.inl hstate))).1
    refine Row.move_quiet hempty.symm ?_ ?_ ?_ <;> rw [hstate]
    · exact State.keeps rfl (by decide)
    · intro h; cases h
    · intro h; cases h
  · refine Row.move_quiet rfl ?_ ?_ ?_ <;> rcases hstate with hstate | hstate <;> rw [hstate]
    · exact State.keeps rfl (by decide)
    · exact State.keeps_rollbackIntent
    all_goals intro h; cases h

/-- Every row moves. -/
theorem Change.moves (h : l.Core) (hc : Change expiry True l l') (hx : x ∈ l.rows) :
    ∃ x' ∈ l'.rows, x.Move expiry x' := by
  cases hc with
  | same => exact ⟨x, hx, Row.Move.refl⟩
  | prepared q now hnew hfree => exact ⟨x, List.mem_append_left _ hx, Row.Move.refl⟩
  | @put r state result now hr hp =>
    rcases h.set_of_mem now state result hr hx with
      ⟨rfl, hset⟩ | ⟨-, hset⟩
    · exact ⟨_, hset, hp.move h hr⟩
    · exact ⟨x, hset, Row.Move.refl⟩
  | admitRow a now hr hrows hmeets hreceipt =>
    rcases h.set_of_mem now a.action.intent (a.action.intentResult a.row) hr hx with ⟨rfl, hset⟩ | ⟨-, hset⟩
    · exact ⟨_, hset, Admission.move expiry h hr hmeets⟩
    · exact ⟨x, hset, Row.Move.refl⟩

end

end SmartHome.ComponentRepair
