/-
  The invariant of the workflow ledger: what its transactions keep in whichever order they come.
-/
import SmartHome.ComponentRepair.Steps

namespace SmartHome.ComponentRepair

open Verif

/-! ## Results -/

/-- A confirmed cleanup leaves nothing pending, and an unconfirmed receipt leaves its action
    pending. -/
structure Result.Ok (result : Result) : Prop where
  clean : result.securityCleanupConfirmed = some true → result.pendingCleanupActions = ∅
  honest : ∀ a p, result.receipt = some (a, p) → p.securityCleanupConfirmed = false →
    a ∈ result.pendingCleanupActions

/-- What holds of every row. -/
structure Row.Ok (r : Row) : Prop where
  result : (r.result.getD {}).Ok
  early : r.state = .prepared ∨ r.state = .validated ∨ r.state.applying = true →
    r.pending = ∅ ∧ r.receipt = none

theorem Result.ok_of_none {result : Result} (hpending : result.pendingCleanupActions = ∅)
    (hreceipt : result.receipt = none) : result.Ok where
  clean _ := hpending
  honest a p h := by rw [hreceipt] at h; cases h

theorem Result.withOutcome_ok (result previous : Result) (action : Action) (p : Receipt) :
    (result.withOutcome previous action p).Ok where
  clean h := by simpa [Result.withOutcome] using h
  honest a p' h hp := by
    simp only [Result.withOutcome, Option.some.injEq, Prod.mk.injEq] at h ⊢
    obtain ⟨rfl, rfl⟩ := h
    simp [hp]

theorem Result.withOutcome_receipt (result previous : Result) (action : Action) (p : Receipt) :
    (result.withOutcome previous action p).receipt = some (action, p) := rfl

/-- An outcome changes at most whether its own action is pending. -/
theorem Result.mem_withOutcome {result previous : Result} {action a : Action} {p : Receipt} :
    a ∈ (result.withOutcome previous action p).pendingCleanupActions ↔
      (a = action ∧ p.securityCleanupConfirmed = false) ∨
        (a ≠ action ∧ a ∈ previous.pendingCleanupActions) := by
  simp only [Result.withOutcome]
  cases hp : p.securityCleanupConfirmed with
  | true => simp
  | false => by_cases ha : a = action <;> simp [ha]

/-! ## The invariant -/

/-- The states that only an operation with an intent to apply can have. -/
def State.effected : State → Bool
  | applyIntent | uncertain | appliedAwaitingFunctionalProof | verified | rollbackIntent
  | rollbackUncertain | rollbackRejectedWithoutEffect => true
  | _ => false

/-- The intents so far. -/
def Ledger.keys (l : Ledger) : List (String × Action) := l.admissions.map Admission.key

/-- What holds of the ledger between any two transactions. -/
structure Ledger.Core (l : Ledger) : Prop where
  ids : (l.rows.map Row.id).Nodup
  rows : ∀ r ∈ l.rows, r.Ok
  once : l.keys.Nodup
  meets : ∀ a ∈ l.admissions, a.Meets
  rowOf : ∀ a ∈ l.admissions, a.row.Ok ∧ ∃ r ∈ l.rows, a.row.Same r
  recorded : ∀ a ∈ l.admissions, a.action = .rollback → (a.row.id, .rollbackIntent) ∈ l.receipts
  after : ∀ a ∈ l.admissions, a.action = .rollback → (a.row.id, .apply) ∈ l.keys
  fresh : ∀ r ∈ l.rows, r.state = .prepared ∨ r.state = .validated → (r.id, .apply) ∉ l.keys
  effected : ∀ r ∈ l.rows, r.state.effected = true → (r.id, .apply) ∈ l.keys
  rolling : ∀ r ∈ l.rows, r.state.rollingBack = true →
    ∃ a ∈ l.admissions, a.action = .rollback ∧ a.row.id = r.id ∧ a.row.pending = r.pending

/-- A state and a result that may be put on a row. -/
structure Fits (l : Ledger) (r : Row) (state : State) (result : Result) : Prop where
  ok : result.Ok
  early : state = .prepared ∨ state = .validated ∨ state.applying = true →
    result.pendingCleanupActions = ∅ ∧ result.receipt = none
  fresh : state = .prepared ∨ state = .validated → (r.id, .apply) ∉ l.keys
  effected : state.effected = true → (r.id, .apply) ∈ l.keys
  rolling : state.rollingBack = true → ∃ a ∈ l.admissions, a.action = .rollback ∧
    a.row.id = r.id ∧ a.row.pending = result.pendingCleanupActions

section
variable {l l' : Ledger} {r : Row} {now : ℚ} {state : State} {result : Result}

theorem Ledger.Core.eq_of_id (h : l.Core) {x : Row} (hr : r ∈ l.rows) (hx : x ∈ l.rows)
    (hid : x.id = r.id) : x = r := eq_of_key_eq h.ids hx hr hid

theorem Ledger.Core.mem_set (h : l.Core) (hr : r ∈ l.rows) {x : Row} :
    x ∈ (l.set r.id now state result).rows ↔
      (x ∈ l.rows ∧ x.id ≠ r.id) ∨ x = r.with now state result := by
  simp only [Ledger.set, mem_amend]
  refine or_congr_right ⟨?_, ?_⟩
  · rintro ⟨y, hy, hid, rfl⟩
    rw [h.eq_of_id hr hy hid]
    rfl
  · rintro rfl
    exact ⟨r, hr, rfl, rfl⟩

/-- Every row is still there, the one that was set with its new state and result. -/
theorem Ledger.Core.set_of_mem (h : l.Core) (now : ℚ) (state : State) (result : Result) (hr : r ∈ l.rows) {x : Row} (hx : x ∈ l.rows) :
    (x = r ∧ r.with now state result ∈ (l.set r.id now state result).rows) ∨
      (x.id ≠ r.id ∧ x ∈ (l.set r.id now state result).rows) := by
  by_cases hid : x.id = r.id
  · exact Or.inl ⟨h.eq_of_id hr hx hid, (h.mem_set hr).2 (Or.inr rfl)⟩
  · exact Or.inr ⟨hid, (h.mem_set hr).2 (Or.inl ⟨hx, hid⟩)⟩

theorem Ledger.Core.set (h : l.Core) (hr : r ∈ l.rows) (hfits : Fits l r state result) :
    (l.set r.id now state result).Core where
  ids := by
    rw [Ledger.set, map_key_amend]
    · exact h.ids
    · exact fun _ _ _ => rfl
  rows x hx := by
    rcases (h.mem_set hr).1 hx with ⟨hx, -⟩ | rfl
    · exact h.rows x hx
    · exact ⟨hfits.ok, hfits.early⟩
  once := h.once
  meets := h.meets
  rowOf a ha := by
    obtain ⟨hok, x, hx, hsame⟩ := h.rowOf a ha
    rcases h.set_of_mem now state result hr hx with ⟨rfl, hmem⟩ | ⟨-, hmem⟩
    · exact ⟨hok, _, hmem, hsame.trans Row.same_with⟩
    · exact ⟨hok, x, hmem, hsame⟩
  recorded a ha hact := List.mem_append_left _ (h.recorded a ha hact)
  after := h.after
  fresh x hx hstate := by
    rcases (h.mem_set hr).1 hx with ⟨hx, -⟩ | rfl
    · exact h.fresh x hx hstate
    · exact hfits.fresh hstate
  effected x hx hstate := by
    rcases (h.mem_set hr).1 hx with ⟨hx, -⟩ | rfl
    · exact h.effected x hx hstate
    · exact hfits.effected hstate
  rolling x hx hstate := by
    rcases (h.mem_set hr).1 hx with ⟨hx, -⟩ | rfl
    · exact h.rolling x hx hstate
    · exact hfits.rolling hstate

end

/-! ## Outcomes -/

/-- A result that records the receipt of an action. -/
structure IsOutcome (result previous : Result) (action : Action) (p : Receipt) : Prop where
  ok : result.Ok
  receipt : result.receipt = some (action, p)
  pending : ∀ a, a ∈ result.pendingCleanupActions ↔ (a = action ∧ p.securityCleanupConfirmed = false) ∨
    (a ≠ action ∧ a ∈ previous.pendingCleanupActions)

theorem isOutcome {result previous : Result} {action : Action} {p : Receipt} :
    IsOutcome (result.withOutcome previous action p) previous action p :=
  ⟨Result.withOutcome_ok _ _ _ _, rfl, fun _ => Result.mem_withOutcome⟩

section
variable {expiry now : ℚ} {r r₀ : Row} {p : Receipt} {v : State × Result} {reply : Option Receipt}

/-- Members that say nothing about the cleanup. -/
theorem IsOutcome.congr {result result' previous : Result} {action : Action}
    (h : IsOutcome result previous action p)
    (hconfirmed : result'.securityCleanupConfirmed = result.securityCleanupConfirmed)
    (hpending : result'.pendingCleanupActions = result.pendingCleanupActions)
    (hreceipt : result'.receipt = result.receipt) : IsOutcome result' previous action p where
  ok := ⟨by rw [hconfirmed, hpending]; exact h.ok.clean, by rw [hreceipt, hpending]; exact h.ok.honest⟩
  receipt := hreceipt.trans h.receipt
  pending := by rw [hpending]; exact h.pending

theorem rollbackRejected_isOutcome {previous : Result} :
    IsOutcome (rollbackRejected previous p) previous .rollback p := by
  have h : IsOutcome (previous.withOutcome previous .rollback p) previous .rollback p := isOutcome
  exact h.congr rfl rfl rfl

/-- A receipt that matches a row matches it as it was earlier or later. -/
theorem receiptMatches_same {action : Option Action} (h : r₀.Same r)
    (hp : receiptMatches expiry r₀ p action now) : receiptMatches expiry r p action now := by
  unfold receiptMatches timesMatch at *
  rw [h.id, h.component, h.task, h.created]
  exact hp

theorem verdict_cases (h : verdict expiry r p now = some v) :
    ∃ action, receiptMatches expiry r p (some action) now ∧
      IsOutcome v.2 (r.result.getD {}) action p ∧
      ((r.state.busy = false ∧ v.1 = r.state ∧ action ∈ r.pending) ∨
        (r.state.rollingBack = true ∧ action = .rollback ∧
          (v.1 = .rollbackRejectedWithoutEffect ∨ v.1 = .rolledBack)) ∨
        (r.state.applying = true ∧ action = .apply ∧ (v.1 = .failedWithoutEffect ∨
          v.1 = .appliedAwaitingFunctionalProof ∨ v.1 = .confirmedNotApplied))) := by
  unfold verdict at h
  by_cases hbusy : r.state.busy = false
  · rw [if_pos hbusy] at h
    simp only [cleanupVerdict, bind_some, guard_some, exists_unit, pure_some] at h
    obtain ⟨action, -, ⟨hmem, -, hmatch⟩, rfl⟩ := h
    have hout : IsOutcome ((r.result.getD {}).withOutcome (r.result.getD {}) action p)
        (r.result.getD {}) action p := isOutcome
    exact ⟨action, hmatch, hout.congr rfl rfl rfl, Or.inl ⟨hbusy, rfl, hmem⟩⟩
  · rw [if_neg hbusy] at h
    by_cases hrolling : r.state.rollingBack = true
    · rw [if_pos hrolling, rollbackVerdict] at h
      split_ifs at h with hmatch heffect hloaded
      · obtain rfl := Option.some.inj h
        exact ⟨_, hmatch, rollbackRejected_isOutcome, Or.inr (Or.inl ⟨hrolling, rfl, Or.inl rfl⟩)⟩
      · obtain rfl := Option.some.inj h
        exact ⟨_, hmatch, isOutcome, Or.inr (Or.inl ⟨hrolling, rfl, Or.inr rfl⟩)⟩
    · have happlying : r.state.applying = true := by
        rw [State.busy, Bool.or_eq_false_iff, not_and_or] at hbusy
        rcases hbusy with h | h
        · simpa using h
        · exact absurd (by simpa using h) hrolling
      rw [if_neg hrolling, applyVerdict] at h
      split_ifs at h with hmatch heffect hcandidate hbase
      · obtain rfl := Option.some.inj h
        exact ⟨_, hmatch, isOutcome, Or.inr (Or.inr ⟨happlying, rfl, Or.inl rfl⟩)⟩
      · obtain rfl := Option.some.inj h
        exact ⟨_, hmatch, isOutcome, Or.inr (Or.inr ⟨happlying, rfl, Or.inr (Or.inl rfl)⟩)⟩
      · obtain rfl := Option.some.inj h
        exact ⟨_, hmatch, isOutcome, Or.inr (Or.inr ⟨happlying, rfl, Or.inr (Or.inr rfl)⟩)⟩

/-- The receipt that a reply of the worker holds, if it matches. -/
theorem filter_matches {action : Option Action}
    (h : reply.filter (fun p => receiptMatches expiry r p action now) = some p) :
    receiptMatches expiry r p action now := by
  obtain ⟨-, hp⟩ := Option.filter_eq_some_iff.1 h
  exact of_decide_eq_true hp

theorem applyOutcome_cases (expiry : ℚ) (r : Row) (reply : Option Receipt) (now : ℚ) :
    (∃ p, receiptMatches expiry r p (some .apply) now ∧
      IsOutcome (applyOutcome expiry r reply now).2 (r.result.getD {}) .apply p ∧
      ((applyOutcome expiry r reply now).1 = .failedWithoutEffect ∨
        (applyOutcome expiry r reply now).1 = .appliedAwaitingFunctionalProof)) ∨
    ((applyOutcome expiry r reply now).1 = .uncertain ∧
      (applyOutcome expiry r reply now).2.pendingCleanupActions = ∅ ∧
      (applyOutcome expiry r reply now).2.receipt = none) := by
  unfold applyOutcome
  cases hf : reply.filter fun p => receiptMatches expiry r p (some .apply) now with
  | none => exact Or.inr ⟨rfl, rfl, rfl⟩
  | some p =>
    simp only
    split_ifs
    · exact Or.inl ⟨p, filter_matches hf, isOutcome, Or.inl rfl⟩
    · exact Or.inl ⟨p, filter_matches hf, isOutcome, Or.inr rfl⟩
    · exact Or.inr ⟨rfl, rfl, rfl⟩

theorem rollbackOutcome_cases (expiry : ℚ) (r : Row) (reply : Option Receipt) (now : ℚ) :
    (∃ p, receiptMatches expiry r p (some .rollback) now ∧
      IsOutcome (rollbackOutcome expiry r reply now).2 (r.result.getD {}) .rollback p ∧
      ((rollbackOutcome expiry r reply now).1 = .rollbackRejectedWithoutEffect ∨
        (rollbackOutcome expiry r reply now).1 = .rolledBack)) ∨
    rollbackOutcome expiry r reply now =
      (.rollbackUncertain, { r.result.getD {} with automaticRetry := some false }) := by
  unfold rollbackOutcome
  cases hf : reply.filter fun p => receiptMatches expiry r p (some .rollback) now with
  | none => exact Or.inr rfl
  | some p =>
    simp only
    split_ifs
    · exact Or.inl ⟨p, filter_matches hf, rollbackRejected_isOutcome, Or.inl rfl⟩
    · exact Or.inl ⟨p, filter_matches hf, isOutcome, Or.inr rfl⟩
    · exact Or.inr rfl

/-! ## Puts keep the invariant -/

variable {strict : Prop} {l l' : Ledger} {state : State} {result : Result}

theorem Ledger.Core.admitted (h : l.Core) {action : Action} (hr₀ : l.Admitted action r₀) :
    ∃ a ∈ l.admissions, a.action = action ∧ a.row = r₀ ∧ a.Meets ∧ r₀.Ok ∧ ∃ x ∈ l.rows, r₀.Same x := by
  obtain ⟨a, ha, hact, rfl⟩ := hr₀
  exact ⟨a, ha, hact, rfl, h.meets a ha, h.rowOf a ha⟩

/-- The row of an intent to apply was validated, so nothing was pending. -/
theorem Ledger.Core.admitted_apply (h : l.Core) (hr₀ : l.Admitted .apply r₀) :
    r₀.pending = ∅ ∧ r₀.receipt = none := by
  obtain ⟨a, -, hact, rfl, hmeets, hok, -⟩ := h.admitted hr₀
  have hstate : a.row.state = .validated := by
    have := hmeets.2.2.2
    rw [hact] at this
    exact this.1
  exact hok.early (Or.inr (Or.inl hstate))

theorem Ledger.Core.same_admitted (h : l.Core) {action : Action} (hr : r ∈ l.rows)
    (hr₀ : l.Admitted action r₀) (hid : r₀.id = r.id) : r₀.Same r := by
  obtain ⟨a, -, -, -, -, -, x, hx, hsame⟩ := h.admitted hr₀
  rw [← h.eq_of_id hr hx (hsame.id.trans hid)]
  exact hsame

/-- A state in which no effect is under way, and that is not an early one. -/
theorem Fits.late (hok : result.Ok) (hprepared : state ≠ .prepared) (hvalidated : state ≠ .validated)
    (hbusy : state.busy = false) (heffected : state.effected = true → (r.id, .apply) ∈ l.keys) :
    Fits l r state result := by
  rw [State.busy, Bool.or_eq_false_iff] at hbusy
  refine ⟨hok, ?_, ?_, heffected, ?_⟩
  · rintro (h | h | h)
    · exact absurd h hprepared
    · exact absurd h hvalidated
    · rw [hbusy.1] at h; cases h
  · rintro (h | h)
    · exact absurd h hprepared
    · exact absurd h hvalidated
  · intro h
    rw [hbusy.2] at h; cases h

theorem State.effected_of_busy {s : State} (h : s.busy = true) : s.effected = true := by
  cases s <;> first | rfl | cases h

theorem State.busy_of_applying {s : State} (h : s.applying = true) : s.busy = true := by
  rw [State.busy, h, Bool.true_or]

theorem State.busy_of_rollingBack {s : State} (h : s.rollingBack = true) : s.busy = true := by
  rw [State.busy, h, Bool.or_true]

theorem Puts.fits (h : l.Core) (hr : r ∈ l.rows) (hp : Puts expiry strict l r state result) :
    Fits l r state result := by
  have hrow := h.rows r hr
  cases hp with
  | validated proof hstate =>
    refine ⟨Result.ok_of_none rfl rfl, fun _ => ⟨rfl, rfl⟩, fun _ => h.fresh r hr (Or.inl hstate), ?_, ?_⟩
    · intro h; cases h
    · intro h; cases h
  | @applied r₀ reply now happlying hr₀ hid =>
    have hkey : (r.id, Action.apply) ∈ l.keys :=
      h.effected r hr (State.effected_of_busy (State.busy_of_applying happlying))
    rcases applyOutcome_cases expiry r₀ reply now with
      ⟨p, -, hout, hs | hs⟩ | ⟨hs, hpending, hreceipt⟩
    · rw [hs]
      exact .late hout.ok (by decide) (by decide) rfl fun _ => hkey
    · rw [hs]
      exact .late hout.ok (by decide) (by decide) rfl fun _ => hkey
    · rw [hs]
      refine ⟨Result.ok_of_none hpending hreceipt, fun _ => ⟨hpending, hreceipt⟩, ?_, fun _ => hkey, ?_⟩
      · rintro (h | h) <;> cases h
      · intro h; cases h
  | reconciled hdue hv =>
    obtain ⟨action, -, hout, ⟨hbusy, hs, hmem⟩ | ⟨hrolling, -, hs⟩ | ⟨happlying, -, hs⟩⟩ :=
      verdict_cases hv
    · rw [hs]
      -- something is pending, so the state is not an early one
      have hlate : ¬ (r.state = .prepared ∨ r.state = .validated ∨ r.state.applying = true) := by
        intro hearly
        rw [(hrow.early hearly).1] at hmem
        exact absurd hmem (Finset.notMem_empty action)
      rw [not_or, not_or] at hlate
      exact .late hout.ok hlate.1 hlate.2.1 hbusy (h.effected r hr)
    · have hkey := h.effected r hr (State.effected_of_busy (State.busy_of_rollingBack hrolling))
      rcases hs with hs | hs <;> rw [hs]
      · exact .late hout.ok (by decide) (by decide) rfl fun _ => hkey
      · exact .late hout.ok (by decide) (by decide) rfl fun _ => hkey
    · have hkey := h.effected r hr (State.effected_of_busy (State.busy_of_applying happlying))
      rcases hs with hs | hs | hs <;> rw [hs]
      · exact .late hout.ok (by decide) (by decide) rfl fun _ => hkey
      · exact .late hout.ok (by decide) (by decide) rfl fun _ => hkey
      · exact .late hout.ok (by decide) (by decide) rfl fun _ => hkey
  | verified hstate hsaved hclean hpending hreceipt =>
    refine .late (Result.ok_of_none hpending hreceipt) (by decide) (by decide) rfl fun _ => h.effected r hr ?_
    rcases hstate with hs | hs <;> rw [hs] <;> rfl
  | canceled hstate hpending hreceipt =>
    exact .late (Result.ok_of_none hpending hreceipt) (by decide) (by decide) rfl fun h => by cases h
  | released hterminal hresult =>
    have hok := hrow.result
    rw [hresult, Option.getD_some] at hok
    exact .late hok (by decide) (by decide) rfl fun h => by cases h
  | @rolledBack r₀ reply now hrolling hr₀ hid =>
    obtain ⟨a, ha, hact, rfl, -, hok, -⟩ := h.admitted hr₀
    have hkey : (r.id, Action.apply) ∈ l.keys := hid ▸ h.after a ha hact
    rcases rollbackOutcome_cases expiry a.row reply now with
      ⟨p, -, hout, hs | hs⟩ | hs
    · rw [hs]
      exact .late hout.ok (by decide) (by decide) rfl fun _ => hkey
    · rw [hs]
      exact .late hout.ok (by decide) (by decide) rfl fun _ => hkey
    · rw [hs]
      refine ⟨⟨hok.result.clean, hok.result.honest⟩, ?_, ?_, fun _ => hkey, fun _ => ⟨a, ha, hact, hid, rfl⟩⟩
      · rintro (h | h | h) <;> cases h
      · rintro (h | h) <;> cases h

/-! ## Every change keeps the invariant -/

theorem Ledger.Core.prepared (h : l.Core) (q : Preparation) (hnew : ∀ r ∈ l.rows, r.id ≠ q.op) :
    Ledger.Core { l with rows := l.rows ++ [q.row now], audit := l.audit ++ [(q.op, .prepared)] } where
  ids := nodup_keys_append h.ids hnew
  rows r hr := by
    rcases mem_concat.1 hr with hr | rfl
    · exact h.rows r hr
    · exact ⟨Result.ok_of_none rfl rfl, fun _ => ⟨rfl, rfl⟩⟩
  once := h.once
  meets := h.meets
  rowOf a ha := by
    obtain ⟨hok, r, hr, hsame⟩ := h.rowOf a ha
    exact ⟨hok, r, List.mem_append_left _ hr, hsame⟩
  recorded := h.recorded
  after := h.after
  fresh r hr hstate := by
    rcases mem_concat.1 hr with hr | rfl
    · exact h.fresh r hr hstate
    · -- an intent for the operation would have been for one of the rows
      intro hkey
      obtain ⟨a, ha, hid⟩ := List.mem_map.1 hkey
      obtain ⟨-, x, hx, hsame⟩ := h.rowOf a ha
      exact hnew x hx (hsame.id.trans (Prod.mk.inj hid).1)
  effected r hr hstate := by
    rcases mem_concat.1 hr with hr | rfl
    · exact h.effected r hr hstate
    · cases hstate
  rolling r hr hstate := by
    rcases mem_concat.1 hr with hr | rfl
    · exact h.rolling r hr hstate
    · cases hstate

theorem Admission.Meets.ready {a : Admission} (h : a.Meets) :
    (a.action = .apply ∧ a.row.state = .validated) ∨
      (a.action = .rollback ∧
        (a.row.state = .appliedAwaitingFunctionalProof ∨ a.row.state = .verified)) := by
  have h' := h.2.2.2
  cases hact : a.action <;> rw [hact] at h'
  · exact Or.inl ⟨rfl, h'.1⟩
  · exact Or.inr ⟨rfl, h'.1⟩

/-- An intent to apply is new for a validated operation, and an intent to roll back leaves a
    receipt. -/
theorem Ledger.Core.key_fresh (h : l.Core) {a : Admission} (hr : a.row ∈ l.rows) (hmeets : a.Meets)
    (hreceipt : a.action = .rollback → (a.row.id, .rollbackIntent) ∉ l.receipts) : a.key ∉ l.keys := by
  rcases hmeets.ready with ⟨hact, hstate⟩ | ⟨hact, -⟩
  · rw [Admission.key, hact]
    exact h.fresh _ hr (Or.inr hstate)
  · intro hkey
    obtain ⟨b, hb, hkey⟩ := List.mem_map.1 hkey
    obtain ⟨hid, hact'⟩ := Prod.mk.inj hkey
    exact hreceipt hact (hid ▸ h.recorded b hb (hact'.trans hact))

theorem Ledger.Core.admitRow (h : l.Core) {a : Admission} (hr : a.row ∈ l.rows) (hmeets : a.Meets)
    (hreceipt : a.action = .rollback → (a.row.id, .rollbackIntent) ∉ l.receipts) :
    (l.admitRow a now).Core := by
  have hkeys : (l.admitRow a now).keys = l.keys ++ [a.key] := by
    rw [Ledger.keys, Ledger.admitRow, List.map_append]; rfl
  have hmem : ∀ x, x ∈ (l.admitRow a now).rows ↔ (x ∈ l.rows ∧ x.id ≠ a.row.id) ∨
      x = a.row.with now a.action.intent (a.action.intentResult a.row) := fun x => h.mem_set hr
  have happlied : a.action = .rollback → (a.row.id, Action.apply) ∈ l.keys := by
    intro hact
    refine h.effected a.row hr ?_
    rcases hmeets.ready with ⟨hact', -⟩ | ⟨-, hs | hs⟩
    · rw [hact] at hact'; cases hact'
    · rw [hs]; rfl
    · rw [hs]; rfl
  constructor
  case ids =>
    show ((l.set a.row.id now _ _).rows.map Row.id).Nodup
    rw [Ledger.set, map_key_amend]
    · exact h.ids
    · exact fun _ _ _ => rfl
  case rows =>
    intro x hx
    rcases (hmem x).1 hx with ⟨hx, -⟩ | rfl
    · exact h.rows x hx
    · rcases hmeets.ready with ⟨hact, -⟩ | ⟨hact, -⟩ <;> rw [hact]
      · exact ⟨Result.ok_of_none rfl rfl, fun _ => ⟨rfl, rfl⟩⟩
      · have hok := (h.rows a.row hr).result
        exact ⟨⟨hok.clean, hok.honest⟩, by rintro (h | h | h) <;> cases h⟩
  case once =>
    rw [hkeys]
    rw [← List.concat_eq_append]
    exact h.once.concat (h.key_fresh hr hmeets hreceipt)
  case meets =>
    intro b hb
    rcases mem_concat.1 hb with hb | rfl
    · exact h.meets b hb
    · exact hmeets
  case rowOf =>
    intro b hb
    rcases mem_concat.1 hb with hb | rfl
    · obtain ⟨hok, x, hx, hsame⟩ := h.rowOf b hb
      refine ⟨hok, ?_⟩
      rcases h.set_of_mem now a.action.intent (a.action.intentResult a.row) hr hx with ⟨rfl, hset⟩ | ⟨-, hset⟩
      · exact ⟨_, hset, hsame.trans Row.same_with⟩
      · exact ⟨x, hset, hsame⟩
    · exact ⟨h.rows _ hr, _, (hmem _).2 (Or.inr rfl), Row.same_with⟩
  case recorded =>
    intro b hb hact
    rcases mem_concat.1 hb with hb | rfl
    · exact List.mem_append_left _ (h.recorded b hb hact)
    · refine List.mem_append_right _ ?_
      rw [hact]
      exact List.mem_singleton_self _
  case after =>
    intro b hb hact
    rw [hkeys]
    rcases mem_concat.1 hb with hb | rfl
    · exact List.mem_append_left _ (h.after b hb hact)
    · exact List.mem_append_left _ (happlied hact)
  case fresh =>
    intro x hx hstate
    rw [hkeys, mem_concat, not_or]
    rcases (hmem x).1 hx with ⟨hx, hne⟩ | rfl
    · exact ⟨h.fresh x hx hstate, fun hkey => hne (Prod.mk.inj hkey).1⟩
    · rw [Row.with_state] at hstate
      cases hact : a.action <;> rw [hact] at hstate <;> rcases hstate with h | h <;> cases h
  case effected =>
    intro x hx hstate
    rw [hkeys]
    rcases (hmem x).1 hx with ⟨hx, -⟩ | rfl
    · exact List.mem_append_left _ (h.effected x hx hstate)
    · rcases hmeets.ready with ⟨hact, -⟩ | ⟨hact, -⟩
      · refine List.mem_append_right _ (List.mem_singleton.2 ?_)
        rw [Admission.key, hact]
        rfl
      · exact List.mem_append_left _ (happlied hact)
  case rolling =>
    intro x hx hstate
    rcases (hmem x).1 hx with ⟨hx, -⟩ | rfl
    · obtain ⟨b, hb, hrest⟩ := h.rolling x hx hstate
      exact ⟨b, List.mem_append_left _ hb, hrest⟩
    · refine ⟨a, List.mem_append_right _ (List.mem_singleton_self a), ?_, rfl, ?_⟩
      · cases hact : a.action
        · rw [hact, Row.with_state] at hstate; cases hstate
        · rfl
      · cases hact : a.action
        · rw [hact, Row.with_state] at hstate; cases hstate
        · rfl

theorem Change.core (h : l.Core) (hc : Change expiry strict l l') : l'.Core := by
  cases hc with
  | same => exact h
  | prepared q now hnew hfree => exact h.prepared q hnew
  | put now hr hp => exact h.set hr (hp.fits h hr)
  | admitRow a now hr hrows hmeets hreceipt => exact h.admitRow hr hmeets hreceipt

/-- The intents are never taken back. -/
theorem Change.admissions (hc : Change expiry strict l l') :
    l.admissions.Sublist l'.admissions := by
  cases hc with
  | same => exact List.Sublist.refl _
  | prepared q now hnew hfree => exact List.Sublist.refl _
  | put now hr hp => exact List.Sublist.refl _
  | admitRow a now hr hrows hmeets hreceipt => exact List.sublist_append_left _ _

end

end SmartHome.ComponentRepair
