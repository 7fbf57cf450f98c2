/-
  What a transaction of the workflow can do to the ledger, and what holds of the ledger whichever
  transactions were made in whichever order.
-/
import SmartHome.ComponentRepair.Workflow

namespace SmartHome.ComponentRepair

open Verif

/-! ## Views of a row -/

/-- The actions whose cleanup is pending. -/
def Row.pending (r : Row) : Finset Action := (r.result.getD {}).pendingCleanupActions

/-- The receipt that was recorded last. -/
def Row.receipt (r : Row) : Option (Action × Receipt) := (r.result.getD {}).receipt

/-- The operation and the action that an intent was for. -/
def Admission.key (a : Admission) : String × Action := (a.row.id, a.action)

/-- What no transaction changes of a row. -/
structure Row.Same (r r' : Row) : Prop where
  id : r'.id = r.id
  component : r'.component = r.component
  task : r'.task = r.task
  base : r'.base = r.base
  candidate : r'.candidate = r.candidate
  created : r'.created = r.created

theorem Row.Same.refl (r : Row) : r.Same r := ⟨rfl, rfl, rfl, rfl, rfl, rfl⟩

theorem Row.Same.trans {a b c : Row} (h : a.Same b) (h' : b.Same c) : a.Same c :=
  ⟨h'.id.trans h.id, h'.component.trans h.component, h'.task.trans h.task, h'.base.trans h.base,
    h'.candidate.trans h.candidate, h'.created.trans h.created⟩

/-- The row with a new state and result. -/
def Row.with (r : Row) (now : ℚ) (state : State) (result : Result) : Row :=
  { r with state, updated := now, result := some result }

section
variable {r : Row} {now : ℚ} {state : State} {result : Result}

@[simp] theorem Row.with_state : (r.with now state result).state = state := rfl
@[simp] theorem Row.with_result : (r.with now state result).result = some result := rfl
@[simp] theorem Row.with_pending :
    (r.with now state result).pending = result.pendingCleanupActions := rfl
@[simp] theorem Row.with_receipt : (r.with now state result).receipt = result.receipt := rfl

theorem Row.same_with : r.Same (r.with now state result) := ⟨rfl, rfl, rfl, rfl, rfl, rfl⟩

end

/-! ## Steps -/

/-- An intent was recorded for a row as it was then. -/
def Ledger.Admitted (l : Ledger) (action : Action) (r : Row) : Prop :=
  ∃ a ∈ l.admissions, a.action = action ∧ a.row = r

/-- The state and the result that a transaction may put on a row.  With `strict` the second
    transaction of a rollback finds the operation still rolling back. -/
inductive Puts (expiry : ℚ) (strict : Prop) (l : Ledger) (r : Row) : State → Result → Prop
  | validated (proof : Validation) : r.state = .prepared →
      Puts expiry strict l r .validated { validation := some proof }
  | applied {r₀ : Row} (reply : Option Receipt) (now : ℚ) : r.state.applying = true →
      l.Admitted .apply r₀ → r₀.id = r.id →
      Puts expiry strict l r (applyOutcome expiry r₀ reply now).1 (applyOutcome expiry r₀ reply now).2
  | reconciled {p : Receipt} {now : ℚ} {v : State × Result} : r.state.busy = true ∨ r.cleanupDue →
      verdict expiry r p now = some v → Puts expiry strict l r v.1 v.2
  | verified {saved result : Result} :
      r.state = .appliedAwaitingFunctionalProof ∨ r.state = .rollbackRejectedWithoutEffect →
      r.result = some saved → saved.securityCleanupConfirmed = some true →
      result.pendingCleanupActions = ∅ → result.receipt = none →
      Puts expiry strict l r .verified result
  | canceled {result : Result} : r.state = .prepared ∨ r.state = .validated →
      result.pendingCleanupActions = ∅ → result.receipt = none →
      Puts expiry strict l r .failedWithoutEffect result
  | released {result : Result} : r.state.terminal = true → r.result = some result →
      Puts expiry strict l r .released result
  | rolledBack {r₀ : Row} (reply : Option Receipt) (now : ℚ) : (strict → r.state.rollingBack = true) →
      l.Admitted .rollback r₀ → r₀.id = r.id →
      Puts expiry strict l r (rollbackOutcome expiry r₀ reply now).1
        (rollbackOutcome expiry r₀ reply now).2

/-- What an intent requires of the row and of what is live. -/
def Admission.Meets (a : Admission) : Prop :=
  a.live.collectionError = none ∧ a.row ∈ a.rows ∧
    (∀ x ∈ a.rows, x.id ≠ a.row.id → x.state.busy = false) ∧
    match a.action with
    | .apply => a.row.state = .validated ∧ a.live.loadedSha256 = some a.row.base
    | .rollback => (a.row.state = .appliedAwaitingFunctionalProof ∨ a.row.state = .verified) ∧
        a.live.loadedSha256 = some a.row.candidate ∧ a.live.backupVerified = true

/-- The state of an intent. -/
def Action.intent : Action → State
  | .apply => .applyIntent
  | .rollback => .rollbackIntent

/-- The result of an intent. -/
def Action.intentResult (r : Row) : Action → Result
  | .apply => { automaticRetry := some false }
  | .rollback => { r.result.getD {} with baseSha256 := some r.base, automaticRetry := some false }

/-- The ledger with an intent. -/
def Ledger.admitRow (l : Ledger) (a : Admission) (now : ℚ) : Ledger :=
  { l.set a.row.id now a.action.intent (a.action.intentResult a.row) with
    admissions := l.admissions ++ [a] }

/-- What a transaction may make of the ledger. -/
inductive Change (expiry : ℚ) (strict : Prop) (l : Ledger) : Ledger → Prop
  | same : Change expiry strict l l
  | prepared (q : Preparation) (now : ℚ) : (∀ r ∈ l.rows, r.id ≠ q.op) →
      (∀ r ∈ l.rows, r.state ≠ .released → r.component ≠ q.component) →
      Change expiry strict l { l with
        rows := l.rows ++ [q.row now], audit := l.audit ++ [(q.op, .prepared)] }
  | put {r : Row} {state : State} {result : Result} (now : ℚ) : r ∈ l.rows →
      Puts expiry strict l r state result → Change expiry strict l (l.set r.id now state result)
  | admitRow (a : Admission) (now : ℚ) : a.row ∈ l.rows → a.rows = l.rows → a.Meets →
      (a.action = .rollback → (a.row.id, .rollbackIntent) ∉ l.receipts) →
      Change expiry strict l (l.admitRow a now)

theorem Ledger.row_ok {op : String} {l : Ledger} {r : Row} (h : l.row op = .ok r) :
    r ∈ l.rows ∧ r.id = op := by
  simp only [Ledger.row, bind_ok, need_eq_ok, exists_unit, orFail_eq_ok] at h
  exact lookup_eq_some h.2

theorem Ledger.status_ok {op : String} {l l' : Ledger} {a : Answer} (h : l.status op = .ok (l', a)) :
    l' = l := by
  simp only [Ledger.status, bind_ok, pure_ok, Prod.mk.injEq] at h
  obtain ⟨r, -, rfl, -⟩ := h
  rfl

section
variable [Canonical Result] {expiry : ℚ} {strict : Prop} {op : String} {now : ℚ} {l l' : Ledger}
  {a : Answer}

theorem Ledger.put_ok {state : State} {result : Result} (h : l.put op now state result = .ok l') :
    l' = l.set op now state result := by
  simp only [Ledger.put, bind_ok, need_eq_ok, exists_unit, pure_ok] at h
  exact h.2.2.symm

/-- A put that is followed by the status. -/
theorem put_status_ok {state : State} {result : Result}
    (h : (l.put op now state result >>= fun l => l.status op) = .ok (l', a)) :
    l' = l.set op now state result := by
  rw [bind_ok] at h
  obtain ⟨l₁, hput, hstatus⟩ := h
  rw [Ledger.status_ok hstatus, Ledger.put_ok hput]

omit [Canonical Result] in
theorem prepare_change {q : Preparation} (h : prepare expiry q now l = .ok (l', a)) :
    Change expiry strict l l' := by
  simp only [prepare, bind_ok] at h
  obtain ⟨-, -, h⟩ := h
  cases hold : lookup Row.id q.op l.rows with
  | some old =>
    simp only [hold, bind_ok, need_eq_ok, exists_unit, pure_ok, Prod.mk.injEq] at h
    obtain ⟨-, rfl, -⟩ := h
    exact .same
  | none =>
    simp only [hold, bind_ok, need_eq_ok, exists_unit, pure_ok, Prod.mk.injEq] at h
    obtain ⟨-, -, hfree, -, rfl, -⟩ := h
    exact .prepared q now (lookup_eq_none.1 hold) hfree

theorem validate_change {verifier : Row → Except String (Option Validation)}
    (h : validate expiry op now verifier l = .ok (l', a)) : Change expiry strict l l' := by
  rw [validate, bind_ok] at h
  obtain ⟨r, hr, h⟩ := h
  obtain ⟨hmem, rfl⟩ := Ledger.row_ok hr
  by_cases hstate : r.state = .prepared
  · rw [if_neg (not_not.2 hstate)] at h
    simp only [bind_ok, need_eq_ok, exists_unit, orFail_eq_ok] at h
    obtain ⟨-, answer, -, proof, -, -, l₁, hput, hstatus⟩ := h
    rw [Ledger.status_ok hstatus, Ledger.put_ok hput]
    exact .put now hmem (.validated proof hstate)
  · rw [if_pos hstate, pure_ok] at h
    obtain ⟨rfl, -⟩ := Prod.mk.inj h
    exact .same

theorem applyBegin_change {observe : Row → Except String (Option Live)} {idle resources : Bool}
    {b : Begun} (h : applyBegin expiry op now observe idle resources l = .ok (l', b)) :
    (∃ answer, b = .answered answer ∧ l' = l) ∨
      ∃ a : Admission, a.action = .apply ∧ b = .intended a.row ∧ l' = l.admitRow a now ∧
        a.row ∈ l.rows ∧ a.rows = l.rows ∧ a.Meets := by
  rw [applyBegin, bind_ok] at h
  obtain ⟨r, hr, h⟩ := h
  obtain ⟨hmem, rfl⟩ := Ledger.row_ok hr
  by_cases hstate : r.state = .validated
  · rw [if_neg (not_not.2 hstate)] at h
    simp only [bind_ok, need_eq_ok, exists_unit, orFail_eq_ok, pure_ok, Prod.mk.injEq] at h
    obtain ⟨-, -, -, hidle, -, answer, -, live, -, ⟨hnone, hlive⟩, l₁, hput, rfl, rfl⟩ := h
    rw [Ledger.put_ok hput]
    exact Or.inr ⟨⟨.apply, r, live, l.rows⟩, rfl, rfl, rfl, hmem, rfl, hnone, hmem, hidle, hstate, hlive⟩
  · rw [if_pos hstate, pure_ok] at h
    obtain ⟨rfl, rfl⟩ := Prod.mk.inj h
    exact Or.inl ⟨_, rfl, rfl⟩

theorem rollbackBegin_change {observe : Row → Except String (Option Live)} {idle : Bool}
    {b : Begun} (h : rollbackBegin expiry op now observe idle l = .ok (l', b)) :
    (∃ answer, b = .answered answer ∧ l' = l) ∨
      ∃ a : Admission, a.action = .rollback ∧ b = .intended a.row ∧ l' = l.admitRow a now ∧
        a.row ∈ l.rows ∧ a.rows = l.rows ∧ a.Meets ∧ (a.row.id, .rollbackIntent) ∉ l.receipts := by
  rw [rollbackBegin, bind_ok] at h
  obtain ⟨r, hr, h⟩ := h
  obtain ⟨hmem, rfl⟩ := Ledger.row_ok hr
  by_cases hstate : (r.state ≠ .appliedAwaitingFunctionalProof ∧ r.state ≠ .verified) ∨
      (r.id, .rollbackIntent) ∈ l.receipts
  · rw [if_pos hstate, pure_ok] at h
    obtain ⟨rfl, rfl⟩ := Prod.mk.inj h
    exact Or.inl ⟨_, rfl, rfl⟩
  · rw [if_neg hstate] at h
    simp only [bind_ok, need_eq_ok, exists_unit, orFail_eq_ok, pure_ok, Prod.mk.injEq] at h
    obtain ⟨-, -, hidle, answer, -, live, -, ⟨hnone, hlive⟩, previous, hprevious, l₁, hput, rfl, rfl⟩ := h
    rw [not_or, not_and_or, not_not, not_not] at hstate
    have hresult : Action.intentResult r .rollback =
        { previous with baseSha256 := some r.base, automaticRetry := some false } := by
      rw [Action.intentResult, hprevious, Option.getD_some]
    refine Or.inr ⟨⟨.rollback, r, live, l.rows⟩, rfl, rfl, ?_, hmem, rfl,
      ⟨hnone, hmem, hidle, hstate.1, hlive⟩, hstate.2⟩
    rw [Ledger.put_ok hput, Ledger.admitRow, hresult]
    rfl

theorem applyEnd_change {r : Row} {reply : Option Receipt} (hr : l.Admitted .apply r)
    (h : applyEnd expiry r reply now l = .ok (l', a)) : Change expiry strict l l' := by
  rw [applyEnd, bind_ok] at h
  obtain ⟨current, hcurrent, h⟩ := h
  obtain ⟨hmem, hid⟩ := Ledger.row_ok hcurrent
  by_cases hstate : current.state.applying = false
  · rw [if_pos hstate, pure_ok] at h
    obtain ⟨rfl, -⟩ := Prod.mk.inj h
    exact .same
  · rw [if_neg hstate] at h
    rw [put_status_ok h, ← hid]
    exact .put now hmem (.applied reply now (by simpa using hstate) hr hid.symm)

theorem rollbackEnd_change {r : Row} {reply : Option Receipt} (hr : l.Admitted .rollback r)
    (hstrict : strict → ∀ x ∈ l.rows, x.id = r.id → x.state.rollingBack = true)
    (h : rollbackEnd expiry r reply now l = .ok (l', a)) : Change expiry strict l l' := by
  rw [rollbackEnd] at h
  rw [put_status_ok h]
  -- the operation is there, or the status would have failed
  rw [bind_ok] at h
  obtain ⟨l₁, hput, hstatus⟩ := h
  simp only [Ledger.status, bind_ok] at hstatus
  obtain ⟨current, hcurrent, -⟩ := hstatus
  obtain ⟨hmem, hid⟩ := Ledger.row_ok hcurrent
  rw [Ledger.put_ok hput] at hmem
  rcases mem_amend.1 hmem with ⟨hmem, hne⟩ | ⟨x, hx, hxid, -⟩
  · exact absurd hid hne
  · rw [← hxid]
    exact .put now hx (.rolledBack reply now (fun hs => hstrict hs x hx hxid) hr hxid.symm)

theorem reconcile_change {observe : Row → Except String (Option Receipt)}
    (h : reconcile expiry op now observe l = .ok (l', a)) : Change expiry strict l l' := by
  rw [reconcile, bind_ok] at h
  obtain ⟨r, hr, h⟩ := h
  obtain ⟨hmem, rfl⟩ := Ledger.row_ok hr
  by_cases hidle : r.state.busy = false ∧ ¬ r.cleanupDue
  · rw [if_pos hidle, pure_ok] at h
    obtain ⟨rfl, -⟩ := Prod.mk.inj h
    exact .same
  · rw [if_neg hidle, bind_ok] at h
    obtain ⟨answer, -, h⟩ := h
    cases answer with
    | none =>
      obtain ⟨rfl, -⟩ := Prod.mk.inj (pure_ok.1 h)
      exact .same
    | some p =>
      by_cases herror : p.collectionError ≠ none ∧
          ¬ (receiptMatches expiry r p (r.expected p) now ∧ p.definitiveNoEffect = true)
      · simp only [if_pos herror, pure_ok] at h
        obtain ⟨rfl, -⟩ := Prod.mk.inj h
        exact .same
      · simp only [if_neg herror] at h
        cases hv : verdict expiry r p now with
        | none =>
          rw [hv] at h
          rw [Ledger.status_ok h]
          exact .same
        | some v =>
          rw [hv] at h
          rw [put_status_ok h]
          refine .put now hmem (.reconciled ?_ hv)
          rw [not_and_or, not_not] at hidle
          exact hidle.imp (by simp) id

theorem verify_change {observer : Row → Except String (Option Functional)}
    (h : verify op now observer l = .ok (l', a)) : Change expiry strict l l' := by
  simp only [verify, bind_ok, need_eq_ok, exists_unit, orFail_eq_ok] at h
  obtain ⟨r, hr, hstate, saved, hsaved, hclean, -, -, p, -, -, -, -, -, l₁, hput, hstatus⟩ := h
  obtain ⟨hmem, rfl⟩ := Ledger.row_ok hr
  rw [Ledger.status_ok hstatus, Ledger.put_ok hput]
  exact .put now hmem (.verified hstate hsaved hclean rfl rfl)

theorem cancel_change (h : cancel op now l = .ok (l', a)) : Change expiry strict l l' := by
  simp only [cancel, bind_ok, need_eq_ok, exists_unit] at h
  obtain ⟨r, hr, hstate, l₁, hput, hstatus⟩ := h
  obtain ⟨hmem, rfl⟩ := Ledger.row_ok hr
  rw [Ledger.status_ok hstatus, Ledger.put_ok hput]
  exact .put now hmem (.canceled hstate rfl rfl)

theorem release_change {resultHash : String} (h : release op resultHash now l = .ok (l', a)) :
    Change expiry strict l l' := by
  simp only [release, bind_ok, need_eq_ok, exists_unit, orFail_eq_ok] at h
  obtain ⟨-, r, hr, result, hresult, h⟩ := h
  obtain ⟨hmem, rfl⟩ := Ledger.row_ok hr
  by_cases hstate : r.state = .released
  · rw [if_pos hstate] at h
    simp only [bind_ok, need_eq_ok, exists_unit, pure_ok, Prod.mk.injEq] at h
    obtain ⟨-, rfl, -⟩ := h
    exact .same
  · rw [if_neg hstate] at h
    simp only [bind_ok, need_eq_ok, exists_unit] at h
    obtain ⟨hterminal, -, -, l₁, hput, hstatus⟩ := h
    rw [Ledger.status_ok hstatus, Ledger.put_ok hput]
    exact .put now hmem (.released hterminal hresult)

end

end SmartHome.ComponentRepair
