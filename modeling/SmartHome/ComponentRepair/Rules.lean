/-
  What the calls of the workflow guarantee to one another, whichever of them run side by side.
-/
import SmartHome.Lib.Interleave
import SmartHome.ComponentRepair.Coordinator
import SmartHome.ComponentRepair.Moves

namespace SmartHome.ComponentRepair

open Verif Program

/-- At most one operation per component is not released. -/
def Ledger.Single (l : Ledger) : Prop := ∀ r ∈ l.rows, ∀ x ∈ l.rows, r.state ≠ .released →
  x.state ≠ .released → r.component = x.component → r = x

/-- The intent that a request needs. -/
def Request.intent : Request → Option (String × Action)
  | .run op action => some (op, action)
  | _ => none

theorem Request.eq_run {q : Request} {op : String} {action : Action}
    (h : q.intent = some (op, action)) : q = .run op action := by
  cases q with
  | run op' action' =>
    obtain ⟨rfl, rfl⟩ := Prod.mk.inj (Option.some.inj h)
    rfl
  | _ => cases h

section
variable (expiry : ℚ) (strict : Prop)

/-- What the transactions keep, and how the intents are issued and spent. -/
def rules : Rules Site Request (String × Action) where
  inv s := s.flow.Core ∧ (strict → s.flow.Single)
  rel s s' := s.flow.admissions.Sublist s'.flow.admissions ∧
    (strict → ∀ x ∈ s.flow.rows, ∃ x' ∈ s'.flow.rows, x.Move expiry x')
  refl _ := ⟨.refl _, fun _ x hx => ⟨x, hx, Row.Move.refl⟩⟩
  others s s' := s.flow.admissions.Sublist s'.flow.admissions
  possible _ := True
  issued s := s.flow.keys
  cost := Request.intent

end

section
variable {expiry : ℚ} {strict : Prop} {l l' : Ledger} {s : Site}

theorem rules_peers : (rules expiry strict).Peers := ⟨fun _ _ h => h.1, fun _ => trivial⟩

/-- A row that moves is as single as it was. -/
theorem Ledger.Single.set {r : Row} {now : ℚ} {state : State} {result : Result} (hsingle : l.Single)
    (h : l.Core) (hr : r ∈ l.rows) (hmove : r.Move expiry (r.with now state result)) :
    (l.set r.id now state result).Single := by
  have hfresh : ∀ x ∈ l.rows, x.id ≠ r.id → x.state ≠ .released → state ≠ .released →
      x.component ≠ r.component := by
    intro x hx hid hx' hstate hcomponent
    have hr' : r.state ≠ .released := fun hreleased => hstate (hmove.state.released hreleased)
    exact hid (congrArg Row.id (hsingle x hx r hr hx' hr' hcomponent))
  intro x hx y hy hx' hy' hcomponent
  rcases (h.mem_set hr).1 hx with ⟨hx, hidx⟩ | rfl <;> rcases (h.mem_set hr).1 hy with ⟨hy, hidy⟩ | rfl
  · exact hsingle x hx y hy hx' hy' hcomponent
  · exact absurd hcomponent (hfresh x hx hidx hx' hy')
  · exact absurd hcomponent.symm (hfresh y hy hidy hy' hx')
  · rfl

theorem Change.single (h : l.Core) (hsingle : l.Single) (hc : Change expiry True l l') : l'.Single := by
  cases hc with
  | same => exact hsingle
  | prepared q now hnew hfree =>
    intro r hr x hx hr' hx' hcomponent
    rcases mem_concat.1 hr with hr | rfl <;> rcases mem_concat.1 hx with hx | rfl
    · exact hsingle r hr x hx hr' hx' hcomponent
    · exact absurd hcomponent (hfree r hr hr')
    · exact absurd hcomponent.symm (hfree x hx hx')
    · rfl
  | put now hr hp => exact hsingle.set h hr (hp.move h hr)
  | admitRow a now hr hrows hmeets hreceipt =>
    exact hsingle.set h hr (Admission.move expiry h hr hmeets)

/-- A change is within the rules. -/
theorem Change.rules (h : (rules expiry strict).inv s) (hc : Change expiry strict s.flow l') :
    (rules expiry strict).inv { s with flow := l' } ∧ (rules expiry strict).rel s { s with flow := l' } := by
  refine ⟨⟨hc.core h.1, fun hs => ?_⟩, hc.admissions, fun hs x hx => ?_⟩
  · obtain rfl : strict = True := eq_true hs
    exact hc.single h.1 (h.2 trivial)
  · obtain rfl : strict = True := eq_true hs
    exact hc.moves h.1 hx

/-- A transaction on the workflow ledger is one on the site. -/
theorem onFlow_ok {β : Type} {f : Ledger → Except String (Ledger × β)} {s' : Site} {b : β}
    (h : (do let r ← f s.flow; return ({ s with flow := r.1 }, r.2)) = Except.ok (s', b)) :
    ∃ l', f s.flow = .ok (l', b) ∧ s' = { s with flow := l' } := by
  obtain ⟨⟨l', b'⟩, hf, h⟩ := bind_ok.1 h
  obtain ⟨rfl, rfl⟩ := Prod.mk.inj (pure_ok.1 h)
  exact ⟨l', hf, rfl⟩

theorem onJobs_ok {β : Type} {f : Jobs → Except String (Jobs × β)} {s' : Site} {b : β}
    (h : (do let r ← f s.jobs; return ({ s with jobs := r.1 }, r.2)) = Except.ok (s', b)) :
    ∃ js, s' = { s with jobs := js } := by
  obtain ⟨⟨js, b'⟩, -, h⟩ := bind_ok.1 h
  obtain ⟨rfl, -⟩ := Prod.mk.inj (pure_ok.1 h)
  exact ⟨js, rfl⟩

section
variable {α β : Type} {ok : Prog α → Site → Prop} {post : α → (rules expiry strict).Known → List (String × Action) → Prop}
  {A : (rules expiry strict).Known} {held : List (String × Action)}

/-- An intent that was recorded. -/
def known (expiry : ℚ) (strict : Prop) (action : Action) (r : Row) : (rules expiry strict).Known where
  holds s := s.flow.Admitted action r
  stable := by
    rintro s s' hrel ⟨a, ha, h⟩
    exact ⟨a, hrel.subset ha, h⟩

/-- A program that ends with a transaction. -/
theorem guar_onFlow {f : Ledger → Except String (Ledger × α)}
    (h : ∀ s l' a, A.holds s → ok (onFlow f) s → f s.flow = .ok (l', a) →
      Change expiry strict s.flow l') :
    Guar (rules expiry strict) ok (fun _ _ _ => True) (onFlow f) A held := by
  refine guar_last fun s s' b hinv hA hok hs => ?_
  obtain ⟨l', hf, rfl⟩ := onFlow_ok hs
  have hc := h s l' b hA hok hf
  obtain ⟨hinv', hrel⟩ := hc.rules hinv
  exact ⟨hinv', hrel, hc.admissions.map _⟩

/-- The first transaction of an effect: an intent is answered, or recorded and held. -/
theorem guar_begin {f : Ledger → Except String (Ledger × Begun)} (action : Action)
    {k : Begun → Prog α}
    (h : ∀ l l' b, f l = .ok (l', b) → (∃ answer, b = .answered answer ∧ l' = l) ∨
      ∃ (a : Admission) (now : ℚ), a.action = action ∧ b = .intended a.row ∧ l' = l.admitRow a now ∧
        Change expiry strict l (l.admitRow a now))
    (hanswered : ∀ answer, Guar (rules expiry strict) ok post (k (.answered answer)) A held)
    (hintended : ∀ r, Guar (rules expiry strict) ok post (k (.intended r)) (known expiry strict action r)
      ((r.id, action) :: held)) :
    Guar (rules expiry strict) ok post (onFlow f >>= k) A held := by
  refine guar_earn fun s s' b hinv hA _ hs => ?_
  obtain ⟨l', hf, rfl⟩ := onFlow_ok hs
  rcases h s.flow l' b hf with ⟨answer, rfl, rfl⟩ | ⟨a, now, rfl, rfl, rfl, hc⟩
  · exact ⟨hinv, (rules expiry strict).refl s, A, held, hA, fun t => Nat.le_refl _, hanswered answer⟩
  · obtain ⟨hinv', hrel⟩ := hc.rules hinv
    refine ⟨hinv', hrel, known expiry strict a.action a.row, _,
      ⟨a, List.mem_append_right _ (List.mem_singleton_self a), rfl, rfl⟩,
      count_earned List.map_append, hintended a.row⟩

/-! ## Calls of the workflow -/

theorem guar_clock {k : ℚ → Prog α} (h : ∀ now, Guar (rules expiry strict) ok post (k now) A held) :
    Guar (rules expiry strict) ok post (clock >>= k) A held := guar_ask rfl h

section
variable [Canonical Result] {op : String} {ok : Prog Answer → Site → Prop}

theorem flowApply_guar {idle resources : Bool} :
    Guar (rules expiry strict) ok (fun _ _ _ => True) (flowApply expiry op idle resources) A held := by
  refine guar_clock fun now => guar_ask rfl fun observe => ?_
  refine guar_begin .apply (fun l l' b h => ?_) (fun answer => trivial) fun r => ?_
  · refine (applyBegin_change h).imp_right ?_
    rintro ⟨a, hact, hb, hl, hmem, hrows, hmeets⟩
    refine ⟨a, now, hact, hb, hl, .admitRow a now hmem hrows hmeets fun hrollback => ?_⟩
    rw [hact] at hrollback
    cases hrollback
  · refine guar_spend rfl fun reply => guar_lift fun result _ => guar_clock fun now => ?_
    exact guar_onFlow fun s l' a hA _ h => applyEnd_change hA h

theorem flowRollback_guar {idle : Bool}
    (hok : strict → ∀ r reply now s, ok (onFlow (rollbackEnd expiry r reply now)) s →
      ∀ x ∈ s.flow.rows, x.id = r.id → x.state.rollingBack = true) :
    Guar (rules expiry strict) ok (fun _ _ _ => True) (flowRollback expiry op idle) A held := by
  refine guar_clock fun now => guar_ask rfl fun observe => ?_
  refine guar_begin .rollback (fun l l' b h => ?_) (fun answer => trivial) fun r => ?_
  · refine (rollbackBegin_change h).imp_right ?_
    rintro ⟨a, hact, hb, hl, hmem, hrows, hmeets, hreceipt⟩
    exact ⟨a, now, hact, hb, hl, .admitRow a now hmem hrows hmeets fun _ => hreceipt⟩
  · refine guar_spend rfl fun reply => guar_lift fun result _ => guar_clock fun now => ?_
    exact guar_onFlow fun s l' a hA hs h =>
      rollbackEnd_change hA (fun hstrict => hok hstrict r result now s hs) h

omit [Canonical Result] in
theorem flowPrepare_guar {q : Preparation} :
    Guar (rules expiry strict) ok (fun _ _ _ => True) (flowPrepare expiry q) A held :=
  guar_clock fun _ => guar_onFlow fun _ _ _ _ _ h => prepare_change h

theorem flowValidate_guar :
    Guar (rules expiry strict) ok (fun _ _ _ => True) (flowValidate expiry op) A held :=
  guar_clock fun _ => guar_ask rfl fun _ => guar_onFlow fun _ _ _ _ _ h => validate_change h

theorem flowReconcile_guar {action : Action} {allowed : Row → Except String Unit} :
    Guar (rules expiry strict) ok (fun _ _ _ => True) (flowReconcile expiry op action allowed) A held :=
  guar_clock fun _ => guar_ask rfl fun _ => guar_onFlow fun _ _ _ _ _ h => reconcile_change h

theorem flowVerify_guar :
    Guar (rules expiry strict) ok (fun _ _ _ => True) (flowVerify op) A held :=
  guar_clock fun _ => guar_ask rfl fun _ => guar_onFlow fun _ _ _ _ _ h => verify_change h

theorem flowCancel_guar : Guar (rules expiry strict) ok (fun _ _ _ => True) (flowCancel op) A held :=
  guar_clock fun _ => guar_onFlow fun _ _ _ _ _ h => cancel_change h

theorem flowRelease_guar {resultHash : String} :
    Guar (rules expiry strict) ok (fun _ _ _ => True) (flowRelease op resultHash) A held :=
  guar_clock fun _ => guar_onFlow fun _ _ _ _ _ h => release_change h

end

end

end

end SmartHome.ComponentRepair
