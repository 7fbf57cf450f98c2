/-
  The texts of checkpoints: what a valid checkpoint writes, the store reads back, and the text of
  a window is bounded.
-/
import SmartHome.Mqtt.Consumer.Checkpoint
import SmartHome.Mqtt.Consumer.Codec

namespace SmartHome.Mqtt.Consumer

open Verif

/-! ## Reading what was written -/

theorem violationTable_json {f : Violation → ℕ} (h : ∀ v, f v < 2 ^ 128) :
    (collect fun v : Violation => uint 128 (((violationJson f).get? v.name).getD .null)) = some f := by
  have hm : ∀ v : Violation, ((violationJson f).get? v.name).getD .null = num (f v) := by
    intro v; cases v <;> rfl
  simp only [collect_eq_some, hm]
  exact fun v => uint_num (by norm_num) (h v)

theorem named_phase (p : Phase) : named Phase.name phases (.str p.name) = some p := by cases p <;> rfl

theorem named_reason (r : Reason) : named Reason.name reasons (.str r.name) = some r := by cases r <;> rfl

theorem named_request (r : RequestState) :
    named RequestState.name [.waiting, .capacity, .started] (.str r.name) = some r := by cases r <;> rfl

/-- A value that is null or an object. -/
theorem onlyIf_elim {α : Type} {p : Prop} [Decidable p] {f : Json → Option α} {g : α → Json}
    {o : Option α} (hp : p ↔ o.elim .null g ≠ .null) (hg : ∀ a, g a ≠ .null)
    (h : ∀ a ∈ o, f (g a) = some a) :
    onlyIf p f (o.elim .null g) = some o := by
  refine onlyIf_of ?_ ?_ ?_
  · rw [hp]
    cases o with
    | none => simp
    | some a => simp [hg a]
  · intro a ha
    rw [Option.mem_def.1 ha]
    exact h a ha
  · intro hn
    rw [hn]; rfl

theorem Cut.read_json {c : Cut} (h : c.acceptedFrames < 2 ^ 128 ∧ c.sourceNs < 2 ^ 64) :
    Cut.read c.json = some c := by
  obtain ⟨frames, covered, ns⟩ := c
  cases covered with
  | false =>
    have hno : "covered_before_ns" ∉ (Json.obj [("accepted_frames", num frames),
        ("source_emitted_at_ns", num ns)]).keys.getD [] := by
      change "covered_before_ns" ∉ ["accepted_frames", "source_emitted_at_ns"]
      decide
    simp only [Cut.read, Cut.json, Bool.false_eq_true, if_false, hno, decide_false]
    rw [closed_obj (by simp only [List.map_cons, List.map_nil]; decide)]
    simp only [bind_some, Option.some.injEq, exists_eq_left', pure_some]
    exact ⟨_, uint_num (by norm_num) h.1, _, uint_num (by norm_num) h.2, rfl⟩
  | true =>
    have hyes : "covered_before_ns" ∈ (Json.obj [("accepted_frames", num frames),
        ("covered_before_ns", num ns)]).keys.getD [] := by
      change "covered_before_ns" ∈ ["accepted_frames", "covered_before_ns"]
      decide
    simp only [Cut.read, Cut.json, if_true, hyes, decide_true]
    rw [closed_obj (by simp only [List.map_cons, List.map_nil]; decide)]
    simp only [bind_some, Option.some.injEq, exists_eq_left', pure_some]
    exact ⟨_, uint_num (by norm_num) h.1, _, uint_num (by norm_num) h.2, rfl⟩

theorem Window.read_json {w : Window} (h : w.Valid) : Window.read w.json = some w := by
  have hkinds : kindTable timestamp (kindJson fun k => optNum (w.maxUpperNsByKind k)) =
      some w.maxUpperNsByKind := kindTable_json fun k => timestamp_json (h.maximum k)
  have hcut : onlyIf (w.cut.elim .null Cut.json ≠ .null) Cut.read (w.cut.elim .null Cut.json) =
      some w.cut := by
    refine onlyIf_elim Iff.rfl (fun c => ?_) fun c hc => ?_
    on_goal 2 => exact Cut.read_json ⟨(h.cut c hc).1, (h.cut c hc).2.1⟩
    cases hcovered : c.covered <;> simp [Cut.json, hcovered]
  rw [Window.read, Window.json, closed_obj (by simp only [List.map_cons, List.map_nil]; decide),
    ← Window.json]
  simp only [bind_some, Option.some.injEq, exists_eq_left']
  refine ⟨_, closed_obj (by simp only [List.map_cons, List.map_nil]; decide), _,
     closed_obj (by simp only [List.map_cons, List.map_nil]; decide), ?_⟩
  simp only [pure_some]
  exact ⟨_, hex?_str _, _, named_phase _, _, named_reason _, _, hex?_str _,
    _, uint_num (by norm_num) (h.times.1.trans_lt h.times.2), _, uint_num (by norm_num) h.times.2,
    _, uint_num (by norm_num) (h.receipts.1.trans_lt h.receipts.2), _, uint_num (by norm_num) h.receipts.2,
    _, counts_json h.baseline, _, counts_json h.acknowledged, _, hkinds, _, violationTable_json h.violations,
    _, uint_num (by norm_num) h.policy.1, _, uint_num (by norm_num) h.policy.2, _, hcut, rfl⟩


theorem Observation.read_json {o : Observation} (h : 0 < o.sourceEpoch ∧ o.sourceEpoch < 2 ^ 128 ∧
    o.acceptedFrames < 2 ^ 128 ∧ o.coveredBeforeNs ≤ o.observedBoottimeNs ∧
    o.observedBoottimeNs < 2 ^ 64) : Observation.read o.json = some o := by
  obtain ⟨-, hepoch, hframes, hcovered, hobserved⟩ := h
  have hexited : named (fun b => if b then "verified_exited" else "verified_live") [false, true]
      (.str (if o.sourceExited then "verified_exited" else "verified_live")) = some o.sourceExited := by
    cases o.sourceExited <;> rfl
  rw [Observation.read, Observation.json, closed_obj (by simp only [List.map_cons, List.map_nil]; decide),
    ← Observation.json]
  simp only [bind_some, Option.some.injEq, exists_eq_left', pure_some]
  exact ⟨_, hex?_str _, _, hex?_str _, _, hex?_str _, _, uint_num (by norm_num) hobserved,
    _, uint_num (by norm_num) hepoch, _, hex?_str _, _, hexited, _, rfl,
    _, uint_num (by norm_num) (hcovered.trans_lt hobserved), _, uint_num (by norm_num) hframes, rfl⟩

theorem WindowRequest.read_json (r : WindowRequest) : WindowRequest.read r.json = some r := by
  rw [WindowRequest.read, WindowRequest.json, closed_obj (by simp only [List.map_cons, List.map_nil]; decide)]
  simp only [bind_some, Option.some.injEq, exists_eq_left', pure_some]
  exact ⟨_, hex?_str _, _, named_request _, rfl⟩

theorem mapM_read_json {ws : List Window} (h : ∀ w ∈ ws, w.Valid) :
    (ws.map Window.json).mapM Window.read = some ws := by
  induction ws with
  | nil => rfl
  | cons w ws ih =>
    rw [List.map_cons, List.mapM_cons, Window.read_json (h w List.mem_cons_self),
      ih fun x hx => h x (List.mem_cons_of_mem _ hx)]
    rfl

/-- **What a checkpoint writes, the store reads.** -/
theorem Checkpoint.read_json {c : Checkpoint} (h : c.Valid) : Checkpoint.read c.json = some c := by
  obtain ⟨hversion, hobservation, hsequence, hreceipt, hprevious, hwindow, hlast, -, hhistory, -, -⟩ := h
  have hprevious : onlyIf (optHexJson c.previousSha256 ≠ .null) (hex? 64) (optHexJson c.previousSha256) =
      some c.previousSha256 := by
    have helim : optHexJson c.previousSha256 = c.previousSha256.elim .null hexJson := by
      cases c.previousSha256 <;> rfl
    rw [helim]
    exact onlyIf_elim Iff.rfl (fun x => by simp [hexJson]) fun x _ => hex?_str x
  obtain ⟨version, sequence, previous, proposal, receipt, acked, window, history, seen, request⟩ := c
  rcases hversion with ⟨hv, ho, hr⟩ | hv
  · simp only at hv ho hr
    subst hv ho hr
    have hschema : schemaOf ((Checkpoint.mk 1 sequence previous proposal receipt acked window history none
      none).json.get? "schema_version") = some 1 := rfl
    simp only [Checkpoint.read, hschema, bind_some, Option.some.injEq, exists_eq_left']
    simp only [Checkpoint.json, if_neg (show (1 : ℕ) ≠ 2 by decide), List.append_nil,
      List.cons_append, List.nil_append]
    rw [closed_obj (by simp only [List.map_cons, List.map_nil]; decide)]
    simp only [Option.some.injEq, exists_eq_left', pure_some]
    exact ⟨_, rfl, _, uint_num (by norm_num) hsequence.2, _, hprevious, _, hex?_str _,
      _, uint_num (by norm_num) hreceipt, _, hex?_str _, _, Window.read_json hwindow,
      _, mapM_read_json hhistory, _, onlyIf_neg (by simp), _, onlyIf_neg (by simp), rfl⟩
  · simp only at hv
    subst hv
    have hschema : schemaOf ((Checkpoint.mk 2 sequence previous proposal receipt acked window history seen
      request).json.get? "schema_version") = some 2 := rfl
    simp only [Checkpoint.read, hschema, bind_some, Option.some.injEq, exists_eq_left']
    simp only [Checkpoint.json, if_true, List.cons_append, List.nil_append]
    rw [closed_obj (by simp only [List.map_cons, List.map_nil]; decide)]
    simp only [Option.some.injEq, exists_eq_left', pure_some]
    exact ⟨_, rfl, _, uint_num (by norm_num) hsequence.2, _, hprevious, _, hex?_str _,
      _, uint_num (by norm_num) hreceipt, _, hex?_str _, _, Window.read_json hwindow,
      _, mapM_read_json hhistory,
      _, onlyIf_elim (and_iff_right trivial) (fun o => by simp [Observation.json])
        (fun o ho => Observation.read_json (hobservation o ho)),
      _, onlyIf_elim (and_iff_right trivial) (fun r => by simp [WindowRequest.json])
        (fun r _ => WindowRequest.read_json r), rfl⟩


/-! ## Length -/

/-- The text of a window. -/
theorem Window.length_json {w : Window} (h : w.Valid) : w.json.render.length ≤ 16000 := by
  have hacked := length_totals narrow_num h.acknowledged.1
  have hbase := length_totals narrow_num h.baseline.1
  have hcut : (w.cut.elim .null Cut.json).render.length ≤ 200 := by
    cases hc : w.cut with
    | none => simp [Json.render]
    | some c =>
      obtain ⟨hframes, hns, -⟩ := h.cut c hc
      have h1 := narrow_num _ hframes
      have h2 := narrow_num _ (hns.trans (by norm_num))
      simp only [Option.elim_some, Cut.json]
      split_ifs <;>
        · refine (Json.length_obj_le _).trans ?_
          simp [Json.memberLen, Json.quote, Json.escape]
          omega
  have hmax : (kindJson fun k => optNum (w.maxUpperNsByKind k)).render.length ≤ 583 :=
    (length_kinds fun k => length_opt narrow_num fun v hv =>
      (h.maximum k v hv).trans (by norm_num)).trans (by norm_num)
  have hviolations : (violationJson w.violations).render.length ≤ 583 := by
    refine (length_obj_bounded (w := 41) ?_ ?_).trans (by simp)
    · simp [Json.quote, Json.escape]
    · simp [fun v => narrow_num _ (h.violations v)]
  have hphase : (Json.str w.phase.name).render.length ≤ 40 := by cases w.phase <;> decide
  have hreason : (Json.str w.reason.name).render.length ≤ 40 := by cases w.reason <;> decide
  have hid := length_hex w.idSha256
  have hclock := length_hex w.clockDomainSha256
  have hnum : ∀ {n : ℕ}, n < 2 ^ 64 → (num n).render.length ≤ 41 :=
    fun hn => narrow_num _ (hn.trans (by norm_num))
  have h1 := hnum (h.times.1.trans_lt h.times.2)
  have h2 := hnum h.times.2
  have h3 := hnum (h.receipts.1.trans_lt h.receipts.2)
  have h4 := hnum h.receipts.2
  have hpolicy : (Json.obj [("event_latency_ms", num w.eventLatencyMs),
      ("window_duration_ns", num w.windowDurationNs)]).render.length ≤ 200 := by
    have h5 := hnum h.policy.1
    have h6 := hnum h.policy.2
    refine (Json.length_obj_le _).trans ?_
    simp [Json.memberLen, Json.quote, Json.escape]
    omega
  refine (Json.length_obj_le _).trans ?_
  simp only [List.map_cons, List.map_nil, List.sum_cons, List.sum_nil, Json.memberLen]
  simp [Json.quote, Json.escape]
  omega

/-- A checkpoint of the first generation without a history fits. -/
theorem Checkpoint.length_opening {c : Checkpoint} (hversion : c.schemaVersion = 1) (hhistory : c.history = [])
    (hsequence : c.sequence < 2 ^ 64) (hreceipt : c.receiptId < 2 ^ 64) (hwindow : c.window.Valid) :
    c.json.render.length ≤ 17000 := by
  have hw := Window.length_json hwindow
  have hcounts := length_hex c.acknowledgedCountsSha256
  have hproposal := length_hex c.proposalSha
  have hprevious : (optHexJson c.previousSha256).render.length ≤ 66 := length_optHex _
  have hreceipt := narrow_num _ (hreceipt.trans (by norm_num))
  have hsequence := narrow_num _ (hsequence.trans (by norm_num))
  have hone : (Json.int 1).render.length = 1 := by decide
  have hempty : (Json.arr []).render.length = 2 := rfl
  refine (Json.length_obj_le _).trans ?_
  simp [Json.memberLen, Json.quote, Json.escape, hversion, hhistory]
  omega

end SmartHome.Mqtt.Consumer
