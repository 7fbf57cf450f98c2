/-
  A value that is read as a checkpoint is, up to the order of members, what the checkpoint writes.
-/
import SmartHome.Lib.JsonSort
import SmartHome.Mqtt.Consumer.CheckpointText

namespace SmartHome.Mqtt.Consumer

open Verif

/-! ## Numbers -/

theorem ofDigitChars_pos {c : Char} (hc : c.isDigit = true) (h0 : c ≠ '0') (ds : List Char) :
    0 < Nat.ofDigitChars 10 (c :: ds) 0 := by
  have hlow := isDigit_toNat hc
  have hne : c.toNat ≠ 48 := fun h => h0 (Char.toNat_inj.1 h)
  rw [Nat.ofDigitChars_cons, Nat.ofDigitChars_eq_ofDigitChars_zero]
  have hpos : 0 < 10 ^ ds.length * (10 * 0 + (c.toNat - '0'.toNat)) := by
    refine Nat.mul_pos (by positivity) ?_
    show 0 < 10 * 0 + (c.toNat - 48)
    omega
  omega

theorem digitChar_toNat {c : Char} (hc : c.isDigit = true) : Nat.digitChar (c.toNat - 48) = c := by
  have hlow := isDigit_toNat hc
  rw [← Char.toNat_inj, Nat.toNat_digitChar_of_lt_ten (by omega)]
  omega

/-- Digits without a leading zero are the text of their number. -/
theorem decimal_ofDigitChars {c : Char} {ds : List Char} (hds : ∀ d ∈ c :: ds, d.isDigit = true)
    (h0 : ds = [] ∨ c ≠ '0') : Json.decimal (Nat.ofDigitChars 10 (c :: ds) 0) = c :: ds := by
  induction ds using List.reverseRecOn with
  | nil =>
    have hc := hds c List.mem_cons_self
    have hlow := isDigit_toNat hc
    have hval : Nat.ofDigitChars 10 [c] 0 = c.toNat - 48 := by simp [Nat.ofDigitChars_cons]
    rw [hval, Json.decimal, Nat.toDigits_of_lt_base (by omega), digitChar_toNat hc]
  | append_singleton ds d ih =>
    have hc : c ≠ '0' := h0.resolve_left (by simp)
    have hd := hds d (by simp)
    have hlow := isDigit_toNat hd
    have hpos := ofDigitChars_pos (hds c List.mem_cons_self) hc ds
    have hrec := ih (fun e he => hds e (by simp at he ⊢; tauto)) (Or.inr hc)
    have hval : Nat.ofDigitChars 10 (c :: (ds ++ [d])) 0 = 10 * Nat.ofDigitChars 10 (c :: ds) 0 + (d.toNat - 48) := by
      rw [← List.cons_append, Nat.ofDigitChars_append, Nat.ofDigitChars_cons, Nat.ofDigitChars_nil]
      rfl
    have hdiv : (10 * Nat.ofDigitChars 10 (c :: ds) 0 + (d.toNat - 48)) / 10 = Nat.ofDigitChars 10 (c :: ds) 0 := by
      omega
    have hmod : (10 * Nat.ofDigitChars 10 (c :: ds) 0 + (d.toNat - 48)) % 10 = d.toNat - 48 := by omega
    rw [hval, Json.decimal, Nat.toDigits_of_base_le (by omega) (by omega), ← Json.decimal, hdiv, hmod,
      digitChar_toNat hd, hrec]
    rfl

theorem decimal?_eq_some {m n : ℕ} {s : String} (h : decimal? m s = some n) : s = String.ofList (Json.decimal n) := by
  rw [← String.toList_inj, String.toList_ofList]
  unfold decimal? at h
  split at h
  · cases h
  · cases h
  · rename_i hnil hzero
    split_ifs at h with hdigits
    obtain rfl := Option.some.inj h
    simp only [Bool.and_eq_true, List.all_eq_true] at hdigits
    cases hs : s.toList with
    | nil => exact absurd hs hnil
    | cons c ds =>
      rw [hs] at hdigits
      refine (decimal_ofDigitChars hdigits.1 ?_).symm
      by_contra hno
      obtain ⟨hds, rfl⟩ := not_or.1 hno |>.imp_right not_not.1
      obtain ⟨e, es, rfl⟩ := List.exists_cons_of_ne_nil hds
      exact hzero e es hs

/-! ## Readers -/

section
variable {α β : Type} {f : Json → Option α} {g : α → Json}

/-- Every value that is read, sorted, is what its reading writes. -/
def Reads (f : Json → Option α) (g : α → Json) : Prop := ∀ j a, f j = some a → j.sort = g a

theorem reads_uint (bits : ℕ) : Reads (uint bits) num := by
  intro j n h
  cases j with
  | str s =>
    obtain ⟨hn, -⟩ := Option.filter_eq_some_iff.1 h
    rw [Json.sort_str, num, ← decimal?_eq_some hn]
  | _ => cases h

theorem reads_hex (n : ℕ) : Reads (hex? n) hexJson := by
  intro j a h
  rw [hex?_eq_some.1 h, Json.sort_str, hexJson]

theorem reads_boolean : Reads boolean .bool := by
  intro j b h
  cases j with
  | bool c =>
    obtain rfl := Option.some.inj h
    exact Json.sort_bool c
  | _ => cases h

theorem reads_named {name : α → String} {xs : List α} : Reads (named name xs) fun a => .str (name a) := by
  intro j a h
  cases j with
  | str s =>
    have hname := List.find?_some h
    rw [decide_eq_true_eq] at hname
    show (Json.str s).sort = .str (name a)
    rw [Json.sort_str, hname]
  | _ => cases h

/-- A value that is null or is read. -/
theorem reads_onlyIf {p : Prop} [Decidable p] {j : Json} {o : Option α} (hf : Reads f g) (h : onlyIf p f j = some o) :
    j.sort = o.elim .null g := by
  unfold onlyIf at h
  split_ifs at h with hp hnull
  · obtain ⟨a, ha, rfl⟩ := Option.map_eq_some_iff.1 h
    exact hf j a ha
  · obtain rfl := Option.some.inj h
    rw [hnull, Json.sort_null]
    rfl

theorem closed_get {keys : List String} {j : Json} {m : String → Json} (h : closed keys j = some m) (k : String) :
    m k = (j.get? k).getD .null := by
  unfold closed at h
  split_ifs at h
  obtain rfl := Option.some.inj h
  rfl

/-- The members of an object with the given keys. -/
theorem closed_sort {keys : List String} {j : Json} {m : String → Json} (ks : List String) (h : closed keys j = some m)
    (hks : ks.Pairwise (· < ·)) (hperm : keys.Perm ks) : j.sort = .obj (ks.map fun k => (k, (m k).sort)) := by
  unfold closed at h
  split_ifs at h with hkeys
  obtain ⟨ks', hks', hsame⟩ := hkeys
  obtain rfl := Option.some.inj h
  cases j with
  | obj kvs =>
    obtain rfl := Option.some.inj hks'
    exact Json.sort_obj hks (hsame.trans hperm)
  | _ => cases hks'

theorem reads_kinds (hf : Reads f g) : Reads (kindTable f) fun h => kindJson fun k => g (h k) := by
  intro j h hread
  obtain ⟨m, hm, hread⟩ := bind_some.1 hread
  rw [collect_eq_some] at hread
  have hsort := fun k => hf _ _ (hread k)
  rw [closed_sort ["client_offline", "connect", "disconnect", "publish_in", "publish_out", "subscribe", "unsubscribe"]
    hm (by decide) (by decide)]
  simp only [List.map_cons, List.map_nil, kindJson, ← hsort, Kind.name]

end

/-! ## Tables -/

theorem reads_columns : Reads columnTable (columnJson num) := by
  intro j t h
  obtain ⟨m, hm, h⟩ := bind_some.1 h
  rw [collect_eq_some] at h
  have hsort := fun c => reads_uint 128 _ _ (h c)
  rw [closed_sort ["expected", "missing", "observed", "source_dropped", "timed", "timing_unknown", "transport_missing"]
    hm (by decide) (by decide)]
  simp only [List.map_cons, List.map_nil, columnJson, ← hsort, Column.name]

theorem reads_faults : Reads faultTable (faultJson num) := by
  intro j t h
  obtain ⟨m, hm, h⟩ := bind_some.1 h
  rw [collect_eq_some] at h
  have hsort := fun f => reads_uint 128 _ _ (h f)
  rw [closed_sort ["clock_domain_changed", "reader_restart", "source_binding_unverified", "source_frame_rejected",
    "source_identity_lost", "transport_ancillary_invalid", "transport_truncated"] hm (by decide) (by decide)]
  simp only [List.map_cons, List.map_nil, faultJson, ← hsort, Fault.name]

theorem reads_counts : Reads counts fun t => t.json num := by
  intro j t h
  simp only [counts, bind_some, guard_some, exists_unit, pure_some, collect_eq_some] at h
  obtain ⟨m, hm, header, hheader, fault, hfault, stat, hstat, -, rfl⟩ := h
  have hsort := fun x => reads_uint 128 _ _ (hheader x)
  have hfaults : (m "faults").sort = faultJson num fault := reads_faults _ _ hfault
  have hstats : (m "stats").sort = kindJson fun k => columnJson num (stat k) := reads_kinds reads_columns _ _ hstat
  rw [closed_sort ["ack_clock_conflicts", "ack_rejections", "duplicates", "faults", "frames", "report_gaps", "sessions",
    "source_clock_faults", "source_epochs", "source_send_failures", "stats", "unknown_epoch_tails"]
    hm (by decide) (by decide)]
  simp only [List.map_cons, List.map_nil, Totals.json, totalsOf, hfaults, hstats, ← hsort, Header.name]

theorem reads_violations {m : String → Json} {f : Violation → ℕ} {j : Json}
    (hm : closed (violations.map Violation.name) j = some m)
    (h : (collect fun x : Violation => uint 128 (m x.name)) = some f) : j.sort = violationJson f := by
  rw [collect_eq_some] at h
  have hsort := fun v => reads_uint 128 _ _ (h v)
  rw [closed_sort ["clock_conflicts", "integrity_faults", "missing", "over_contract_receipts",
    "reader_unknown_observations", "receipt_gaps", "timing_unknown"] hm (by decide) (by decide)]
  simp only [List.map_cons, List.map_nil, violationJson, ← hsort, Violation.name]

/-! ## Checkpoints -/

theorem reads_cut : Reads Cut.read Cut.json := by
  intro j c h
  simp only [Cut.read, bind_some, pure_some] at h
  obtain ⟨m, hm, frames, hframes, ns, hns, rfl⟩ := h
  have hframes := reads_uint 128 _ _ hframes
  have hns := reads_uint 64 _ _ hns
  by_cases hcovered : "covered_before_ns" ∈ j.keys.getD []
  · simp only [if_pos hcovered] at hm hns
    rw [closed_sort ["accepted_frames", "covered_before_ns"] hm (by decide) (by decide)]
    simp only [List.map_cons, List.map_nil, Cut.json, hcovered, decide_true, if_true, hframes, hns]
  · simp only [if_neg hcovered] at hm hns
    rw [closed_sort ["accepted_frames", "source_emitted_at_ns"] hm (by decide) (by decide)]
    simp only [List.map_cons, List.map_nil, Cut.json, hcovered, decide_false, Bool.false_eq_true, if_false, hframes, hns]

theorem reads_window : Reads Window.read Window.json := by
  intro j w h
  simp only [Window.read, bind_some, pure_some] at h
  obtain ⟨m, hm, v, hv, p, hp, id, hid, phase, hphase, reason, hreason, clock, hclock, started, hstarted, observed,
    hobserved, first, hfirst, last, hlast, baseline, hbaseline, acked, hacked, maximum, hmaximum, counters, hcounters,
    latency, hlatency, duration, hduration, cut, hcut, rfl⟩ := h
  have hpolicy : (m "policy").sort = .obj [("event_latency_ms", num latency), ("window_duration_ns", num duration)] := by
    rw [closed_sort ["event_latency_ms", "window_duration_ns"] hp (by decide) (by decide)]
    simp only [List.map_cons, List.map_nil, reads_uint 64 _ _ hlatency, reads_uint 64 _ _ hduration]
  have hkinds : (m "max_upper_ns_by_kind").sort = kindJson fun k => optNum (maximum k) := by
    have htimes : Reads timestamp optNum := fun j o h => by
      rw [reads_onlyIf (reads_uint 64) h]
      cases o <;> rfl
    exact reads_kinds htimes _ _ hmaximum
  rw [closed_sort ["acknowledged_counts", "baseline_counts", "clock_domain_sha256", "cut", "first_receipt_id",
    "id_sha256", "last_receipt_id", "max_upper_ns_by_kind", "observed_at_ns", "phase", "policy", "reason",
    "started_at_ns", "violations"] hm (by decide) (by decide)]
  simp only [List.map_cons, List.map_nil, Window.json, hpolicy, hkinds, reads_counts _ _ hacked,
    reads_counts _ _ hbaseline, reads_hex 64 _ _ hclock, reads_onlyIf reads_cut hcut, reads_uint 64 _ _ hfirst,
    reads_hex 64 _ _ hid, reads_uint 64 _ _ hlast, reads_uint 64 _ _ hobserved, reads_named _ _ hphase,
    reads_named _ _ hreason, reads_uint 64 _ _ hstarted, reads_violations hv hcounters]

theorem reads_observation : Reads Observation.read Observation.json := by
  intro j o h
  simp only [Observation.read, bind_some, pure_some] at h
  obtain ⟨m, hm, consumer, hconsumer, reader, hreader, clock, hclock, observed, hobserved, epoch, hepoch, source,
    hsource, exited, hexited, shut, hshut, covered, hcovered, frames, hframes, rfl⟩ := h
  rw [closed_sort ["accepted_frames", "clock_domain_sha256", "consumer_instance_sha256", "covered_before_ns",
    "observed_boottime_ns", "reader_instance_sha256", "source_closed", "source_epoch", "source_identity_state",
    "source_instance_sha256"] hm (by decide) (by decide)]
  simp only [List.map_cons, List.map_nil, Observation.json, reads_uint 128 _ _ hframes, reads_hex 64 _ _ hclock,
    reads_hex 64 _ _ hconsumer, reads_uint 64 _ _ hcovered, reads_uint 64 _ _ hobserved, reads_hex 64 _ _ hreader,
    reads_boolean _ _ hshut, reads_uint 128 _ _ hepoch, reads_named _ _ hexited, reads_hex 64 _ _ hsource]

theorem reads_request : Reads WindowRequest.read WindowRequest.json := by
  intro j r h
  simp only [WindowRequest.read, bind_some, pure_some] at h
  obtain ⟨m, hm, id, hid, state, hstate, rfl⟩ := h
  rw [closed_sort ["id_sha256", "state"] hm (by decide) (by decide)]
  simp only [List.map_cons, List.map_nil, WindowRequest.json, reads_hex 64 _ _ hid, reads_named _ _ hstate]

theorem sortElems_windows {js : List Json} {ws : List Window} (h : js.mapM Window.read = some ws) :
    Json.sortElems js = ws.map Window.json := by
  induction js generalizing ws with
  | nil =>
    obtain rfl : [] = ws := Option.some.inj h
    rw [Json.sortElems, List.map_nil]
  | cons j js ih =>
    rw [List.mapM_cons] at h
    obtain ⟨w, hw, h⟩ := bind_some.1 h
    obtain ⟨ws', hws, h⟩ := bind_some.1 h
    obtain rfl := pure_some.1 h
    rw [Json.sortElems, reads_window _ _ hw, ih hws, List.map_cons]

/-- **A value that is read as a checkpoint is the checkpoint's own**, up to the order of members. -/
theorem reads_checkpoint : Reads Checkpoint.read Checkpoint.json := by
  intro j c h
  simp only [Checkpoint.read, bind_some, pure_some] at h
  obtain ⟨version, hversion, m, hm, history, helements, sequence, hsequence, previous, hprevious, proposal, hproposal,
    receipt, hreceipt, acked, hacked, window, hwindow, windows, hwindows, seen, hseen, request, hrequest, rfl⟩ := h
  have hhistory : (m "history").sort = .arr (windows.map Window.json) := by
    cases hj : m "history" with
    | arr xs =>
      rw [hj] at helements
      obtain rfl := Option.some.inj helements
      rw [Json.sort, sortElems_windows hwindows]
    | _ => rw [hj] at helements; cases helements
  have hprevious : (m "previous_sha256").sort = optHexJson previous := by
    rw [reads_onlyIf (reads_hex 64) hprevious]
    cases previous <;> rfl
  have hschema : (m "schema_version").sort = .int version := by
    rw [closed_get hm]
    unfold schemaOf at hversion
    split at hversion
    · rename_i hget
      obtain rfl := Option.some.inj hversion
      rw [hget]
      exact Json.sort_int 1
    · rename_i hget
      obtain rfl := Option.some.inj hversion
      rw [hget]
      exact Json.sort_int 2
    · cases hversion
  by_cases hsecond : version = 2
  · simp only [if_pos hsecond] at hm
    rw [closed_sort ["acknowledged_counts_sha256", "history", "previous_sha256", "proposal_sha", "reader_observation",
      "receipt_id", "schema_version", "sequence", "window", "window_request"] hm (by decide) (by decide)]
    simp only [List.map_cons, List.map_nil, Checkpoint.json, if_pos hsecond, List.cons_append, List.nil_append, hhistory,
      hprevious, hschema, reads_hex 64 _ _ hacked, reads_hex 64 _ _ hproposal, reads_onlyIf reads_observation hseen,
      reads_uint 64 _ _ hreceipt, reads_uint 64 _ _ hsequence, reads_window _ _ hwindow,
      reads_onlyIf reads_request hrequest]
  · simp only [if_neg hsecond, List.append_nil] at hm
    rw [closed_sort ["acknowledged_counts_sha256", "history", "previous_sha256", "proposal_sha", "receipt_id",
      "schema_version", "sequence", "window"] hm (by decide) (by decide)]
    simp only [List.map_cons, List.map_nil, Checkpoint.json, if_neg hsecond, List.append_nil, List.cons_append,
      List.nil_append, hhistory, hprevious, hschema, reads_hex 64 _ _ hacked, reads_hex 64 _ _ hproposal,
      reads_uint 64 _ _ hreceipt, reads_uint 64 _ _ hsequence, reads_window _ _ hwindow]

end SmartHome.Mqtt.Consumer
