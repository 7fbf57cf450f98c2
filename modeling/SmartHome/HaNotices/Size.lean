/-
  The size of a snapshot: the rows and the events without diagnostics leave room, and the
  diagnostics use no more than the room that is left.
-/
import SmartHome.HaNotices.Runs

namespace SmartHome.HaNotices

open Verif Mqtt

/-! ## Values -/

theorem bytes_hex (h : Hex 64) : (Json.str h.1).bytes = 66 := by
  have hchar : ∀ c ∈ h.1.toList, c.toNat < 128 := fun c hc => by
    have := (toNat_of_mem_hex h) c hc
    omega
  rw [Json.bytes_str_plain (plain_hex h) hchar, length_toList_hex]

theorem bytes_optStamp_le (o : Option Stamp) : (optStampJson o).bytes ≤ 29 := by
  cases o with
  | none => decide
  | some s => exact s.bytes_json_le

theorem bytes_counter_le {n : ℕ} (h : n ≤ unsafeInteger) : (Json.int n).bytes ≤ 16 :=
  Json.bytes_nat_le (by norm_num) (h.trans_lt (by norm_num [unsafeInteger]))

/-! ## Rows and events -/

theorem bytes_label_le (l : Label) : (Json.str l.category).bytes ≤ 27 ∧ (Json.str l.summary).bytes ≤ 53 := by
  cases l <;> decide

theorem bytes_basis_le (b : Basis) : (Json.str b.name).bytes ≤ 24 := by cases b <;> decide

def rowKeys : List String :=
  ["id", "source", "observed_at", "created_or_updated_at", "origin", "category", "summary", "category_basis",
    "content_withheld", "destination_delivery", "collection_error", "revision", "diagnostic_content_state"]

/-- A row before its diagnostics are added. -/
theorem bytes_bareRow_le (n : Notice) : n.bareRow.json.bytes ≤ 640 := by
  have hcontent : n.bareRow.content.member.1 = "diagnostic_content_state" ∧ n.bareRow.content.member.2.bytes ≤ 18 := by
    rw [Notice.bareRow]
    split_ifs
    · exact ⟨rfl, show (Json.str "budget_exhausted").bytes ≤ 18 by decide⟩
    · exact ⟨rfl, show (Json.str "not_yet_observed").bytes ≤ 18 by decide⟩
  have hkeys : (n.members ++ [n.bareRow.content.member]).map Prod.fst = rowKeys := by
    rw [List.map_append, List.map_singleton, hcontent.1]
    rfl
  have hbounds : List.Forall₂ (fun (v : Json) b => v.bytes ≤ b)
      ((n.members ++ [n.bareRow.content.member]).map Prod.snd)
      [66, 39, 29, 29, 20, 27, 53, 24, 4, 16, 4, 66, 18] := by
    refine .cons (bytes_hex n.id).le (.cons (by decide) (.cons n.observedAt.bytes_json_le
      (.cons (bytes_optStamp_le _) (.cons (by decide) (.cons (bytes_label_le n.label).1
      (.cons (bytes_label_le n.label).2 (.cons (bytes_basis_le n.basis) (.cons (by decide) (.cons (by decide)
      (.cons (by decide) (.cons (bytes_hex n.revision).le (.cons hcontent.2 .nil))))))))))))
  exact (Json.bytes_obj_le hkeys (by decide) hbounds).trans (by decide)

def timingKeys : List String :=
  ["schema_version", "frame_kind", "source_occurred_at", "collector_received_at", "collector_observed_at"]

def eventKeys : List String :=
  ["object_id", "revision", "phase", "id", "sequence", "observed_at", "source", "topic", "recovery_proven",
    "source_timing"]

theorem bytes_timing_le (t : Timing) : (Json.obj t.members).bytes ≤ 210 := by
  have hframe : (Json.str t.frame.name).bytes ≤ 9 := by cases t.frame <;> decide
  have hkeys : t.members.map Prod.fst = timingKeys := rfl
  have hbounds : List.Forall₂ (fun (v : Json) b => v.bytes ≤ b) (t.members.map Prod.snd) [1, 9, 29, 29, 29] :=
    .cons (by decide) (.cons hframe (.cons (bytes_optStamp_le _)
      (.cons t.collectorReceivedAt.bytes_json_le (.cons t.collectorObservedAt.bytes_json_le .nil))))
  exact (Json.bytes_obj_le hkeys (by decide) hbounds).trans (by decide)

theorem bytes_event_le {e : Event} (h : e.sequence ≤ unsafeInteger) : e.json.bytes ≤ 660 := by
  have hphase : (Json.str e.phase.name).bytes ≤ 9 := by cases e.phase <;> decide
  have hkeys : e.members.map Prod.fst = eventKeys := rfl
  have hbounds : List.Forall₂ (fun (v : Json) b => v.bytes ≤ b) (e.members.map Prod.snd)
      [66, 66, 9, 66, 16, 29, 28, 17, 5, 210] :=
    .cons (bytes_hex e.objectId).le (.cons (bytes_hex e.revision).le (.cons hphase (.cons (bytes_hex e.id).le
      (.cons (bytes_counter_le h) (.cons e.observedAt.bytes_json_le (.cons (by decide) (.cons (by decide)
      (.cons (by decide) (.cons (bytes_timing_le e.timing) .nil)))))))))
  exact (Json.bytes_obj_le hkeys (by decide) hbounds).trans (by decide)

/-! ## The other members -/

def retentionKeys : List String :=
  ["schema_version", "kind", "capacity", "evicted_records", "retained_records", "first_sequence",
    "last_sequence", "counter_semantics"]

def snapshotKeys : List String :=
  ["schema_version", "source_timing_schema_version", "source", "observed_at", "collection_error",
    "connection_state", "last_transport_confirmation_at", "last_source_event_received_at",
    "last_processing_latency_ms", "coverage", "notifications", "events", "sequence", "dropped",
    "event_retention", "diagnostic_content_enabled", "content_budget_omissions"]

/-- Snapshots with as many events and rows as the state may have, and counters that are numbers. -/
structure Snapshot.Small (o : Snapshot) : Prop where
  rows : o.rows.length ≤ maxNotices
  events : o.events.length ≤ maxEvents
  counted : ∀ e ∈ o.events, e.sequence ≤ unsafeInteger
  sequence : o.sequence ≤ unsafeInteger
  dropped : o.dropped ≤ unsafeInteger
  latency : ∀ ms ∈ o.latencyMs, 0 ≤ ms ∧ ms < 10 ^ 17

theorem bytes_retention_le {o : Snapshot} (h : o.Small) : (Json.obj o.retention).bytes ≤ 300 := by
  have hsequence : ∀ {e : Option Event}, (∀ e' ∈ e, e'.sequence ≤ unsafeInteger) → (optSequence e).bytes ≤ 16 := by
    intro e he
    cases e with
    | none => decide
    | some e => exact bytes_counter_le (he e rfl)
  have hfirst : (optSequence o.events.head?).bytes ≤ 16 :=
    hsequence fun e he => h.counted e (List.mem_of_mem_head? he)
  have hlast : (optSequence o.events.getLast?).bytes ≤ 16 :=
    hsequence fun e he => h.counted e (List.mem_of_mem_getLast? he)
  have hlength : (Json.int o.events.length).bytes ≤ 3 :=
    Json.bytes_nat_le (by norm_num) (h.events.trans_lt (by norm_num [maxEvents]))
  have hkeys : o.retention.map Prod.fst = retentionKeys := rfl
  have hbounds : List.Forall₂ (fun (v : Json) b => v.bytes ≤ b) (o.retention.map Prod.snd)
      [1, 22, 3, 16, 3, 16, 16, 45] :=
    .cons (by decide) (.cons (by decide) (.cons (by decide) (.cons (bytes_counter_le h.dropped) (.cons hlength
      (.cons hfirst (.cons hlast (.cons (by decide) .nil)))))))
  exact (Json.bytes_obj_le hkeys (by decide) hbounds).trans (by decide)

theorem bytes_rows_le {ns : List Notice} (h : ns.length ≤ maxNotices) :
    (Json.arr ((ns.map Notice.bareRow).map Row.json)).bytes ≤ 328194 := by
  refine (Json.bytes_arr_le (b := 640) fun x hx => ?_).trans ?_
  · obtain ⟨row, hrow, rfl⟩ := List.mem_map.1 hx
    obtain ⟨n, -, rfl⟩ := List.mem_map.1 hrow
    exact bytes_bareRow_le n
  · rw [List.length_map, List.length_map]
    have hlimit : maxNotices = 512 := rfl
    omega

/-- The largest snapshot without diagnostics leaves more than the reserve. -/
theorem bytes_bare_le {o : Snapshot} (h : o.Small) {ns : List Notice} (hrows : o.rows = ns.map Notice.bareRow)
    (homissions : o.omissions = 0) : o.json.bytes ≤ 505000 := by
  have herror : (o.collectionError.elim Json.null fun e => .str e.name).bytes ≤ 26 := by
    cases o.collectionError with
    | none => decide
    | some e => cases e <;> decide
  have hstate : (Json.str (if o.connected then "subscribed" else "unknown")).bytes ≤ 12 := by
    split_ifs <;> decide
  have hlatency : (o.latencyMs.elim Json.null .int).bytes ≤ 17 := by
    cases hms : o.latencyMs with
    | none => decide
    | some ms =>
      obtain ⟨hpos, hlt⟩ := h.latency ms hms
      obtain ⟨n, rfl⟩ := Int.eq_ofNat_of_zero_le hpos
      exact Json.bytes_nat_le (by norm_num) (by exact_mod_cast hlt)
  have hcoverage : (Json.arr (coverage.map .str)).bytes ≤ 320 :=
    Json.bytes_arr_le (b := 52) fun x hx => by
      obtain ⟨text, htext, rfl⟩ := List.mem_map.1 hx
      revert text
      decide
  have hnotices : (Json.arr (o.rows.map Row.json)).bytes ≤ 328194 := by
    have hlength := h.rows
    rw [hrows, List.length_map] at hlength
    rw [hrows]
    exact bytes_rows_le hlength
  have hevents : (Json.arr (o.events.map Event.json)).bytes ≤ 169218 := by
    refine (Json.bytes_arr_le (b := 660) fun x hx => ?_).trans ?_
    · obtain ⟨e, he, rfl⟩ := List.mem_map.1 hx
      exact bytes_event_le (h.counted e he)
    · have hlength := h.events
      have hlimit : maxEvents = 256 := rfl
      rw [List.length_map]
      omega
  have hkeys : (o.head ++ [("notifications", Json.arr (o.rows.map Row.json))] ++ o.tail ++
      [("content_budget_omissions", Json.int o.omissions)]).map Prod.fst = snapshotKeys := rfl
  have hbounds : List.Forall₂ (fun (v : Json) b => v.bytes ≤ b)
      ((o.head ++ [("notifications", Json.arr (o.rows.map Row.json))] ++ o.tail ++
        [("content_budget_omissions", Json.int o.omissions)]).map Prod.snd)
      [1, 1, 52, 29, 26, 12, 29, 29, 17, 320, 328194, 169218, 16, 16, 300, 4, 1] :=
    .cons (by decide) (.cons (by decide) (.cons (by decide) (.cons o.observedAt.bytes_json_le (.cons herror
      (.cons hstate (.cons (bytes_optStamp_le _) (.cons (bytes_optStamp_le _) (.cons hlatency (.cons hcoverage
      (.cons hnotices (.cons hevents (.cons (bytes_counter_le h.sequence) (.cons (bytes_counter_le h.dropped)
      (.cons (bytes_retention_le h) (.cons (by decide) (.cons (by rw [homissions]; decide) .nil))))))))))))))))
  exact (Json.bytes_obj_le hkeys (by decide) hbounds).trans (by decide)

/-! ## The budget -/

/-- The diagnostics that are shown fit the bytes that remain. -/
theorem sum_fill_le (remaining : ℤ) (ns : List Notice) :
    ((fill remaining ns).1.map fun row => (row.json.bytes : ℤ)).sum ≤
      (ns.map fun n => (n.bareRow.json.bytes : ℤ)).sum + max remaining 0 := by
  induction ns generalizing remaining with
  | nil => exact (zero_add (max remaining 0)).symm ▸ le_max_right remaining 0
  | cons n ns ih =>
    obtain ⟨row, rest, hfill, -, hbytes⟩ := fill_cons remaining n ns
    have hrest := ih rest
    rw [hfill, List.map_cons, List.map_cons, List.sum_cons, List.sum_cons]
    omega

/-- The omissions are the rows that say so. -/
theorem omissions_fill (remaining : ℤ) (ns : List Notice) :
    (fill remaining ns).2 = (fill remaining ns).1.countP fun row => row.content = .budgetExhausted := by
  induction ns generalizing remaining with
  | nil => rfl
  | cons n ns ih =>
    obtain ⟨row, rest, hfill, -, -⟩ := fill_cons remaining n ns
    rw [hfill, List.countP_cons, ih rest]
    simp only [decide_eq_true_eq]

/-- What other rows change in the size of a snapshot. -/
theorem bytes_with_rows (o : Snapshot) (rows : List Row) (omissions : ℕ) :
    ({ o with rows := rows, omissions := omissions } : Snapshot).json.bytes +
        ((Json.arr (o.rows.map Row.json)).bytes + (Json.int o.omissions).bytes) =
      o.json.bytes + ((Json.arr (rows.map Row.json)).bytes + (Json.int omissions).bytes) := by
  have hne : ∀ o : Snapshot, o.head ++ [("notifications", Json.arr (o.rows.map Row.json))] ++ o.tail ++
      [("content_budget_omissions", Json.int o.omissions)] ≠ [] := fun o h => by
    cases h
  have hhead : ({ o with rows := rows, omissions := omissions } : Snapshot).head = o.head := rfl
  have htail : ({ o with rows := rows, omissions := omissions } : Snapshot).tail = o.tail := rfl
  rw [Snapshot.json, Snapshot.json, Json.bytes_obj (hne _), Json.bytes_obj (hne _), hhead, htail]
  simp only [List.map_append, List.sum_append, List.map_cons, List.map_nil, List.sum_cons, List.sum_nil,
    Json.memberBytes]
  omega

theorem bytes_rows (rows : List Row) : ((Json.arr (rows.map Row.json)).bytes : ℤ) =
    (rows.map fun row => (row.json.bytes : ℤ)).sum + rows.length + if rows.length = 0 then 2 else 1 := by
  have hsum : ((((rows.map Row.json).map fun x => x.bytes + 1).sum : ℕ) : ℤ) =
      (rows.map fun row => (row.json.bytes : ℤ)).sum + rows.length := by
    induction rows with
    | nil => rfl
    | cons row rows ih =>
      simp only [List.map_cons, List.sum_cons, List.length_cons] at ih ⊢
      push_cast at ih ⊢
      omega
  rw [Json.bytes_arr, Nat.cast_add, hsum]
  cases rows with
  | nil => rfl
  | cons row rows => rfl

theorem small_snapshot [Sha256] {s : NotificationState} {h : History} (h' : Faithful s h) (now : Time) :
    (s.bareSnapshot now).Small where
  rows := by
    have hlength : (s.bareSnapshot now).rows.length = s.current.length := by
      rw [NotificationState.bareSnapshot, List.length_map, NotificationState.sorted, List.length_mergeSort]
    exact hlength.trans_le h'.bound
  events := by
    have hevents : (s.bareSnapshot now).events = s.events := rfl
    rw [hevents, h'.events, List.length_drop]
    omega
  counted e he := by
    have hevents : (s.bareSnapshot now).events = s.events := rfl
    have hlog : e ∈ h.log := by
      rw [hevents, h'.events] at he
      exact List.mem_of_mem_drop he
    obtain ⟨i, hi⟩ := List.mem_iff_getElem?.1 hlog
    rw [h'.numbers i e hi]
    exact Nat.min_le_right _ _
  sequence := h'.sequence.trans_le (Nat.min_le_right _ _)
  dropped := h'.dropped.trans_le (Nat.min_le_right _ _)
  latency ms hms := by
    obtain ⟨hpos, hle⟩ := h'.latency ms hms
    exact ⟨hpos, by omega⟩

theorem length_fill (remaining : ℤ) (ns : List Notice) : (fill remaining ns).1.length = ns.length := by
  rw [← List.length_map (f := Row.notice), notices_fill]

section
variable {s : NotificationState} {now : Time}

theorem length_rows_snapshot : (s.snapshot now).rows.length = (s.bareSnapshot now).rows.length := by
  have hbare : (s.bareSnapshot now).rows = s.sorted.map Notice.bareRow := rfl
  rw [hbare, List.length_map]
  exact length_fill _ _

theorem bytes_omissions_le (hsmall : (s.bareSnapshot now).Small) : (Json.int (s.snapshot now).omissions).bytes ≤ 3 := by
  refine Json.bytes_nat_le (by norm_num) ?_
  have hcount : (s.snapshot now).omissions ≤ (s.snapshot now).rows.length :=
    (omissions_fill _ _).trans_le List.countP_le_length
  have hrows : (s.bareSnapshot now).rows.length ≤ 512 := hsmall.rows
  rw [length_rows_snapshot] at hcount
  omega

/-- The diagnostics take no more than what remains. -/
theorem sum_rows_snapshot_le : ((s.snapshot now).rows.map fun row => (row.json.bytes : ℤ)).sum ≤
    ((s.bareSnapshot now).rows.map fun row => (row.json.bytes : ℤ)).sum +
      max (snapshotLimit - reserve - (s.bareSnapshot now).json.bytes : ℤ) 0 := by
  have hbare : ((s.bareSnapshot now).rows.map fun row => (row.json.bytes : ℤ)).sum =
      (s.sorted.map fun n => (n.bareRow.json.bytes : ℤ)).sum := by
    rw [NotificationState.bareSnapshot, List.map_map]
    rfl
  rw [hbare]
  exact sum_fill_le _ _

theorem size_snapshot_le (hsmall : (s.bareSnapshot now).Small) : (s.snapshot now).size ≤ snapshotLimit := by
  have hbare : (s.bareSnapshot now).json.bytes ≤ 505000 := bytes_bare_le hsmall rfl rfl
  have hwith : (s.snapshot now).json.bytes +
        ((Json.arr ((s.bareSnapshot now).rows.map Row.json)).bytes + (Json.int 0).bytes) =
      (s.bareSnapshot now).json.bytes +
        ((Json.arr ((s.snapshot now).rows.map Row.json)).bytes + (Json.int (s.snapshot now).omissions).bytes) :=
    bytes_with_rows (s.bareSnapshot now) (s.snapshot now).rows (s.snapshot now).omissions
  have homissions := bytes_omissions_le hsmall
  have hfilled := @sum_rows_snapshot_le s now
  have hrows := bytes_rows (s.snapshot now).rows
  have hbareRows := bytes_rows (s.bareSnapshot now).rows
  have hlimit : snapshotLimit = 524288 := rfl
  have hreserve : (reserve : ℤ) = 4096 := rfl
  rw [length_rows_snapshot] at hrows
  rw [hlimit, hreserve] at hfilled
  rw [Snapshot.size, hlimit]
  push_cast at hfilled
  omega

end

end SmartHome.HaNotices
