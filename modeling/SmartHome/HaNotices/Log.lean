/-
  The events of the collector as a log of differences: what a frame changes is what its events say.
-/
import SmartHome.HaNotices.Snapshot
import SmartHome.Lib.Guard
import SmartHome.Lib.Machine
import Mathlib.Logic.Function.Iterate
import Mathlib.Logic.Function.Basic

namespace SmartHome.HaNotices

open Verif Mqtt

/-! ## Counters -/

theorem iterate_increment {n k : ℕ} (h : n ≤ unsafeInteger) :
    increment^[k] n = min (n + k) unsafeInteger := by
  induction k generalizing n with
  | zero => rw [Function.iterate_zero, id, Nat.add_zero, Nat.min_eq_left h]
  | succ k ih =>
    have hn : increment n = min (n + 1) unsafeInteger := by
      unfold increment
      split_ifs <;> omega
    rw [Function.iterate_succ_apply, hn, ih (Nat.min_le_right _ _)]
    omega

/-! ## Replay -/

/-- What an event says of the revisions. -/
def replay (m : Hex 64 → Option (Hex 64)) (c : Change) : Hex 64 → Option (Hex 64) :=
  Function.update m c.objectId (if c.phase = .removed then none else some c.revision)

theorem foldl_replay_of_not_mem {cs : List Change} {m : Hex 64 → Option (Hex 64)} {id : Hex 64}
    (h : id ∉ cs.map Change.objectId) : cs.foldl replay m id = m id := by
  induction cs generalizing m with
  | nil => rfl
  | cons c cs ih =>
    rw [List.map_cons, List.mem_cons, not_or] at h
    rw [List.foldl_cons, ih h.2, replay, Function.update_of_ne h.1]

theorem foldl_replay_of_mem {cs : List Change} {m : Hex 64 → Option (Hex 64)} {c : Change}
    (hn : (cs.map Change.objectId).Nodup) (hc : c ∈ cs) :
    cs.foldl replay m c.objectId = if c.phase = .removed then none else some c.revision := by
  induction cs generalizing m with
  | nil => cases hc
  | cons x cs ih =>
    rw [List.map_cons, List.nodup_cons] at hn
    rw [List.foldl_cons]
    rcases List.mem_cons.1 hc with rfl | hc
    · rw [foldl_replay_of_not_mem hn.1, replay, Function.update_self]
    · exact ih hn.2 hc

/-- A change between two revisions of its id, of which none is no notice. -/
def Change.Between [Sha256] (c : Change) (before after : Option (Hex 64)) : Prop :=
  match c.phase with
  | .added => before = none ∧ after = some c.revision
  | .updated => (∃ old, before = some old ∧ old ≠ c.revision) ∧ after = some c.revision
  | .removed => (∃ old, before = some old ∧ c.revision = digest (.arr [.str old.1, .str "removed"])) ∧ after = none

section
variable [Sha256] {c : Change} {before after : Option (Hex 64)}

theorem Change.Between.ne (h : c.Between before after) : before ≠ after := by
  rintro rfl
  unfold Between at h
  cases hphase : c.phase <;> rw [hphase] at h
  · rw [h.1] at h
    cases h.2
  · obtain ⟨⟨old, hold, hne⟩, hsome⟩ := h
    exact hne (Option.some.inj (hold.symm.trans hsome))
  · obtain ⟨⟨old, hold, -⟩, hnone⟩ := h
    rw [hold] at hnone
    cases hnone

theorem Change.Between.replayed (h : c.Between before after) :
    after = if c.phase = .removed then none else some c.revision := by
  unfold Between at h
  cases hphase : c.phase <;> rw [hphase] at h <;> exact h.2

end

namespace NotificationState
variable {s : NotificationState} {next : List Notice}

/-- The revisions that notices have. -/
def revisionsOf (notices : List Notice) (id : Hex 64) : Option (Hex 64) :=
  (lookup (fun n : Notice => n.id) id notices).map Notice.revision

section
variable [Sha256]

/-! ## The changes of a frame -/

/-- The change of a notice that is there after the frame. -/
def changed (s : NotificationState) (n : Notice) : Option Change :=
  match s.notice n.id with
  | none => some ⟨n.id, n.revision, .added⟩
  | some old => if old.revision ≠ n.revision then some ⟨n.id, n.revision, .updated⟩ else none

/-- The change of a notice that was there before it. -/
def gone (next : List Notice) (n : Notice) : Option Change :=
  if lookup (fun n : Notice => n.id) n.id next = none then
    some ⟨n.id, digest (.arr [.str n.revision.1, .str "removed"]), .removed⟩
  else none

theorem changes_eq (h : s.initialized = true) :
    s.changes next = next.filterMap s.changed ++ s.current.filterMap (gone next) := by
  rw [changes, if_pos h]
  rfl

theorem changed_eq_some {n : Notice} {c : Change} (h : s.changed n = some c) :
    c.objectId = n.id ∧ c.Between (s.revisions n.id) (some n.revision) := by
  unfold changed at h
  cases hold : s.notice n.id with
  | none =>
    rw [hold] at h
    obtain rfl := Option.some.inj h
    exact ⟨rfl, by rw [revisions, hold]; rfl, rfl⟩
  | some old =>
    rw [hold] at h
    simp only at h
    split_ifs at h with hne
    obtain rfl := Option.some.inj h
    exact ⟨rfl, ⟨old.revision, by rw [revisions, hold]; rfl, hne⟩, rfl⟩

omit [Sha256] in
theorem changed_eq_none {n : Notice} (h : s.changed n = none) : s.revisions n.id = some n.revision := by
  unfold changed at h
  cases hold : s.notice n.id with
  | none =>
    rw [hold] at h
    cases h
  | some old =>
    rw [hold] at h
    simp only at h
    split_ifs at h with hne
    simpa [revisions, hold] using not_not.1 hne

theorem gone_eq_some {n : Notice} {c : Change} (h : gone next n = some c) :
    c.objectId = n.id ∧ c.Between (some n.revision) none ∧ lookup (fun n : Notice => n.id) n.id next = none := by
  unfold gone at h
  split_ifs at h with hnone
  obtain rfl := Option.some.inj h
  exact ⟨rfl, ⟨⟨n.revision, rfl, rfl⟩, rfl⟩, hnone⟩

/-- **The changes of a frame are the ids whose revision it changes, once each.** -/
theorem nodup_changes (hs : (s.current.map fun n => n.id).Nodup) (hn : (next.map fun n => n.id).Nodup) :
    ((s.changes next).map Change.objectId).Nodup := by
  cases hinit : s.initialized with
  | false =>
    rw [changes, hinit]
    exact List.nodup_nil
  | true =>
    rw [changes_eq hinit, List.map_append, List.nodup_append]
    have hfirst : ((next.filterMap s.changed).map Change.objectId).Sublist (next.map fun n => n.id) :=
      sublist_filterMap_keys fun n _ c hc => (changed_eq_some hc).1
    have hlast : ((s.current.filterMap (gone next)).map Change.objectId).Sublist (s.current.map fun n => n.id) :=
      sublist_filterMap_keys fun n _ c hc => (gone_eq_some hc).1
    refine ⟨hn.sublist hfirst, hs.sublist hlast, ?_⟩
    rintro a ha b hb rfl
    -- a notice that is there is not gone
    obtain ⟨n, hnmem, hna⟩ := List.mem_map.1 (hfirst.subset ha)
    obtain ⟨c, hc, rfl⟩ := List.mem_map.1 hb
    obtain ⟨old, -, hold⟩ := List.mem_filterMap.1 hc
    obtain ⟨hid, -, hnone⟩ := gone_eq_some hold
    exact lookup_eq_none.1 hnone n hnmem (hna.trans hid)

theorem mem_changes (hinit : s.initialized = true)
    (hn : (next.map fun n => n.id).Nodup) (id : Hex 64) :
    (id ∉ (s.changes next).map Change.objectId ∧ s.revisions id = revisionsOf next id) ∨
    ∃ c ∈ s.changes next, c.objectId = id ∧ c.Between (s.revisions id) (revisionsOf next id) := by
  have hmem : ∀ {c}, c ∈ s.changes next ↔
      (∃ n ∈ next, s.changed n = some c) ∨ ∃ n ∈ s.current, gone next n = some c := by
    intro c
    rw [changes_eq hinit, List.mem_append, List.mem_filterMap, List.mem_filterMap]
  cases hlookup : lookup (fun n : Notice => n.id) id next with
  | some n =>
    obtain ⟨hnmem, hid⟩ := lookup_eq_some hlookup
    have hrev : revisionsOf next id = some n.revision := by rw [revisionsOf, hlookup, Option.map_some]
    cases hc : s.changed n with
    | none =>
      left
      refine ⟨fun hin => ?_, by rw [hrev, ← hid]; exact changed_eq_none hc⟩
      obtain ⟨c, hcmem, hcid⟩ := List.mem_map.1 hin
      rcases hmem.1 hcmem with ⟨n', hn', hc'⟩ | ⟨old, -, hc'⟩
      · have hsame : n' = n := eq_of_key_eq hn hn' hnmem (((changed_eq_some hc').1.symm.trans hcid).trans hid.symm)
        rw [hsame, hc] at hc'
        cases hc'
      · obtain ⟨hold, -, hnone⟩ := gone_eq_some hc'
        exact lookup_eq_none.1 hnone n hnmem (hid.trans (hcid.symm.trans hold))
    | some c =>
      right
      obtain ⟨hcid, hbetween⟩ := changed_eq_some hc
      refine ⟨c, hmem.2 (Or.inl ⟨n, hnmem, hc⟩), hcid.trans hid, ?_⟩
      rw [hrev, ← hid]
      exact hbetween
  | none =>
    have hrev : revisionsOf next id = none := by rw [revisionsOf, hlookup, Option.map_none]
    cases hold : s.notice id with
    | none =>
      left
      refine ⟨fun hin => ?_, by rw [hrev, revisions, hold, Option.map_none]⟩
      obtain ⟨c, hcmem, hcid⟩ := List.mem_map.1 hin
      rcases hmem.1 hcmem with ⟨n', hn', hc'⟩ | ⟨old, hold', hc'⟩
      · exact lookup_eq_none.1 hlookup n' hn' ((changed_eq_some hc').1.symm.trans hcid)
      · exact lookup_eq_none.1 hold old hold' ((gone_eq_some hc').1.symm.trans hcid)
    | some old =>
      right
      obtain ⟨holdmem, hid⟩ := lookup_eq_some hold
      have hgone : gone next old = some ⟨old.id, digest (.arr [.str old.revision.1, .str "removed"]), .removed⟩ := by
        rw [gone, if_pos (hid.symm ▸ hlookup)]
      refine ⟨_, hmem.2 (Or.inr ⟨old, holdmem, hgone⟩), hid, ?_⟩
      rw [hrev, revisions, hold, Option.map_some]
      exact (gone_eq_some hgone).2.1

/-- **Replaying the changes of a frame gives the revisions after it.** -/
theorem replay_changes (hinit : s.initialized = true) (hs : (s.current.map fun n => n.id).Nodup)
    (hn : (next.map fun n => n.id).Nodup) : (s.changes next).foldl replay s.revisions = revisionsOf next := by
  funext id
  rcases mem_changes hinit hn id with ⟨hnot, hsame⟩ | ⟨c, hc, rfl, hbetween⟩
  · rw [foldl_replay_of_not_mem hnot, hsame]
  · rw [foldl_replay_of_mem (nodup_changes hs hn) hc, hbetween.replayed]

/-! ## The events of a frame -/

variable {frame : Frame} {now receivedAt : Time}

theorem toChange_numbered {sequence : ℕ} {cs : List Change} :
    (numbered frame next now receivedAt sequence cs).map Event.toChange = cs := by
  induction cs generalizing sequence with
  | nil => rfl
  | cons c cs ih =>
    rw [numbered, List.map_cons, ih]
    rfl

theorem length_newEvents : (s.newEvents frame next now receivedAt).length = (s.changes next).length := by
  rw [newEvents, ← List.length_map (f := Event.toChange), toChange_numbered]

theorem getElem?_numbered {sequence : ℕ} {cs : List Change} {i : ℕ} {e : Event} (h : sequence ≤ unsafeInteger)
    (he : (numbered frame next now receivedAt sequence cs)[i]? = some e) :
    e.sequence = min (sequence + (i + 1)) unsafeInteger := by
  induction cs generalizing sequence i with
  | nil => cases he
  | cons c cs ih =>
    have hn : increment sequence = min (sequence + 1) unsafeInteger := by
      unfold increment
      split_ifs <;> omega
    rw [numbered] at he
    cases i with
    | zero =>
      obtain rfl := Option.some.inj he
      exact hn
    | succ i =>
      rw [ih (hn ▸ Nat.min_le_right _ _) he, hn]
      omega

end

/-! ## Frames that are accepted -/

variable [Sha256] {r : Runtime} {event : Json} {now receivedAt : Time}

/-- The events that a frame adds to the log. -/
def emits (s : NotificationState) (r : Runtime) (event : Json) (now receivedAt : Time) : List Event :=
  match frameOf event now receivedAt with
  | .error _ => []
  | .ok (frame, entries) =>
    match s.candidate r frame entries now with
    | .error _ => []
    | .ok next => s.newEvents frame next now receivedAt

/-- **A frame is refused and changes nothing, or it is accepted.** -/
theorem apply_cases : (∃ e, s.apply r event now receivedAt = (.error e, s) ∧ s.emits r event now receivedAt = []) ∨
    ∃ frame entries next, s.candidate r frame entries now = .ok next ∧
      s.apply r event now receivedAt = (.ok (s.changes next).length, s.accept frame next now receivedAt) ∧
      s.emits r event now receivedAt = s.newEvents frame next now receivedAt ∧ receivedAt.ms ≤ now.ms := by
  unfold apply emits
  cases hframe : frameOf event now receivedAt with
  | error e => exact Or.inl ⟨e, rfl, rfl⟩
  | ok x =>
    obtain ⟨frame, entries⟩ := x
    have hle : receivedAt.ms ≤ now.ms := by
      unfold frameOf at hframe
      split at hframe
      · split_ifs at hframe with h
        exact h.1
      · cases hframe
    simp only
    cases hnext : s.candidate r frame entries now with
    | error e => exact Or.inl ⟨e, rfl, rfl⟩
    | ok next => exact Or.inr ⟨frame, entries, next, hnext, rfl, rfl, hle⟩

/-- Notices with ids of their own and the revisions that belong to them. -/
structure Kept (notices : List Notice) : Prop where
  distinct : (notices.map fun n => n.id).Nodup
  revised : ∀ n ∈ notices, n.revision = n.revisionOf

theorem Kept.merge {notices : List Notice} {frame : Frame} {observedAt : Stamp} {entry : String × Json}
    {notices' : List Notice} (h : Kept notices)
    (hmerge : NotificationState.merge r frame observedAt notices entry = .ok notices') : Kept notices' := by
  unfold NotificationState.merge at hmerge
  by_cases hid : item entry.2 "notification_id" ≠ .str entry.1
  · rw [if_pos hid] at hmerge
    cases hmerge
  rw [if_neg hid] at hmerge
  cases hclean : r.sanitize entry.2 observedAt with
  | none =>
    rw [hclean] at hmerge
    cases hmerge
  | some clean =>
    rw [hclean] at hmerge
    simp only at hmerge
    split_ifs at hmerge
    · obtain rfl := Except.ok.inj hmerge
      exact ⟨h.distinct.sublist (List.filter_sublist.map _), fun n hn => h.revised n (List.mem_of_mem_filter hn)⟩
    · obtain rfl := Except.ok.inj hmerge
      refine ⟨nodup_keys_upsert h.distinct, fun n hn => ?_⟩
      rcases mem_upsert.1 hn with ⟨hn, -⟩ | rfl
      · exact h.revised n hn
      · rfl

theorem kept_candidate {frame : Frame} {entries : List (String × Json)} {next : List Notice} (h : Kept s.current)
    (hnext : s.candidate r frame entries now = .ok next) : Kept next ∧ next.length ≤ maxNotices := by
  unfold candidate at hnext
  obtain ⟨final, hfold, hlimit⟩ := bind_ok.1 hnext
  split_ifs at hlimit with hlength
  obtain rfl := Except.ok.inj hlimit
  refine ⟨?_, not_lt.1 hlength⟩
  have hstart : Kept (if frame = .current then [] else s.current) := by
    split_ifs
    · exact ⟨List.nodup_nil, fun n hn => (List.not_mem_nil hn).elim⟩
    · exact h
  clear hnext hlength
  generalize (if frame = .current then [] else s.current) = notices at hfold hstart
  induction entries generalizing notices with
  | nil =>
    rw [List.foldlM_nil] at hfold
    exact Except.ok.inj hfold ▸ hstart
  | cons entry entries ih =>
    rw [List.foldlM_cons] at hfold
    obtain ⟨middle, hmerge, hfold⟩ := bind_ok.1 hfold
    exact ih middle hfold (hstart.merge hmerge)

end NotificationState
end SmartHome.HaNotices
