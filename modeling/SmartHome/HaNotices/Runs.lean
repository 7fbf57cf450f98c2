/-
  Runs of the collector: frames, failures, pongs, publications and restarts.

  A restart goes on from the last snapshot that was published.  What was emitted since is gone
  with the process, so a run keeps the events of the state and those of the publication
  (`faithful_of_reachable`).
-/
import SmartHome.HaNotices.Log
import Mathlib.Data.List.TakeDrop

namespace SmartHome.HaNotices

open Verif Mqtt

/-- Revisions by id. -/
abbrev Revisions := Hex 64 → Option (Hex 64)

/-- The events since the state was first known, and the revisions at that moment. -/
structure History where
  base : Option Revisions
  log : List Event

/-- The collector and its file. -/
structure Collector where
  state : NotificationState
  history : History
  published : Option (Snapshot × History)

namespace Collector
variable [Sha256] (r : Runtime)

/-- The history after a frame.  The first one that is accepted emits nothing. -/
def History.after (h : History) (s : NotificationState) (event : Json) (now receivedAt : Time) : History where
  base := h.base.or (if (s.apply r event now receivedAt).2.initialized then
    some (s.apply r event now receivedAt).2.revisions else none)
  log := h.log ++ s.emits r event now receivedAt

inductive Step : Collector → Collector → Prop
  | apply {c : Collector} (event : Json) (now receivedAt : Time) : Step c
    { c with
      state := (c.state.apply r event now receivedAt).2
      history := History.after r c.history c.state event now receivedAt }
  | failure {c : Collector} (reason : String) : Step c { c with state := c.state.failure reason }
  | pong {c : Collector} (now : Time) : Step c { c with state := c.state.pong now }
  | publish {c : Collector} (now : Time) : Step c { c with published := some (c.state.snapshot now, c.history) }
  | restart {c : Collector} {saved : Snapshot} {history : History} {s : NotificationState} :
    c.published = some (saved, history) → NotificationState.restore saved = some s →
    Step c ⟨s, { history with base := some (history.base.getD fun _ => none) }, c.published⟩
  | restartEmpty {c : Collector} : c.published = none → Step c ⟨.initial, ⟨none, []⟩, none⟩

/-- The collector, from its first start. -/
def machine : Machine Collector where
  start c := c = ⟨.initial, ⟨none, []⟩, none⟩
  step := Step r

end Collector

/-! ## What holds in every run -/

/-- The log says what the state is. -/
structure Faithful [Sha256] (s : NotificationState) (h : History) : Prop where
  kept : NotificationState.Kept s.current
  bound : s.current.length ≤ maxNotices
  initialized : s.initialized = h.base.isSome
  unknown : h.base = none → h.log = [] ∧ s.current = []
  replayed : ∀ m ∈ h.base, (h.log.map Event.toChange).foldl replay m = s.revisions
  numbers : ∀ i e, h.log[i]? = some e → e.sequence = min (i + 1) unsafeInteger
  sequence : s.sequence = min h.log.length unsafeInteger
  events : s.events = h.log.drop (h.log.length - maxEvents)
  dropped : s.dropped = min (h.log.length - maxEvents) unsafeInteger
  latency : ∀ ms ∈ s.latencyMs, 0 ≤ ms ∧ ms ≤ 17280000000000000

namespace Faithful
variable [Sha256] {s : NotificationState} {h : History} {r : Runtime} {event : Json} {now receivedAt : Time}

theorem initial : Faithful .initial ⟨none, []⟩ where
  kept := ⟨List.nodup_nil, fun n hn => absurd hn List.not_mem_nil⟩
  bound := Nat.zero_le _
  initialized := rfl
  unknown _ := ⟨rfl, rfl⟩
  replayed m hm := by cases hm
  numbers i e he := by simp at he
  sequence := rfl
  events := rfl
  dropped := rfl
  latency ms hms := by cases hms

theorem failure (h' : Faithful s h) (reason : String) : Faithful (s.failure reason) h :=
  ⟨h'.kept, h'.bound, h'.initialized, h'.unknown, h'.replayed, h'.numbers, h'.sequence, h'.events, h'.dropped,
    h'.latency⟩

theorem pong (h' : Faithful s h) (now : Time) : Faithful (s.pong now) h :=
  ⟨h'.kept, h'.bound, h'.initialized, h'.unknown, h'.replayed, h'.numbers, h'.sequence, h'.events, h'.dropped,
    h'.latency⟩

theorem after_error (h' : Faithful s h) {e : String} (happly : s.apply r event now receivedAt = (.error e, s))
    (hemits : s.emits r event now receivedAt = []) : Collector.History.after r h s event now receivedAt = h := by
  have hsame := h'.initialized
  rw [Collector.History.after, happly, hemits, List.append_nil]
  cases h with
  | mk base log =>
    cases base with
    | none =>
      dsimp only [Option.isSome_none] at hsame
      simp [hsame]
    | some m => rfl

/-- **A frame that is accepted** emits what it changes. -/
theorem accept (h' : Faithful s h) {frame : Frame} {entries : List (String × Json)} {next : List Notice}
    (hnext : s.candidate r frame entries now = .ok next) (hle : receivedAt.ms ≤ now.ms) :
    Faithful (s.accept frame next now receivedAt)
      ⟨h.base.or (some (NotificationState.revisionsOf next)), h.log ++ s.newEvents frame next now receivedAt⟩ := by
  obtain ⟨hkept, hbound⟩ := NotificationState.kept_candidate h'.kept hnext
  have hlength : (s.newEvents frame next now receivedAt).length = (s.changes next).length :=
    NotificationState.length_newEvents
  have hsequence := h'.sequence
  have hdropped := h'.dropped
  have hlog : (s.events ++ s.newEvents frame next now receivedAt).length =
      min h.log.length maxEvents + (s.changes next).length := by
    rw [List.length_append, hlength, h'.events, List.length_drop]
    omega
  refine ⟨hkept, hbound, ?_, fun hnone => ?_, fun m hm => ?_, fun i e he => ?_, ?_, ?_, ?_,
    fun ms hms => ?_⟩
  · cases h.base <;> rfl
  · cases hbase : h.base <;> rw [hbase] at hnone <;> cases hnone
  · have hrevisions : (s.accept frame next now receivedAt).revisions = NotificationState.revisionsOf next := rfl
    rw [hrevisions, List.map_append, NotificationState.newEvents, NotificationState.toChange_numbered,
      List.foldl_append]
    cases hbase : h.base with
    | none =>
      -- nothing was known before the frame
      rw [hbase] at hm
      obtain rfl := Option.some.inj hm
      have hinit : s.initialized = false := by rw [h'.initialized, hbase]; rfl
      rw [(h'.unknown hbase).1, NotificationState.changes, hinit]
      rfl
    | some m' =>
      rw [hbase] at hm
      obtain rfl := Option.some.inj hm
      rw [h'.replayed m' hbase]
      exact NotificationState.replay_changes (by rw [h'.initialized, hbase]; rfl) h'.kept.distinct hkept.distinct
  · rcases Nat.lt_or_ge i h.log.length with hi | hi
    · rw [List.getElem?_append_left hi] at he
      exact h'.numbers i e he
    · rw [List.getElem?_append_right hi] at he
      rw [NotificationState.getElem?_numbered (by rw [hsequence]; exact Nat.min_le_right _ _) he, hsequence]
      generalize unsafeInteger = u
      omega
  · have hnew : (s.accept frame next now receivedAt).sequence = increment^[(s.changes next).length] s.sequence := by
      simp only [NotificationState.accept, NotificationState.trim]
    rw [hnew, iterate_increment (by rw [hsequence]; exact Nat.min_le_right _ _), hsequence, List.length_append, hlength]
    generalize unsafeInteger = u
    omega
  · have hnew : (s.accept frame next now receivedAt).events =
        (s.events ++ s.newEvents frame next now receivedAt).drop
          ((s.events ++ s.newEvents frame next now receivedAt).length - maxEvents) := by
      simp only [NotificationState.accept, NotificationState.trim]
    have hcount : min h.log.length maxEvents + (s.changes next).length - maxEvents + (h.log.length - maxEvents) =
        h.log.length + (s.changes next).length - maxEvents := by
      generalize maxEvents = m
      omega
    rw [hnew, hlog, h'.events, ← List.drop_append_of_le_length (Nat.sub_le _ _), List.drop_drop, List.length_append,
      hlength, Nat.add_comm (h.log.length - maxEvents), hcount]
  · have hnew : (s.accept frame next now receivedAt).dropped =
        increment^[(s.events ++ s.newEvents frame next now receivedAt).length - maxEvents] s.dropped := by
      simp only [NotificationState.accept, NotificationState.trim]
    rw [hnew, hlog, iterate_increment (by rw [hdropped]; exact Nat.min_le_right _ _), hdropped, List.length_append,
      hlength]
    generalize unsafeInteger = u
    generalize maxEvents = m
    omega
  · obtain rfl : now.ms - receivedAt.ms = ms := Option.some.inj hms
    have hfirst := receivedAt.first
    have hlast := now.last
    omega

theorem apply (h' : Faithful s h) :
    Faithful (s.apply r event now receivedAt).2 (Collector.History.after r h s event now receivedAt) := by
  rcases @NotificationState.apply_cases s _ r event now receivedAt with
    ⟨e, happly, hemits⟩ | ⟨frame, entries, next, hnext, happly, hemits, hle⟩
  · rw [h'.after_error happly hemits, happly]
    exact h'
  · have hafter : Collector.History.after r h s event now receivedAt =
        ⟨h.base.or (some (NotificationState.revisionsOf next)), h.log ++ s.newEvents frame next now receivedAt⟩ := by
      rw [Collector.History.after, happly, hemits]
      rfl
    rw [hafter, happly]
    exact h'.accept hnext hle

end Faithful

/-! ## Restarts -/

/-- What the budget does with one notice. -/
theorem fill_cons (remaining : ℤ) (n : Notice) (ns : List Notice) :
    ∃ (row : Row) (rest : ℤ), fill remaining (n :: ns) = (row :: (fill rest ns).1,
        (fill rest ns).2 + if row.content = .budgetExhausted then 1 else 0) ∧
      row.notice = n ∧ (row.json.bytes : ℤ) + max rest 0 ≤ n.bareRow.json.bytes + max remaining 0 := by
  cases hd : n.diagnostics with
  | none =>
    have hcontent : n.bareRow.content ≠ .budgetExhausted := by
      rw [Notice.bareRow, hd]
      exact Content.noConfusion
    refine ⟨n.bareRow, remaining, ?_, rfl, le_rfl⟩
    rw [if_neg hcontent, fill, hd]
    rfl
  | some diagnostics =>
    by_cases hfits : ((⟨n, .shown diagnostics⟩ : Row).json.bytes : ℤ) - n.bareRow.json.bytes ≤ remaining
    · refine ⟨⟨n, .shown diagnostics⟩,
        remaining - ((⟨n, .shown diagnostics⟩ : Row).json.bytes - n.bareRow.json.bytes), ?_, rfl, ?_⟩
      · rw [fill, hd]
        exact if_pos hfits
      · omega
    · have hcontent : n.bareRow.content = .budgetExhausted := by
        rw [Notice.bareRow, hd]
        rfl
      refine ⟨n.bareRow, remaining, ?_, rfl, le_rfl⟩
      rw [if_pos hcontent, fill, hd]
      exact if_neg hfits

theorem notices_fill (remaining : ℤ) (ns : List Notice) : (fill remaining ns).1.map Row.notice = ns := by
  induction ns generalizing remaining with
  | nil => rfl
  | cons n ns ih =>
    obtain ⟨row, rest, hfill, hnotice, -⟩ := fill_cons remaining n ns
    rw [hfill, List.map_cons, ih rest, hnotice]

/-- A row is read as its notice, whose diagnostics may be missing. -/
theorem revisionsOf_read (rows : List Row) (id : Hex 64) :
    NotificationState.revisionsOf (rows.map Row.read) id = NotificationState.revisionsOf (rows.map Row.notice) id := by
  induction rows with
  | nil => rfl
  | cons row rows ih =>
    unfold NotificationState.revisionsOf lookup at ih ⊢
    rw [List.map_cons, List.map_cons, List.find?_cons, List.find?_cons]
    by_cases hid : row.notice.id = id
    · simp [Row.read, hid]
    · simpa [Row.read, hid] using ih

namespace Faithful
variable [Sha256] {s : NotificationState} {h : History}

omit [Sha256] in
theorem rows_perm (s : NotificationState) (now : Time) : ((s.snapshot now).rows.map Row.notice).Perm s.current := by
  have hrows : (s.snapshot now).rows.map Row.notice = s.sorted := notices_fill _ s.sorted
  rw [hrows]
  exact List.mergeSort_perm _ _

theorem nodup_read (h' : Faithful s h) (now : Time) :
    (((s.snapshot now).rows.map Row.read).map fun n => n.id).Nodup := by
  have hids : ((s.snapshot now).rows.map Row.read).map (fun n => n.id) =
      ((s.snapshot now).rows.map Row.notice).map fun n => n.id := by
    rw [List.map_map, List.map_map]
    rfl
  rw [hids]
  exact ((rows_perm s now).map fun n => n.id).nodup_iff.2 h'.kept.distinct

theorem restored (h' : Faithful s h) (now : Time) :
    NotificationState.restore (s.snapshot now) = if s.sequence < unsafeInteger then
      some { NotificationState.initial with
        current := (s.snapshot now).rows.map Row.read
        events := s.events
        sequence := s.sequence
        dropped := s.dropped
        initialized := true }
    else none := by
  have hlength : (s.snapshot now).rows.length ≤ maxNotices := by
    rw [← List.length_map (f := Row.notice), (rows_perm s now).length_eq]
    exact h'.bound
  have hevents : (s.snapshot now).events.length ≤ maxEvents := by
    have hsame : (s.snapshot now).events = s.events := rfl
    rw [hsame, h'.events, List.length_drop]
    omega
  have hrevised : ∀ row ∈ (s.snapshot now).rows, row.read.revision = row.read.revisionOf := by
    intro row hrow
    exact h'.kept.revised row.notice ((rows_perm s now).mem_iff.1 (List.mem_map_of_mem hrow))
  have hsequence : (s.snapshot now).sequence = s.sequence := rfl
  have hcurrent : ((s.snapshot now).rows.map Row.read).foldl (fun ns n => upsert (fun n : Notice => n.id) n ns) [] =
      (s.snapshot now).rows.map Row.read := foldl_upsert (h'.nodup_read now)
  rw [NotificationState.restore, hcurrent, hsequence]
  split_ifs with hsafe
  · rw [(guard_some (u := ())).2 ⟨hlength, hevents, hsafe⟩, (guard_some (u := ())).2 hrevised]
    rfl
  · have hguard : (guard ((s.snapshot now).rows.length ≤ maxNotices ∧ (s.snapshot now).events.length ≤ maxEvents ∧
        s.sequence < unsafeInteger) : Option Unit) = none := by
      simp [guard, hsafe]
    rw [hguard]
    rfl

/-- **A restart** goes on where the snapshot was taken; what was not known is taken as nothing. -/
theorem restart (h' : Faithful s h) {now : Time} {s' : NotificationState}
    (hrestore : NotificationState.restore (s.snapshot now) = some s') :
    Faithful s' ⟨some (h.base.getD fun _ => none), h.log⟩ := by
  rw [h'.restored now] at hrestore
  split_ifs at hrestore
  obtain rfl := Option.some.inj hrestore
  have hrevisions : NotificationState.revisionsOf ((s.snapshot now).rows.map Row.read) = s.revisions := by
    funext id
    rw [revisionsOf_read, NotificationState.revisionsOf, NotificationState.revisions, NotificationState.notice,
      ← lookup_perm h'.kept.distinct (rows_perm s now).symm]
  refine ⟨⟨h'.nodup_read now, fun n hn => ?_⟩, ?_, rfl, fun hnone => (Option.some_ne_none _ hnone).elim,
    fun m hm => ?_, h'.numbers, h'.sequence, h'.events, h'.dropped,
    fun ms hms => (Option.some_ne_none _ hms.symm).elim⟩
  · obtain ⟨row, hrow, rfl⟩ := List.mem_map.1 hn
    exact h'.kept.revised row.notice ((rows_perm s now).mem_iff.1 (List.mem_map_of_mem hrow))
  · rw [List.length_map, ← List.length_map (f := Row.notice), (rows_perm s now).length_eq]
    exact h'.bound
  · obtain rfl := Option.some.inj hm
    refine Eq.trans ?_ hrevisions.symm
    cases hbase : h.base with
    | none =>
      obtain ⟨hlog, hcurrent⟩ := h'.unknown hbase
      rw [hlog]
      funext id
      simp [NotificationState.revisions, NotificationState.notice, hcurrent, lookup]
    | some m => exact h'.replayed m hbase

end Faithful

namespace Collector
variable [Sha256] {r : Runtime} {c c' : Collector}

/-- The state follows its log, and so does the one that was published. -/
structure Sound (c : Collector) : Prop where
  faithful : Faithful c.state c.history
  published : ∀ saved history, c.published = some (saved, history) →
    ∃ s now, Faithful s history ∧ saved = s.snapshot now

theorem Sound.step (h : Sound c) (hstep : Step r c c') : Sound c' := by
  cases hstep with
  | apply event now receivedAt => exact ⟨h.faithful.apply, h.published⟩
  | failure reason => exact ⟨h.faithful.failure reason, h.published⟩
  | pong now => exact ⟨h.faithful.pong now, h.published⟩
  | publish now =>
    refine ⟨h.faithful, ?_⟩
    rintro saved history hsaved
    obtain ⟨rfl, rfl⟩ := Prod.mk.inj (Option.some.inj hsaved)
    exact ⟨c.state, now, h.faithful, rfl⟩
  | restart hpublished hrestore =>
    obtain ⟨s, now, hs, rfl⟩ := h.published _ _ hpublished
    exact ⟨hs.restart hrestore, h.published⟩
  | restartEmpty hpublished => exact ⟨.initial, fun saved history hsaved => by cases hsaved⟩

theorem sound : (machine r).Invariant Sound where
  start := by
    rintro c rfl
    exact ⟨.initial, fun saved history hsaved => by cases hsaved⟩
  step c c' _ h hstep := h.step hstep

def epoch : Time := ⟨0, by decide, by decide⟩

def sampleRuntime : Runtime := ⟨fun _ => none, fun _ => some [], fun _ _ _ => some []⟩

def sampleFrame : Json :=
  .obj [("type", .str "current"), ("notifications", .obj [("n", .obj [("notification_id", .str "n")])])]

def restarted : Collector :=
  ⟨{ NotificationState.initial with initialized := true }, ⟨some fun _ => none, []⟩,
    some (NotificationState.initial.snapshot epoch, ⟨none, []⟩)⟩

theorem reachable_restarted : (machine r).Reachable restarted := by
  have hrestore : NotificationState.restore (NotificationState.initial.snapshot epoch) = some restarted.state := by
    have hrows : (NotificationState.initial.snapshot epoch).rows = [] :=
      List.map_eq_nil_iff.1 (Faithful.rows_perm .initial epoch).eq_nil
    rw [Faithful.initial.restored epoch,
      if_pos (show NotificationState.initial.sequence < unsafeInteger by decide), hrows]
    rfl
  exact .step (.step (.start rfl) (.publish epoch)) (.restart (show _ = some (_, History.mk none []) from rfl) hrestore)

/-- Events that say what changed: one for each id whose revision did, and no other. -/
structure Reports (s s' : NotificationState) (events : List Event) : Prop where
  once : (events.map fun e => e.objectId).Nodup
  between : ∀ e ∈ events, e.toChange.Between (s.revisions e.objectId) (s'.revisions e.objectId)
  every : ∀ id, s.revisions id ≠ s'.revisions id → ∃ e ∈ events, e.objectId = id

theorem reports_newEvents {s : NotificationState} {frame : Frame} {next : List Notice} {now receivedAt : Time}
    (hinit : s.initialized = true) (hs : NotificationState.Kept s.current) (hnext : NotificationState.Kept next) :
    Reports s (s.accept frame next now receivedAt) (s.newEvents frame next now receivedAt) := by
  have hchanges : (s.newEvents frame next now receivedAt).map Event.toChange = s.changes next :=
    NotificationState.toChange_numbered
  have hids : (s.newEvents frame next now receivedAt).map (fun e => e.objectId) =
      (s.changes next).map Change.objectId := by
    rw [← hchanges, List.map_map]
    rfl
  have hnodup := NotificationState.nodup_changes hs.distinct hnext.distinct
  constructor
  · rw [hids]
    exact hnodup
  · intro e he
    have hmem : e.toChange ∈ s.changes next := hchanges ▸ List.mem_map_of_mem he
    rcases NotificationState.mem_changes hinit hnext.distinct e.objectId with ⟨hnot, -⟩ | ⟨c, hc, hid, hbetween⟩
    · exact absurd (List.mem_map_of_mem hmem) hnot
    · rw [List.inj_on_of_nodup_map hnodup hmem hc hid.symm]
      rw [hid]
      exact hbetween
  · intro id hne
    rcases NotificationState.mem_changes hinit hnext.distinct id with ⟨-, hsame⟩ | ⟨c, hc, hid, -⟩
    · exact absurd hsame hne
    · obtain ⟨e, he, rfl⟩ := List.mem_map.1 (hchanges.symm ▸ hc)
      exact ⟨e, he, hid⟩

/-- **A frame is refused as a whole or reported as a whole.** -/
theorem frame_of_reachable (h : (machine r).Reachable c) (event : Json) (now receivedAt : Time) :
    (∃ e, c.state.apply r event now receivedAt = (.error e, c.state) ∧
      c.state.emits r event now receivedAt = []) ∨
    ∃ s, c.state.apply r event now receivedAt = (.ok (c.state.emits r event now receivedAt).length, s) ∧
      (c.state.initialized = false → c.state.emits r event now receivedAt = []) ∧
      (c.state.initialized = true → Reports c.state s (c.state.emits r event now receivedAt)) := by
  have hfaithful := (sound.reachable h).faithful
  rcases @NotificationState.apply_cases c.state _ r event now receivedAt with
    hrefused | ⟨frame, entries, next, hnext, happly, hemits, -⟩
  · exact Or.inl hrefused
  · right
    refine ⟨c.state.accept frame next now receivedAt, ?_, fun hinit => ?_, fun hinit => ?_⟩
    · rw [happly, hemits, NotificationState.length_newEvents]
    · rw [hemits, NotificationState.newEvents, NotificationState.changes, hinit]
      rfl
    · rw [hemits]
      exact reports_newEvents hinit hfaithful.kept (NotificationState.kept_candidate hfaithful.kept hnext).1

omit [Sha256] in
theorem frame_after_restart : letI := zeroHash
    ∃ s, Reports restarted.state s (restarted.state.emits sampleRuntime sampleFrame epoch epoch) ∧
      (restarted.state.emits sampleRuntime sampleFrame epoch epoch).length = 1 := by
  let := zeroHash
  have hlength : (restarted.state.emits sampleRuntime sampleFrame epoch epoch).length = 1 := rfl
  rcases frame_of_reachable (r := sampleRuntime) reachable_restarted sampleFrame epoch epoch with
    ⟨e, -, hempty⟩ | ⟨s, -, -, hreports⟩
  · rw [hempty] at hlength
    cases hlength
  · exact ⟨s, hreports rfl, hlength⟩

end Collector
end SmartHome.HaNotices
