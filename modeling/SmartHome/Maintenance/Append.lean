/-
  What `append` and the retirement of operations do to the directory, wherever they stop.
-/
import SmartHome.Maintenance.Reads

namespace SmartHome.Maintenance

open Verif Program Mqtt

/-! ## The directory -/

/-- The effects that a process asks for. -/
def executed : Dir × Request → Option (Dir × Command × Row)
  | (d, .execute command intent) => some (d, command, intent)
  | _ => none

section
variable [Sha256]

/-- Sound whatever a loss of power leaves. -/
def Dir.Sound (d : Dir) : Prop := ∀ f ∈ d.all, f.Sound

/-- What the steps of a process do: whatever a loss of power leaves continues what one could have left. -/
def Grows (d d' : Dir) : Prop := d.Sound → d'.Sound ∧ ∀ g ∈ d'.all, ∃ f ∈ d.all, f.Extends g

theorem Grows.refl (d : Dir) : Grows d d := fun hd => ⟨hd, fun g hg => ⟨g, hg, .refl g⟩⟩

theorem Grows.trans {d d' d'' : Dir} (h : Grows d d') (h' : Grows d' d'') : Grows d d'' := by
  intro hd
  obtain ⟨hd', hext⟩ := h hd
  obtain ⟨hd'', hext'⟩ := h' hd'
  refine ⟨hd'', fun g hg => ?_⟩
  obtain ⟨f', hf', hfg⟩ := hext' g hg
  obtain ⟨f, hf, hff⟩ := hext f' hf'
  exact ⟨f, hf, hff.trans hfg⟩

variable {d : Dir} {write : Files → Files}

omit [Sha256] in
theorem mem_all : d.now ∈ d.all := List.mem_cons_self

theorem Dir.Sound.now (h : d.Sound) : d.now.Sound := h _ mem_all

theorem grows_rename (h : d.Sound → (write d.now).Sound ∧ d.now.Extends (write d.now)) : Grows d (d.rename write) := by
  intro hd
  obtain ⟨hsound, hext⟩ := h hd
  refine ⟨fun g hg => ?_, fun g hg => ?_⟩
  · rcases List.mem_cons.1 hg with rfl | hg
    · exact hsound
    · exact hd g hg
  · rcases List.mem_cons.1 hg with rfl | hg
    · exact ⟨d.now, mem_all, hext⟩
    · exact ⟨g, hg, .refl g⟩

theorem grows_sync : Grows d d.sync := by
  intro hd
  refine ⟨fun g hg => ?_, fun g hg => ?_⟩
  · rw [List.mem_singleton.1 hg]
    exact hd.now
  · rw [List.mem_singleton.1 hg]
    exact ⟨d.now, mem_all, .refl d.now⟩

/-! ## Steps -/

variable {α β : Type} {post : β → Dir → Prop}

theorem leads_check {c : Prop} [Decidable c] {e : String} {k : Unit → Prog β} (h : c → (k ()).Leads executed Grows post d) :
    (require c e >>= k).Leads executed Grows post d := leads_bind (leads_require h)

theorem leads_fallible {k : Unit → Prog β} (h : (k ()).Leads executed Grows post d) :
    (fallible >>= k).Leads executed Grows post d := by
  refine leads_bind (leads_bind (leads_ask rfl fun succeeds => leads_require fun _ => h))

theorem leads_reading {read : Files → Except String α} {k : α → Prog β}
    (h : ∀ a, read d.now = .ok a → (k a).Leads executed Grows post d) :
    (reading read >>= k).Leads executed Grows post d := by
  rw [reading, bind_assoc]
  refine leads_fallible ?_
  rw [bind_assoc]
  exact leads_bind (leads_get (Grows.refl d) (leads_bind (leads_lift h)))

theorem leads_atomicWrite {k : Unit → Prog β}
    (hwrite : d.Sound → (write d.now).Sound ∧ d.now.Extends (write d.now))
    (h : (k ()).Leads executed Grows post (d.rename write).sync) :
    (atomicWrite write >>= k).Leads executed Grows post d := by
  rw [atomicWrite, bind_assoc]
  have hsync : Leads executed Grows post (.atomic Dir.sync fun _ => k ()) (d.rename write) := ⟨grows_sync, h⟩
  have hrest : Leads executed Grows post
      ((fallible >>= fun _ => .atomic Dir.sync fun _ => (pure () : Prog Unit)) >>= k) (d.rename write) := by
    rw [bind_assoc]
    exact leads_fallible hsync
  have hrename : Leads executed Grows post (.atomic (·.rename write) fun _ =>
      (fallible >>= fun _ => .atomic Dir.sync fun _ => (pure () : Prog Unit)) >>= k) d := ⟨grows_rename hwrite, hrest⟩
  exact leads_fallible hrename

omit [Sha256] in
theorem sync_all : (d.rename write).sync.all = [write d.now] := rfl

theorem sound_synced (h : (write d.now).Sound) : (d.rename write).sync.Sound := by
  intro g hg
  rw [sync_all, List.mem_singleton] at hg
  exact hg ▸ h

/-! ## Retirement -/

/-- A directory in which as much is known, and the snapshot is the same. -/
structure Kept (d d' : Dir) : Prop where
  sound : d'.Sound
  snapshot : d'.now.snapshot = d.now.snapshot
  known : ∀ id, d'.now.known id = d.now.known id

theorem leads_storeFile {op : Operation} {k : Unit → Prog β} (hd : d.Sound) (hop : op ∈ d.now.active)
    (hphase : ∃ phase ∈ op.lastPhase, phase ∈ terminal)
    (h : ∀ d', Kept d d' → d'.now.index = d.now.index → d'.now.archived op.operationId = some op →
      (k ()).Leads executed Grows post d') : (storeFile op >>= k).Leads executed Grows post d := by
  rw [storeFile, bind_assoc]
  refine leads_reading fun o ho => ?_
  have harchived : d.now.archived op.operationId = o := Except.ok.inj ho
  cases o with
  | some orphan =>
    refine leads_check fun hsame => ?_
    subst hsame
    exact h d ⟨hd, rfl, fun _ => rfl⟩ rfl harchived
  | none =>
    have hstored := hd.now.withArchived hop hphase harchived
    refine leads_atomicWrite (fun _ => ⟨hstored.1, Files.extends_of_known hstored.2⟩) ?_
    exact h _ ⟨sound_synced hstored.1, rfl, hstored.2⟩ rfl (Function.update_self ..)

omit [Sha256] in
theorem exists_last {op : Operation} (hphase : ∃ phase ∈ op.lastPhase, phase ∈ terminal) :
    ∃ last, op.records.getLast? = some last ∧ last.body.phase ∈ terminal := by
  obtain ⟨phase, hmem, hterminal⟩ := hphase
  rw [Operation.lastPhase, Operation.phaseList, List.getLast?_map] at hmem
  obtain ⟨last, hlast, rfl⟩ := Option.mem_map.1 hmem
  exact ⟨last, hlast, hterminal⟩

/-- The index after a row more. -/
theorem Index.Valid.append {f : Files} {op : Operation} {r : IndexRow} (hf : f.Sound)
    (hlt : f.rows.length < maxArchivedOperations) (hnew : ∀ r ∈ f.rows, r.operationId ≠ op.operationId)
    (hrow : op.row = some r) (hterminal : r.phase ∈ terminal) :
    (Index.mk (f.index.elim 0 Index.revision + 1) (f.rows ++ [r])).Valid := by
  have hrevision : f.index.elim 0 Index.revision = f.rows.length := by
    rw [Files.rows]
    cases hix : f.index with
    | none => rfl
    | some ix => exact (hf.index ix hix).2.2.1
  have hid := (Operation.row_eq_some hrow).1
  have hbound : maxArchivedOperations < 2 ^ 64 := by decide
  refine ⟨?_, ?_, ?_, nodup_keys_append hf.nodup_rows fun r' hr' => hid ▸ hnew r' hr', fun r' hr' => ?_⟩
  · rw [List.length_append]
    exact hlt
  · show f.index.elim 0 Index.revision + 1 < 2 ^ 64
    rw [hrevision]
    exact Nat.lt_of_le_of_lt hlt hbound
  · rw [List.length_append, List.length_singleton, hrevision]
  · rw [mem_concat] at hr'
    rcases hr' with hr' | rfl
    · exact hf.rows_terminal hr'
    · exact hterminal

/-- The index with a row for the operation that is to be retired. -/
theorem Kept.withIndex {d₁ : Dir} {op : Operation} (h : Kept d d₁) (hix : d₁.now.index = d.now.index) (hd : d.Sound)
    (hop : op ∈ d.now.active) (hphase : ∃ phase ∈ op.lastPhase, phase ∈ terminal)
    (hlt : d.now.rows.length < maxArchivedOperations) (hnew : ∀ r ∈ d.now.rows, r.operationId ≠ op.operationId)
    (hsize : fileBytes op.file ≤ maxOperationBytes) (harchived : d₁.now.archived op.operationId = some op) :
    ∃ r, op.row = some r ∧ (Index.mk (d.now.index.elim 0 Index.revision + 1) (d.now.rows ++ [r])).Valid ∧
      (d₁.now.withIndex ⟨d.now.index.elim 0 Index.revision + 1, d.now.rows ++ [r]⟩).Sound ∧
      ∀ id, (d₁.now.withIndex ⟨d.now.index.elim 0 Index.revision + 1, d.now.rows ++ [r]⟩).known id = d₁.now.known id := by
  obtain ⟨last, hlast, hterminal⟩ := exists_last hphase
  have hr : op.row = some ⟨op.operationId, digest op.json, last.sha256, last.body.phase⟩ := by
    rw [Operation.row, hlast]
    rfl
  have hrows : d₁.now.rows = d.now.rows := by rw [Files.rows, Files.rows, hix]
  have hactive : d₁.now.active = d.now.active := by rw [Files.active, Files.active, h.snapshot]
  have hvalid := Index.Valid.append hd.now hlt hnew hr hterminal
  have hindexed := h.sound.now.withIndex (hactive ▸ hop) harchived hsize hr (hrows ▸ hnew) (hrows ▸ rfl) hvalid
  exact ⟨_, hr, hvalid, hindexed⟩

theorem leads_preserve {op : Operation} {k : Unit → Prog β} (hd : d.Sound) (hop : op ∈ d.now.active)
    (h : ∀ d', Kept d d' → (∃ r ∈ d'.now.rows, r.operationId = op.operationId) →
      d'.now.archived op.operationId = some op → (k ()).Leads executed Grows post d') :
    (preserve op >>= k).Leads executed Grows post d := by
  simp only [preserve, bind_assoc]
  refine leads_check fun _ => leads_check fun hphase => leads_reading fun old hold => ?_
  obtain rfl := Except.ok.inj (hd.now.indexed_eq.symm.trans hold)
  refine leads_reading fun found hfound => ?_
  have hfind := Except.ok.inj ((hd.now.findArchived_eq _).symm.trans hfound)
  cases hrow : rowOf d.now.rows op.operationId with
  | some r =>
    -- it is archived already
    obtain ⟨hr, hid⟩ := lookup_eq_some hrow
    have hsame := hd.now.same r hr op hop hid.symm
    rw [hid] at hsame
    rw [hrow, Option.bind_some, hsame] at hfind
    obtain rfl := hfind
    exact leads_check fun _ => h d ⟨hd, rfl, fun _ => rfl⟩ ⟨r, hr, hid⟩ hsame
  | none =>
    rw [hrow, Option.bind_none] at hfind
    obtain rfl := hfind
    have hnew : ∀ r ∈ d.now.rows, r.operationId ≠ op.operationId := lookup_eq_none.1 hrow
    simp only [bind_assoc]
    refine leads_check fun hlt => leads_check fun hsize => ?_
    refine leads_storeFile hd hop hphase fun d₁ hd₁ hix₁ harchived₁ => leads_reading fun now _ => ?_
    obtain ⟨r, hr, -, hsound, hknown⟩ := hd₁.withIndex hix₁ hd hop hphase hlt hnew hsize harchived₁
    refine leads_check fun _ => leads_check fun _ => ?_
    have hix : (⟨d.now.index.elim 0 Index.revision + 1, d.now.index.elim [] Index.operations ++ op.row.toList⟩ : Index) =
        ⟨d.now.index.elim 0 Index.revision + 1, d.now.rows ++ [r]⟩ := by rw [hr]; rfl
    rw [hix]
    refine leads_atomicWrite (fun _ => ⟨hsound, Files.extends_of_known hknown⟩) (leads_reading fun found _ => ?_)
    refine leads_check fun _ => h _ ⟨sound_synced hsound, hd₁.snapshot, fun id => ?_⟩ ?_ harchived₁
    · exact (hknown id).trans (hd₁.known id)
    · exact ⟨r, mem_concat.2 (Or.inr rfl), (Operation.row_eq_some hr).1⟩

theorem leads_retireOne {old : Snapshot} {k : Option Snapshot → Prog β} (hd : d.Sound) (hold : d.now.snapshot = some old)
    (h : ∀ d' s, d'.Sound → d'.now.snapshot = some s → (∀ id, d'.now.known id = d.now.known id) →
      (k (some s)).Leads executed Grows post d') : (retireOne old >>= k).Leads executed Grows post d := by
  unfold retireOne
  cases hfind : old.operations.find? fun op => decide (∃ phase ∈ op.lastPhase, phase ∈ terminal) with
  | none => trivial
  | some op =>
    have hmem := List.mem_of_find?_eq_some hfind
    have hop : op ∈ d.now.active := by
      rw [Files.Sound.mem_operations hold]
      exact hmem
    simp only [bind_assoc]
    refine leads_reading fun _ _ => leads_preserve hd hop fun d₁ hd₁ hrow₁ harchived₁ => leads_reading fun index hindex => ?_
    have hix := Except.ok.inj (hd₁.sound.now.indexed_eq.symm.trans hindex)
    cases index with
    | none => trivial
    | some ix =>
      simp only [bind_assoc]
      refine leads_check fun hvalid => leads_reading fun _ _ => leads_check fun _ => ?_
      have hsnapshot : d₁.now.snapshot = some old := hd₁.snapshot.trans hold
      have hretired := hd₁.sound.now.retired hsnapshot hix hmem harchived₁ hrow₁ hvalid rfl rfl
      refine leads_atomicWrite (fun _ => ⟨hretired.1, Files.extends_of_known hretired.2⟩) (leads_reading fun s hs => ?_)
      obtain rfl := Except.ok.inj (hretired.1.read_eq.symm.trans hs)
      exact h _ _ (sound_synced hretired.1) rfl fun id => (hretired.2 id).trans (hd₁.known id)

/-! ## Append -/

omit [Sha256] in
theorem Operation.record_eq_some {op : Operation} {phase : Phase} {row : Row} (h : op.record phase = some row) :
    row ∈ op.records ∧ row.body.phase = phase :=
  ⟨List.mem_of_find?_eq_some h, by simpa using List.find?_some h⟩

omit [Sha256] in
theorem recordBody_ok {id : Hex 32} {approval : Hex 64} {phase : Phase} {facts : Facts} {atNs n : ℕ} {domain : Hex 64}
    {previous : Option (Hex 64)} {b : Body} (h : recordBody id approval phase facts atNs domain n previous = .ok b) :
    b = ⟨id, approval, phase, facts, atNs, domain, n, previous⟩ := by
  unfold recordBody at h
  split_ifs at h
  exact (Except.ok.inj h).symm

/-- The end of `append`, with the operation that was found or a new one. -/
theorem leads_extend {approval : Hex 64} {e : Entry} {op : Operation} {post : Receipt → Dir → Prop} (hd : d.Sound)
    (hid : op.operationId = e.operationId)
    (hfound : op ∈ d.now.active ∨ d.now.known e.operationId = none)
    (hduplicate : ∀ row ∈ op.records, row.body.phase = e.phase → post ⟨true, row⟩ d)
    (hrecorded : ∀ row d', d'.Sound → d'.since = [] →
      d'.now.known e.operationId = some ⟨op.operationId, op.approval, op.records ++ [row]⟩ →
      row.body.phase = e.phase → post ⟨false, row⟩ d') :
    (extend approval e d.now.snapshot op).Leads executed Grows post d := by
  unfold extend
  refine leads_check fun _ => ?_
  cases hrow : op.record e.phase with
  | some existing =>
    obtain ⟨hmem, hphase⟩ := Operation.record_eq_some hrow
    exact leads_bind (leads_lift fun _ _ => leads_check fun _ => leads_pure (hduplicate existing hmem hphase))
  | none =>
    refine leads_check fun _ => leads_bind (leads_lift fun body hbody => ?_)
    refine leads_check fun hlonger => leads_check fun hnext => leads_check fun _ => leads_reading fun _ _ => ?_
    refine leads_check fun _ => ?_
    -- an operation that grows is in no other place
    have hfree : d.now.archived op.operationId = none ∧ ∀ r ∈ d.now.rows, r.operationId ≠ op.operationId := by
      rcases hfound with hactive | hnone
      · exact hd.now.not_archived hactive (hlonger.running rfl)
      · rw [hid]
        exact (hd.now.unknown hnone).2
    have hwritten := @Files.Sound.withOperation _ d.now ⟨op.operationId, op.approval, op.records ++ [⟨body, digest body.json⟩]⟩
      hd.now hfree.1 hfree.2 _ rfl hnext
    have hknown : (d.now.withSnapshot ((d.now.snapshot.getD .empty).withOperation ⟨op.operationId, op.approval,
        op.records ++ [⟨body, digest body.json⟩]⟩)).known e.operationId =
        some ⟨op.operationId, op.approval, op.records ++ [⟨body, digest body.json⟩]⟩ := by
      rw [hwritten.2, if_pos hid.symm]
    have hextends : d.now.Extends (d.now.withSnapshot ((d.now.snapshot.getD .empty).withOperation ⟨op.operationId,
        op.approval, op.records ++ [⟨body, digest body.json⟩]⟩)) := by
      intro id o ho
      by_cases hsame : id = op.operationId
      · subst hsame
        rcases hfound with hactive | hnone
        · obtain rfl := Option.some.inj ((hd.now.known_of_active hactive).symm.trans ho)
          exact ⟨⟨op.operationId, op.approval, op.records ++ [⟨body, digest body.json⟩]⟩,
            (hwritten.2 op.operationId).trans (if_pos rfl), rfl, rfl, List.prefix_append _ _⟩
        · rw [hid, hnone] at ho
          cases ho
      · exact ⟨o, by rw [hwritten.2, if_neg hsame]; exact ho, rfl, rfl, List.prefix_refl _⟩
    refine leads_atomicWrite (fun _ => ⟨hwritten.1, hextends⟩) (leads_pure ?_)
    exact hrecorded _ _ (sound_synced hwritten.1) rfl hknown (by rw [recordBody_ok hbody])

/-- What an append leaves behind. -/
inductive Appended (e : Entry) (d : Dir) : Receipt → Dir → Prop
  | duplicate {op : Operation} {row : Row} : d.now.known e.operationId = some op → row ∈ op.records →
      row.body.phase = e.phase → Appended e d ⟨true, row⟩ d
  | recorded {d' : Dir} {op : Operation} {row : Row} : d'.Sound → d'.since = [] →
      d'.now.known e.operationId = some op →
      op.records = ((d.now.known e.operationId).elim [] Operation.records) ++ [row] → row.body.phase = e.phase →
      Appended e d ⟨false, row⟩ d'

theorem leads_append {approval : Hex 64} {e : Entry} {post : Receipt → Dir → Prop} (hd : d.Sound)
    (h : ∀ receipt d', Appended e d receipt d' → post receipt d') :
    (append approval e).Leads executed Grows post d := by
  unfold append
  refine leads_reading fun old hold => ?_
  obtain rfl := Except.ok.inj (hd.now.read_eq.symm.trans hold)
  cases hop : operationOf (d.now.snapshot.elim [] Snapshot.operations) e.operationId with
  | some op =>
    obtain ⟨hactive, hid⟩ := lookup_eq_some hop
    have hknown : d.now.known e.operationId = some op := hid ▸ hd.now.known_of_active hactive
    refine leads_extend hd hid (Or.inl hactive) (fun row hrow hphase => h _ _ (.duplicate hknown hrow hphase))
      fun row d' hd' hsince hknown' hphase => h _ _ (.recorded hd' hsince hknown' ?_ hphase)
    rw [hknown]
    rfl
  | none =>
    refine leads_check fun _ => leads_bind (leads_lift fun _ _ => leads_reading fun known hknown =>
      leads_check fun hnone => ?_)
    subst hnone
    have hnone : d.now.known e.operationId = none := Except.ok.inj ((hd.now.find_eq _).symm.trans hknown)
    -- a new operation has no record that could be a duplicate
    have hnew : ∀ d₁ : Dir, d₁.Sound → d₁.now.known e.operationId = none →
        (extend approval e d₁.now.snapshot ⟨e.operationId, approval, []⟩).Leads executed Grows post d₁ := by
      intro d₁ hd₁ hnone₁
      refine leads_extend hd₁ rfl (Or.inr hnone₁) (fun row hrow => absurd hrow List.not_mem_nil)
        fun row d' hd' hsince hknown' hphase => h _ _ (.recorded hd' hsince hknown' ?_ hphase)
      rw [hnone]
      rfl
    have hhere := hnew d hd hnone
    cases hs : d.now.snapshot with
    | none =>
      rw [hs] at hhere
      exact hhere
    | some s =>
      by_cases hfull : maxOperations ≤ s.operations.length
      · simp only [if_pos hfull]
        refine leads_retireOne hd hs fun d₁ s₁ hd₁ hs₁ hknown₁ => leads_check fun _ => ?_
        have hretired := hnew d₁ hd₁ ((hknown₁ _).trans hnone)
        rw [hs₁] at hretired
        exact hretired
      · simp only [if_neg hfull]
        rw [hs] at hhere
        exact hhere

end
end SmartHome.Maintenance
