/-
  What holds of the files of an operation at every moment, and what one file-system step may do.
-/
import SmartHome.StorageMaintenance.Maintenance

namespace SmartHome.StorageMaintenance

open Verif

section
variable (decompress : Bytes → Option Bytes)

/-! ## Where a content is kept -/

/-- An archive that decompresses to a content, under a complete seal that verified it. -/
def Payload.Sealed (p : Payload) (id : String) (c : Bytes) : Prop :=
  ∃ b v, p.archives id = some b ∧ decompress b = some c ∧ p.seals id = some (.whole v) ∧
    v.source = c ∧ v.bytes = c.length ∧ v.recoveryVerified = true

/-- A content is staged. -/
def Payload.Staged (p : Payload) (id : String) (c : Bytes) : Prop :=
  ∃ f, p.originals id = some f ∧ f.content = c

def Disk.Sealed (s : Disk) (op id : String) (c : Bytes) : Prop :=
  ∃ p, s.payload op = some p ∧ p.Sealed decompress id c

def Disk.Staged (s : Disk) (op id : String) (c : Bytes) : Prop :=
  ∃ p, s.payload op = some p ∧ p.Staged id c

/-- A content was linked back under the name of an item with the id. -/
def Disk.LinkedBack (s : Disk) (op id : String) (c : Bytes) : Prop :=
  ∃ row : Item, row.id = id ∧ (op, row, c) ∈ s.history.restored

/-- What holds of the files at every moment. -/
structure Sound (s : Disk) : Prop where
  held : ∀ op row c, (op, row, c) ∈ s.history.taken →
    s.Staged op row.id c ∨ s.Sealed decompress op row.id c ∨ s.LinkedBack op row.id c
  verified : ∀ op p id v, s.payload op = some p → p.seals id = some (.whole v) →
    p.Sealed decompress id v.source
  once : (s.history.begun.map fun t => (t.1, t.2.1)).Nodup
  recorded : ∀ t ∈ s.history.begun, (s.record t.1 t.2.1.intent).isSome = true
  acts : ∀ t ∈ s.history.acts, t ∈ s.history.begun

/-- What a step of the maintenance may do to the files. -/
structure Within (s s' : Disk) : Prop where
  /-- A staged content goes only if it is kept elsewhere. -/
  staged : ∀ op id c, s.Staged op id c →
    s'.Staged op id c ∨ s.Sealed decompress op id c ∨ s.LinkedBack op id c
  /-- No entry of a cache directory is replaced. -/
  entries : ∀ place f f', s.entry place = some f → s'.entry place = some f' → f'.key = f.key
  /-- An entry that goes was taken, or is that of a restore. -/
  removed : ∀ scope name f, s.entry (scope, name) = some f → s'.entry (scope, name) = none →
    (∃ op row, row.name = name ∧ s'.history.taken = s.history.taken ++ [(op, row, f.content)]) ∨
      ∃ row : Item, name = row.temp
  /-- What is linked back gets a name that was free. -/
  restored : ∀ op row c, (op, row, c) ∈ s'.history.restored → (op, row, c) ∈ s.history.restored ∨
    ∃ scope f, s.entry (scope, row.name) = none ∧ s'.entry (scope, row.name) = some f ∧ f.content = c

end

section
variable {decompress : Bytes → Option Bytes} {s s' : Disk} {op id : String} {c : Bytes}
  {p p' : Payload}

theorem Disk.entry_some {s : Disk} {place : String × String} {f : File}
    (h : s.entry place = some f) : ∃ e ∈ s.cache, e.place = place ∧ e.file = f := by
  obtain ⟨e, he, rfl⟩ := Option.map_eq_some_iff.1 h
  exact ⟨e, (lookup_eq_some he).1, (lookup_eq_some he).2, rfl⟩

/-- A step that leaves the cache and the files that were taken alone. -/
theorem Within.of_cache (hcache : s'.cache = s.cache)
    (htaken : s'.history.restored = s.history.restored)
    (hstaged : ∀ op id c, s.Staged op id c →
      s'.Staged op id c ∨ s.Sealed decompress op id c ∨ s.LinkedBack op id c) :
    Within decompress s s' where
  staged := hstaged
  entries place f f' hf hf' := by
    rw [Disk.entry, hcache] at hf'
    rw [Disk.entry, hf'] at hf
    rw [Option.some.inj hf]
  removed scope name f hf hf' := by
    rw [Disk.entry, hcache] at hf'
    rw [Disk.entry, hf'] at hf
    cases hf
  restored op row c h := by
    rw [htaken] at h
    exact Or.inl h

/-! ## Steps in the payload -/

/-- The payload of one operation was changed, and nothing else. -/
structure PayloadStep (op : String) (p p' : Payload) (s s' : Disk) : Prop where
  before : s.payload op = some p
  after : s'.payload op = some p'
  others : ∀ op', op' ≠ op → s'.payload op' = s.payload op'
  records : ∀ op r, s'.record op r = s.record op r
  cache : s'.cache = s.cache
  opened : s'.opened = s.opened
  history : s'.history = s.history

theorem inDir_ok {f : Dir → Except String Dir} (h : inDir op f s = .ok s') :
    ∃ d d', s.dirs op = some d ∧ f d = .ok d' ∧ s' = s.setDir op d' := by
  simp only [inDir, bind_ok, orFail_eq_ok, pure_ok] at h
  obtain ⟨d, hd, d', hf, rfl⟩ := h
  exact ⟨d, d', hd, hf, rfl⟩

theorem inPayload_ok {f : Payload → Except String Payload} (h : inPayload op f s = .ok s') :
    ∃ p p', f p = .ok p' ∧ PayloadStep op p p' s s' := by
  obtain ⟨d, d', hd, hf, rfl⟩ := inDir_ok h
  simp only [bind_ok, orFail_eq_ok, pure_ok] at hf
  obtain ⟨p, hp, p', hf, rfl⟩ := hf
  refine ⟨p, p', hf, ⟨?_, ?_, fun op' hop => ?_, fun op' r => ?_, rfl, rfl, rfl⟩⟩
  · rw [Disk.payload, hd, Option.bind_some, hp]
  · simp only [Disk.payload, Disk.setDir_dirs_self, Option.bind_some]
  · simp only [Disk.payload, Disk.setDir_dirs_of_ne hop]
  · by_cases hop : op' = op
    · subst hop
      simp only [Disk.record, Disk.setDir_dirs_self, Option.bind_some, hd]
    · simp only [Disk.record, Disk.setDir_dirs_of_ne hop]

/-- A change of a payload keeps what holds, if it keeps what is staged or has it elsewhere, keeps
    what is sealed, and every complete seal is verified. -/
theorem PayloadStep.sound (hs : PayloadStep op p p' s s') (h : Sound decompress s)
    (hstaged : ∀ id c, p.Staged id c →
      p'.Staged id c ∨ p'.Sealed decompress id c ∨ s.LinkedBack op id c)
    (hsealed : ∀ id c, p.Sealed decompress id c → p'.Sealed decompress id c)
    (hnew : ∀ id v, p'.seals id = some (.whole v) → p'.Sealed decompress id v.source) :
    Sound decompress s' where
  held op' row c ht := by
    rw [hs.history] at ht
    have hlinked : s.LinkedBack op' row.id c → s'.LinkedBack op' row.id c := by
      rintro ⟨row', hid, hr⟩
      exact ⟨row', hid, by rw [hs.history]; exact hr⟩
    by_cases hop : op' = op
    · subst hop
      rcases h.held op' row c ht with ⟨q, hq, hc⟩ | ⟨q, hq, hc⟩ | hc
      · obtain rfl := Option.some.inj (hs.before.symm.trans hq)
        rcases hstaged _ _ hc with hc | hc | hc
        · exact Or.inl ⟨p', hs.after, hc⟩
        · exact Or.inr (Or.inl ⟨p', hs.after, hc⟩)
        · exact Or.inr (Or.inr (hlinked hc))
      · obtain rfl := Option.some.inj (hs.before.symm.trans hq)
        exact Or.inr (Or.inl ⟨p', hs.after, hsealed _ _ hc⟩)
      · exact Or.inr (Or.inr (hlinked hc))
    · rcases h.held op' row c ht with ⟨q, hq, hc⟩ | ⟨q, hq, hc⟩ | hc
      · exact Or.inl ⟨q, (hs.others op' hop).trans hq, hc⟩
      · exact Or.inr (Or.inl ⟨q, (hs.others op' hop).trans hq, hc⟩)
      · exact Or.inr (Or.inr (hlinked hc))
  verified op' q id v hq hv := by
    by_cases hop : op' = op
    · subst hop
      obtain rfl := Option.some.inj (hs.after.symm.trans hq)
      exact hnew id v hv
    · exact h.verified op' q id v ((hs.others op' hop).symm.trans hq) hv
  once := hs.history ▸ h.once
  recorded t ht := by
    rw [hs.history] at ht
    rw [hs.records]
    exact h.recorded t ht
  acts := hs.history ▸ h.acts

theorem PayloadStep.within (hs : PayloadStep op p p' s s')
    (hstaged : ∀ id c, p.Staged id c →
      p'.Staged id c ∨ p.Sealed decompress id c ∨ s.LinkedBack op id c) : Within decompress s s' := by
  refine Within.of_cache hs.cache (congrArg History.restored hs.history) ?_
  rintro op' id c ⟨q, hq, hc⟩
  by_cases hop : op' = op
  · subst hop
    obtain rfl := Option.some.inj (hs.before.symm.trans hq)
    rcases hstaged id c hc with hc | hc | hc
    · exact Or.inl ⟨p', hs.after, hc⟩
    · exact Or.inr (Or.inl ⟨p, hs.before, hc⟩)
    · exact Or.inr (Or.inr hc)
  · exact Or.inl ⟨q, (hs.others op' hop).trans hq, hc⟩

/-! ## Other steps -/

theorem Disk.Staged.of_payload (hpayload : s'.payload op = s.payload op) (h : s.Staged op id c) :
    s'.Staged op id c := by
  obtain ⟨p, hp, hc⟩ := h
  exact ⟨p, hpayload.trans hp, hc⟩

theorem Disk.Sealed.of_payload (hpayload : s'.payload op = s.payload op)
    (h : s.Sealed decompress op id c) : s'.Sealed decompress op id c := by
  obtain ⟨p, hp, hc⟩ := h
  exact ⟨p, hpayload.trans hp, hc⟩

/-- A step that leaves all payloads alone, and loses no receipt. -/
theorem Sound.of_payload (h : Sound decompress s) (hpayload : ∀ op, s'.payload op = s.payload op)
    (hrecords : ∀ op r, (s.record op r).isSome = true → (s'.record op r).isSome = true)
    (htaken : s'.history.taken = s.history.taken)
    (hrestored : ∀ t ∈ s.history.restored, t ∈ s'.history.restored)
    (hbegun : s'.history.begun = s.history.begun) (hacts : ∀ t ∈ s'.history.acts, t ∈ s.history.begun) :
    Sound decompress s' where
  held op row c ht := by
    rw [htaken] at ht
    rcases h.held op row c ht with hc | hc | ⟨row', hid, hr⟩
    · exact Or.inl (hc.of_payload (hpayload op))
    · exact Or.inr (Or.inl (hc.of_payload (hpayload op)))
    · exact Or.inr (Or.inr ⟨row', hid, hrestored _ hr⟩)
  verified op p id v hp hv := h.verified op p id v ((hpayload op).symm.trans hp) hv
  once := hbegun ▸ h.once
  recorded t ht := by
    rw [hbegun] at ht
    exact hrecords _ _ (h.recorded t ht)
  acts t ht := by
    rw [hbegun]
    exact hacts t ht

/-- A step that changes neither a payload nor the cache nor what happened so far. -/
theorem Sound.quiet (h : Sound decompress s) (hpayload : ∀ op, s'.payload op = s.payload op)
    (hrecords : ∀ op r, (s.record op r).isSome = true → (s'.record op r).isSome = true)
    (hcache : s'.cache = s.cache) (htaken : s'.history.taken = s.history.taken)
    (hrestored : s'.history.restored = s.history.restored)
    (hbegun : s'.history.begun = s.history.begun) (hacts : s'.history.acts = s.history.acts) :
    Sound decompress s' ∧ Within decompress s s' := by
  refine ⟨h.of_payload hpayload hrecords htaken (fun t ht => hrestored ▸ ht) hbegun
    (fun t ht => h.acts t (hacts ▸ ht)), .of_cache hcache hrestored fun op id c hc => ?_⟩
  exact Or.inl (hc.of_payload (hpayload op))

/-- A receipt is created or completed. -/
theorem setRecord_ok {r : Record} {doc : Doc Report} {d : Dir} (hd : s.dirs op = some d)
    (hs : s' = s.setDir op (d.setRecord r doc)) :
    (∀ op, s'.payload op = s.payload op) ∧ s'.record op r = some doc ∧
      ∀ op r, (s.record op r).isSome = true → (s'.record op r).isSome = true := by
  subst hs
  refine ⟨fun op' => ?_, ?_, fun op' r' h => ?_⟩
  · by_cases hop : op' = op
    · subst hop
      simp only [Disk.payload, Disk.setDir_dirs_self, Option.bind_some, hd, Dir.setRecord_payload]
    · simp only [Disk.payload, Disk.setDir_dirs_of_ne hop]
  · simp only [Disk.record, Disk.setDir_dirs_self, Option.bind_some, Dir.setRecord_self]
  · by_cases hop : op' = op
    · subst hop
      simp only [Disk.record, Disk.setDir_dirs_self, Option.bind_some, hd] at h ⊢
      by_cases hr : r' = r
      · subst hr
        rw [Dir.setRecord_self]; rfl
      · rw [Dir.setRecord_of_ne hr]
        exact h
    · simpa only [Disk.record, Disk.setDir_dirs_of_ne hop] using h

theorem createRecord_ok {r : Record} (h : createRecord op r s = .ok s') :
    s.record op r = none ∧ ∃ d, s.dirs op = some d ∧ s' = s.setDir op (d.setRecord r .torn) := by
  obtain ⟨d, d', hd, hf, hs⟩ := inDir_ok h
  simp only [bind_ok, need_eq_ok, exists_unit, pure_ok] at hf
  obtain ⟨hnone, rfl⟩ := hf
  refine ⟨?_, d, hd, hs⟩
  rw [Disk.record, hd, Option.bind_some]
  exact Option.isNone_iff_eq_none.1 hnone

theorem createRecord_sound {r : Record} (h : Sound decompress s) (hs : createRecord op r s = .ok s') :
    Sound decompress s' ∧ Within decompress s s' := by
  obtain ⟨-, d, hd, hs⟩ := createRecord_ok hs
  obtain ⟨hpayload, -, hrecords⟩ := setRecord_ok hd hs
  exact h.quiet hpayload hrecords (by rw [hs]; rfl) (by rw [hs]; rfl) (by rw [hs]; rfl) (by rw [hs]; rfl) (by rw [hs]; rfl)

theorem fillRecord_sound {r : Record} {report : Report} (h : Sound decompress s)
    (hs : fillRecord op r report s = .ok s') : (Sound decompress s' ∧ Within decompress s s') ∧
      (∀ op, s'.payload op = s.payload op) ∧ s'.history = s.history := by
  obtain ⟨d, d', hd, hf, hs⟩ := inDir_ok hs
  obtain rfl := pure_ok.1 hf
  obtain ⟨hpayload, -, hrecords⟩ := setRecord_ok hd hs
  refine ⟨h.quiet hpayload hrecords ?_ ?_ ?_ ?_ ?_, hpayload, ?_⟩ <;> rw [hs] <;> rfl

/-- The present run began a phase of an operation. -/
def Disk.Began (s : Disk) (op : String) (phase : Phase) : Prop :=
  (op, phase, s.history.session) ∈ s.history.begun

theorem createIntent_sound {phase : Phase} (h : Sound decompress s)
    (hs : createIntent op phase s = .ok s') :
    (Sound decompress s' ∧ Within decompress s s') ∧ s'.Began op phase ∧
      ∀ op, s'.payload op = s.payload op := by
  simp only [createIntent, bind_ok, pure_ok] at hs
  obtain ⟨s₁, hs₁, rfl⟩ := hs
  obtain ⟨hnone, d, hd, hs₁⟩ := createRecord_ok hs₁
  obtain ⟨hpayload, hset, hrecords⟩ := setRecord_ok hd hs₁
  have hhistory : s₁.history = s.history := by rw [hs₁]; rfl
  have hbegun : ∀ t, t ∈ s₁.history.begun ++ [(op, phase, s₁.history.session)] ↔
      t ∈ s.history.begun ∨ t = (op, phase, s.history.session) := by
    intro t
    rw [hhistory, mem_concat]
  refine ⟨⟨⟨?_, ?_, ?_, ?_, ?_⟩, .of_cache (by rw [hs₁]; rfl) (by rw [hhistory]) ?_⟩, ?_, hpayload⟩
  · intro op' row c ht
    rw [show s₁.history.taken = s.history.taken by rw [hhistory]] at ht
    rcases h.held op' row c ht with hc | hc | ⟨row', hid, hr⟩
    · exact Or.inl (hc.of_payload (hpayload op'))
    · exact Or.inr (Or.inl (hc.of_payload (hpayload op')))
    · exact Or.inr (Or.inr ⟨row', hid, by rw [hhistory]; exact hr⟩)
  · exact fun op' p id v hp hv => h.verified op' p id v ((hpayload op').symm.trans hp) hv
  · -- the receipt did not exist, so the phase had not been begun
    rw [hhistory]
    refine nodup_keys_append h.once fun t ht hkey => ?_
    obtain ⟨hop, hphase⟩ := Prod.mk.inj hkey
    have := h.recorded t ht
    rw [hop, hphase, hnone] at this
    cases this
  · intro t ht
    rcases (hbegun t).1 ht with ht | rfl
    · exact hrecords _ _ (h.recorded t ht)
    · show (s₁.record op phase.intent).isSome = true
      rw [hset]; rfl
  · intro t ht
    refine (hbegun t).2 (Or.inl (h.acts t ?_))
    rw [← hhistory]
    exact ht
  · exact fun op' id c hc => Or.inl (hc.of_payload (hpayload op'))
  · exact (hbegun _).2 (Or.inr (by rw [hhistory]))

theorem makePayload_sound (h : Sound decompress s) (hs : makePayload op s = .ok s') :
    (Sound decompress s' ∧ Within decompress s s') ∧ s'.payload op = some {} := by
  obtain ⟨d, d', hd, hf, rfl⟩ := inDir_ok hs
  simp only [bind_ok, need_eq_ok, exists_unit, pure_ok] at hf
  obtain ⟨hnone, rfl⟩ := hf
  have hself : s.payload op = none := by
    rw [Disk.payload, hd, Option.bind_some]
    exact Option.isNone_iff_eq_none.1 hnone
  have hothers : ∀ op', op' ≠ op → Disk.payload (s.setDir op { d with payload := some {} }) op' = s.payload op' := by
    intro op' hop
    simp only [Disk.payload, Disk.setDir_dirs_of_ne hop]
  -- there was nothing in the payload before
  have hne : ∀ op' p, s.payload op' = some p → op' ≠ op := by
    rintro op' p hp rfl
    rw [hself] at hp
    cases hp
  have hrecord : ∀ op' r, Disk.record (s.setDir op { d with payload := some {} }) op' r = s.record op' r := by
    intro op' r
    by_cases hop : op' = op
    · subst hop
      simp only [Disk.record, Disk.setDir_dirs_self, Option.bind_some, hd]
    · simp only [Disk.record, Disk.setDir_dirs_of_ne hop]
  refine ⟨⟨⟨?_, ?_, h.once, fun t ht => ?_, h.acts⟩, .of_cache rfl rfl ?_⟩, ?_⟩
  · intro op' row c ht
    rcases h.held op' row c ht with ⟨p, hp, hc⟩ | ⟨p, hp, hc⟩ | hc
    · exact Or.inl ⟨p, (hothers op' (hne op' p hp)).trans hp, hc⟩
    · exact Or.inr (Or.inl ⟨p, (hothers op' (hne op' p hp)).trans hp, hc⟩)
    · exact Or.inr (Or.inr hc)
  · intro op' p id v hp hv
    by_cases hop : op' = op
    · subst hop
      simp only [Disk.payload, Disk.setDir_dirs_self, Option.bind_some, Option.some.injEq] at hp
      subst hp
      cases hv
    · exact h.verified op' p id v ((hothers op' hop).symm.trans hp) hv
  · rw [hrecord]
    exact h.recorded t ht
  · rintro op' id c ⟨p, hp, hc⟩
    exact Or.inl ⟨p, (hothers op' (hne op' p hp)).trans hp, hc⟩
  · simp only [Disk.payload, Disk.setDir_dirs_self, Option.bind_some]

/-- A step is remembered as one of the phase that the present run began. -/
theorem acting_sound {phase : Phase} {f : FileStep} (hbegan : s.Began op phase)
    (hs : acting op phase f s = .ok s') : ∃ s₁, f s = .ok s₁ ∧
      s' = s₁.remember op phase ∧
      (s₁.history.begun = s.history.begun → s₁.history.session = s.history.session →
        Sound decompress s₁ ∧ Within decompress s s₁ → Sound decompress s' ∧ Within decompress s s') := by
  simp only [acting, bind_ok, pure_ok] at hs
  obtain ⟨s₁, hf, rfl⟩ := hs
  refine ⟨s₁, hf, rfl, ?_⟩
  rintro hbegun hsession ⟨hsound, hwithin⟩
  refine ⟨⟨hsound.held, hsound.verified, hsound.once, hsound.recorded, fun t ht => ?_⟩,
    ⟨hwithin.staged, hwithin.entries, hwithin.removed, hwithin.restored⟩⟩
  rcases mem_concat.1 ht with ht | rfl
  · exact hsound.acts t ht
  · show (op, phase, s₁.history.session) ∈ s₁.history.begun
    rw [hbegun, hsession]
    exact hbegan

/-! ## Steps in a cache directory -/

section
variable {place : String × String} {f : File}

theorem Disk.entry_without_self : (s.without place).entry place = none := by
  rw [Disk.entry, Disk.without, lookup_remove_self]; rfl

theorem Disk.entry_without_ne {place' : String × String} (h : place' ≠ place) :
    (s.without place).entry place' = s.entry place' := by
  rw [Disk.entry, Disk.without, lookup_remove_ne h]; rfl

theorem linkTo_ok (h : linkTo place f s = .ok s') :
    s.entry place = none ∧ s'.entry place = some f ∧
      (∀ place', place' ≠ place → s'.entry place' = s.entry place') ∧
      s' = { s with cache := s.cache ++ [⟨place.1, place.2, f⟩] } := by
  simp only [linkTo, bind_ok, need_eq_ok, exists_unit, pure_ok] at h
  obtain ⟨hnone, rfl⟩ := h
  rw [Option.isNone_iff_eq_none] at hnone
  have hlookup : lookup Entry.place place s.cache = none := Option.map_eq_none_iff.1 hnone
  refine ⟨hnone, ?_, fun place' hne => ?_, rfl⟩
  · have hself := lookup_concat_self (r := (⟨place.1, place.2, f⟩ : Entry)) hlookup
    exact congrArg (Option.map Entry.file) hself
  · have hother : lookup Entry.place place' (s.cache ++ [⟨place.1, place.2, f⟩]) =
        lookup Entry.place place' s.cache := lookup_concat_ne hne
    exact congrArg (Option.map Entry.file) hother

/-- A file gets a name that was free. -/
theorem Within.of_link (hfree : s.entry place = none)
    (hothers : ∀ place', place' ≠ place → s'.entry place' = s.entry place')
    (hself : s'.entry place = some f) (hpayload : ∀ op, s'.payload op = s.payload op)
    (hrestored : ∀ op row c, (op, row, c) ∈ s'.history.restored →
      (op, row, c) ∈ s.history.restored ∨ (place.2 = row.name ∧ c = f.content)) :
    Within decompress s s' where
  staged op id c hc := Or.inl (hc.of_payload (hpayload op))
  entries place' g g' hg hg' := by
    by_cases hplace : place' = place
    · rw [hplace, hfree] at hg
      cases hg
    · rw [hothers place' hplace, hg] at hg'
      rw [Option.some.inj hg']
  removed scope name g hg hg' := by
    by_cases hplace : (scope, name) = place
    · rw [hplace, hfree] at hg
      cases hg
    · rw [hothers _ hplace, hg] at hg'
      cases hg'
  restored op row c h := by
    refine (hrestored op row c h).imp_right ?_
    rintro ⟨hname, rfl⟩
    refine ⟨place.1, f, ?_, ?_, rfl⟩
    · rw [← hname]; exact hfree
    · rw [← hname]; exact hself

/-- What the files of the operations are does not depend on the cache. -/
theorem Sound.cache {cache : List Entry} (h : Sound decompress s) :
    Sound decompress { s with cache := cache } := ⟨h.held, h.verified, h.once, h.recorded, h.acts⟩

theorem linkTo_sound (h : Sound decompress s) (hs : linkTo place f s = .ok s') :
    Sound decompress s' ∧ Within decompress s s' := by
  obtain ⟨hfree, hself, hothers, hs'⟩ := linkTo_ok hs
  have hhistory : s'.history = s.history := by rw [hs']
  have hdirs : s'.dirs = s.dirs := by rw [hs']
  refine ⟨hs' ▸ h.cache, .of_link hfree hothers hself (fun op => ?_) fun op row c hr => ?_⟩
  · rw [Disk.payload, Disk.payload, hdirs]
  · rw [hhistory] at hr
    exact Or.inl hr

theorem linkTemp_sound {scope : String} {row : Item} (h : Sound decompress s)
    (hs : linkTemp scope row s = .ok s') : Sound decompress s' ∧ Within decompress s s' := by
  simp only [linkTemp, bind_ok, orFail_eq_ok] at hs
  obtain ⟨f, -, hs⟩ := hs
  exact linkTo_sound h hs

theorem unlinkTemp_sound {scope : String} {row : Item} (h : Sound decompress s)
    (hs : unlinkTemp scope row s = .ok s') : Sound decompress s' ∧ Within decompress s s' := by
  simp only [unlinkTemp, bind_ok, need_eq_ok, exists_unit, pure_ok] at hs
  obtain ⟨-, rfl⟩ := hs
  refine ⟨h.cache, fun op id c hc => Or.inl hc, fun place g g' hg hg' => ?_, fun scope' name g hg hg' => ?_,
    fun op row c hr => Or.inl hr⟩
  · by_cases hplace : place = (scope, row.temp)
    · rw [hplace, Disk.entry_without_self] at hg'
      cases hg'
    · rw [Disk.entry_without_ne hplace, hg] at hg'
      rw [Option.some.inj hg']
  · by_cases hplace : (scope', name) = (scope, row.temp)
    · exact Or.inr ⟨row, (Prod.mk.inj hplace).2⟩
    · rw [Disk.entry_without_ne hplace, hg] at hg'
      cases hg'

theorem changeFile_sound {key : Key} {change : File → File} (h : Sound decompress s)
    (hs : changeFile key change s = .ok s') (hkey : ∀ f, (change f).key = f.key) :
    Sound decompress s' ∧ Within decompress s s' := by
  obtain rfl := pure_ok.1 hs
  have hentry : ∀ place, Disk.entry { s with cache := s.cache.map fun e =>
      if e.file.key = key then { e with file := change e.file } else e } place =
        (s.entry place).map fun f => if f.key = key then change f else f := by
    intro place
    rw [Disk.entry, Disk.entry, lookup_map]
    · cases lookup Entry.place place s.cache with
      | none => rfl
      | some e =>
        simp only [Option.map_some]
        split_ifs <;> rfl
    · intro e
      split_ifs <;> rfl
  refine ⟨h.cache, fun op id c hc => Or.inl hc, fun place f f' hf hf' => ?_, fun scope name f hf hf' => ?_,
    fun op row c hr => Or.inl hr⟩
  · rw [hentry, hf, Option.map_some, Option.some.injEq] at hf'
    rw [← hf']
    split_ifs
    · exact hkey f
    · rfl
  · rw [hentry, hf] at hf'
    cases hf'

/-! ## Files that are taken and linked back -/

/-- The staged file of an operation. -/
theorem linkOriginal_sound {scope : String} {row : Item} (h : Sound decompress s)
    (hs : linkOriginal op scope row s = .ok s') :
    (Sound decompress s' ∧ Within decompress s s') ∧
      (∀ f, s.original op row.id = some f → s'.LinkedBack op row.id f.content) ∧
      (∀ op, s'.payload op = s.payload op) ∧ s'.history.begun = s.history.begun ∧
      s'.history.session = s.history.session := by
  simp only [linkOriginal, bind_ok, orFail_eq_ok, pure_ok] at hs
  obtain ⟨f, hf, s₁, hlink, rfl⟩ := hs
  obtain ⟨hfree, hself, hothers, rfl⟩ := linkTo_ok hlink
  refine ⟨⟨?_, .of_link hfree hothers hself (fun _ => rfl) fun op' row' c hr => ?_⟩, fun g hg => ?_,
    fun _ => rfl, rfl, rfl⟩
  · exact h.of_payload (fun _ => rfl) (fun _ _ => id) rfl (fun t ht => List.mem_append_left _ ht) rfl h.acts
  · rcases mem_concat.1 hr with hr | hr
    · exact Or.inl hr
    · obtain ⟨rfl, rfl, rfl⟩ := by simpa only [Prod.mk.injEq] using hr
      exact Or.inr ⟨rfl, rfl⟩
  · obtain rfl := Option.some.inj (hf.symm.trans hg)
    exact ⟨row, rfl, List.mem_append_right _ (List.mem_singleton_self _)⟩

theorem Payload.stage_self (f : Option File) : (p.stage id f).originals id = f := by
  simp [Payload.stage]

theorem Payload.stage_ne {id' : String} (f : Option File) (h : id' ≠ id) :
    (p.stage id f).originals id' = p.originals id' := by
  simp [Payload.stage, h]

/-- Staging a file where there was none keeps the other staged files. -/
theorem Payload.Staged.stage {f : Option File} {id' : String} (h : p.Staged id' c)
    (hclear : p.originals id = none) : (p.stage id f).Staged id' c := by
  obtain ⟨g, hg, rfl⟩ := h
  have hid : id' ≠ id := by
    rintro rfl
    rw [hclear] at hg
    cases hg
  exact ⟨g, (Payload.stage_ne f hid).trans hg, rfl⟩

/-- A candidate is staged, where nothing else was. -/
theorem renameIn_sound {scope : String} {row : Item} {now : ℤ} (h : Sound decompress s)
    (hs : renameIn op scope row now s = .ok s') (hp : s.payload op = some p)
    (hclear : p.originals row.id = none) :
    (Sound decompress s' ∧ Within decompress s s') ∧ ∃ f, s.entry (scope, row.name) = some f ∧
      s'.payload op = some (p.stage row.id (some (f.touched now))) ∧
      s'.history.begun = s.history.begun ∧ s'.history.session = s.history.session := by
  simp only [renameIn, bind_ok, orFail_eq_ok, pure_ok] at hs
  obtain ⟨f, hf, s₁, hstage, rfl⟩ := hs
  obtain ⟨q, p', hq, hstep⟩ := inPayload_ok hstage
  obtain rfl := pure_ok.1 hq
  obtain rfl := Option.some.inj (hp.symm.trans hstep.before)
  have hsound := hstep.sound h (fun id c hc => Or.inl (hc.stage hclear)) (fun _ _ hc => hc)
    (fun id v hv => h.verified op p id v hp hv)
  have hwithin : Within decompress s s₁ := hstep.within fun id c hc => Or.inl (hc.stage hclear)
  have hnew : (p.stage row.id (some (f.touched now))).Staged row.id f.content :=
    ⟨f.touched now, Payload.stage_self _, rfl⟩
  have hentry : ∀ place, place ≠ (scope, row.name) →
      ((s₁.without (scope, row.name)).took op row f.content).entry place = s.entry place := by
    intro place hplace
    have hcache : s₁.entry place = s.entry place := by rw [Disk.entry, Disk.entry, hstep.cache]
    exact (Disk.entry_without_ne hplace).trans hcache
  refine ⟨⟨⟨?_, hsound.verified, hsound.once, hsound.recorded, hsound.acts⟩,
    hwithin.staged, ?_, ?_, ?_⟩, f, hf, hstep.after, ?_, ?_⟩
  · intro op' row' c ht
    rcases mem_concat.1 ht with ht | ht
    · exact hsound.held op' row' c ht
    · obtain ⟨rfl, rfl, rfl⟩ := by simpa only [Prod.mk.injEq] using ht
      exact Or.inl ⟨_, hstep.after, hnew⟩
  · intro place g g' hg hg'
    by_cases hplace : place = (scope, row.name)
    · subst hplace
      have hgone : ((s₁.without (scope, row.name)).took op row f.content).entry (scope, row.name) = none :=
        Disk.entry_without_self
      rw [hgone] at hg'
      cases hg'
    · rw [hentry place hplace, hg] at hg'
      rw [Option.some.inj hg']
  · intro scope' name g hg hg'
    by_cases hplace : (scope', name) = (scope, row.name)
    · rw [hplace, hf] at hg
      obtain rfl := Option.some.inj hg
      refine Or.inl ⟨op, row, (Prod.mk.inj hplace).2.symm, ?_⟩
      exact congrArg (· ++ [(op, row, f.content)]) (congrArg History.taken hstep.history)
    · rw [hentry _ hplace, hg] at hg'
      cases hg'
  · intro op' row' c hr
    exact Or.inl (hstep.history ▸ hr)
  · show s₁.history.begun = s.history.begun
    rw [hstep.history]
  · show s₁.history.session = s.history.session
    rw [hstep.history]

/-- A staged file is unlinked whose content is kept elsewhere. -/
theorem unlinkOriginal_sound (h : Sound decompress s) (hs : unlinkOriginal op id s = .ok s')
    (hp : s.payload op = some p)
    (hkept : ∀ c, p.Staged id c → p.Sealed decompress id c ∨ s.LinkedBack op id c) :
    (Sound decompress s' ∧ Within decompress s s') ∧ s'.payload op = some (p.stage id none) ∧
      s'.history = s.history := by
  obtain ⟨q, p', hq, hstep⟩ := inPayload_ok hs
  simp only [Payload.unlink, bind_ok, need_eq_ok, exists_unit, pure_ok] at hq
  obtain ⟨-, rfl⟩ := hq
  obtain rfl := Option.some.inj (hp.symm.trans hstep.before)
  have hstaged : ∀ id' c, p.Staged id' c →
      (p.stage id none).Staged id' c ∨ p.Sealed decompress id' c ∨ s.LinkedBack op id' c := by
    intro id' c hc
    by_cases hid : id' = id
    · subst hid
      exact Or.inr (hkept c hc)
    · obtain ⟨f, hf, hfc⟩ := hc
      exact Or.inl ⟨f, (Payload.stage_ne none hid).trans hf, hfc⟩
  refine ⟨⟨hstep.sound h hstaged (fun _ _ hc => hc) (fun id' v hv => h.verified op p id' v hp hv),
    hstep.within hstaged⟩, hstep.after, hstep.history⟩

end

end

end SmartHome.StorageMaintenance
