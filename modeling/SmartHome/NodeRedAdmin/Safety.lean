/-
  Deploys happen at most once and never on top of doubt: whatever the transport and the
  coordination answer and wherever a request stops.
-/
import Mathlib.Logic.Relation
import SmartHome.Lib.Budget
import SmartHome.Lib.Machine
import SmartHome.NodeRedAdmin.Engine

namespace SmartHome.NodeRedAdmin

open Verif Program
open SmartHome.Mqtt (isHex)

/-! ## What a run did -/

/-- A deploy that was requested. -/
structure Deploy where
  site : Site
  rev : String
  flows : List Json

def deployed (call : Site × Request) : Option Deploy :=
  match call.2 with
  | .deploy rev flows => some ⟨call.1, rev, flows⟩
  | _ => none

abbrev AdminWorld := World Site Request

/-- The deploys of a run so far. -/
def deploys (w : AdminWorld) : List Deploy := w.calls.filterMap deployed

/-- The intent of a folder that has no receipt. -/
def Folder.open? (f : Folder) : Option Intent := if f.receipt = .absent then f.intent.value? else none

/-- The intent that a deploy was requested for. -/
def Deploy.intent? (d : Deploy) : Option Intent := d.site.journal.findSome? Folder.open?

/-- There is no doubt about an operation: it has no intent, or a receipt that is not uncertain. -/
def Folder.Settled (f : Folder) : Prop :=
  f.intent = .absent ∨ ∃ r, f.receipt.value? = some r ∧ r.state ≠ .uncertain

/-- The intents of a journal. -/
def intents (journal : List Folder) : List Intent := journal.flatMap fun f => f.intent.value?.toList

/-- What a file holds stays. -/
def File.Grows {α : Type} (a b : File α) : Prop := ∀ v, a.value? = some v → b.value? = some v

/-- What the files of a folder hold stays. -/
structure Folder.Grows (f f' : Folder) : Prop where
  id : f'.id = f.id
  plan : f.plan.Grows f'.plan
  validation : f.validation.Grows f'.validation
  intent : f.intent.Grows f'.intent
  receipt : f.receipt.Grows f'.receipt

/-- What the files of a journal hold stays. -/
def Grows (j j' : List Folder) : Prop := ∀ f ∈ j, ∃ f' ∈ j', f.Grows f'

/-- Only time has passed. -/
structure Waits (s s' : Site) : Prop where
  journal : s'.journal = s.journal
  time : s.time ≤ s'.time
  events : s'.events = s.events

/-- The journal is as it was. -/
structure Quiet (s s' : Site) : Prop where
  journal : s'.journal = s.journal
  time : s.time ≤ s'.time
  events : s.events <:+ s'.events

/-- From now on a deploy keeps the budget and the spacing. -/
def Site.Clear (s : Site) : Prop := ∀ t, s.time ≤ t →
  (∀ i ∈ intents s.journal, 60 ≤ t - i.attemptedAt) ∧
    ((intents s.journal).map Intent.attemptedAt).countP (fun a => t - 86400 ≤ a ∧ a ≤ t) < 4

section
variable [Canonical Json] [Canonical Plan]

/-- A deploy is the one of a registered and validated plan whose intent is durable, the
    configuration fetched last is the one that the plan starts from, and there is no doubt about
    any other operation. -/
structure Deploy.Of (d : Deploy) (f : Folder) (i : Intent) : Prop where
  folder : f ∈ d.site.journal
  intent : f.intent = .stored i
  receipt : f.receipt = .absent
  open_ : d.intent? = some i
  id : i.operationId = f.id
  others : ∀ g ∈ d.site.journal, g ≠ f → g.Settled
  plan : ∃ plan, f.plan.value? = some plan ∧ plan.operationId = f.id ∧ i.planSha256 = digest plan ∧
    (∃ v, f.validation.value? = some v ∧ v.planSha256 = digest plan) ∧
    d.rev = plan.beforeRevision ∧ d.flows = plan.afterFlows ∧
    ∃ c, d.site.events.head? = some (.fetched c) ∧ c.rev = plan.beforeRevision ∧
      flowsDigest c.flows = plan.beforeSha256

/-- The configuration after the deploy of an operation was read back, as the receipt says. -/
def ReadBack (events : List Event) (ds : List Deploy) (f : Folder) (r : Receipt) : Prop :=
  (∃ plan, f.plan.value? = some plan ∧ r.afterSha256 = plan.afterSha256) ∧
    ∃ d ∈ ds, ∃ i, d.intent? = some i ∧ i.operationId = f.id ∧
      ∃ c, .fetched c :: d.site.events <:+ events ∧ some c.rev = r.afterRevision ∧
        flowsDigest c.flows = r.afterSha256

/-- What holds of a site and the deploys so far between any two steps. -/
structure Kept (s : Site) (ds : List Deploy) : Prop where
  ids : (s.journal.map Folder.id).Nodup
  own : ∀ f ∈ s.journal, ∀ i, f.intent.value? = some i → i.operationId = f.id
  paced : Paced 60 86400 4 ((intents s.journal).map Intent.attemptedAt)
  past : ∀ i ∈ intents s.journal, i.attemptedAt ≤ s.time
  of : ∀ d ∈ ds, ∃ f i, d.Of f i
  once : ((ds.filterMap Deploy.intent?).map Intent.operationId).Nodup
  recorded : ∀ i ∈ ds.filterMap Deploy.intent?, i ∈ intents s.journal
  readBack : ∀ f ∈ s.journal, ∀ r, f.receipt.value? = some r → r.state = .applied →
    ReadBack s.events ds f r

end

/-! ## Files and folders -/

theorem File.Grows.refl {α : Type} (a : File α) : a.Grows a := fun _ h => h

theorem File.Grows.trans {α : Type} {a b c : File α} (h : a.Grows b) (h' : b.Grows c) : a.Grows c :=
  fun v hv => h' v (h v hv)

/-- A file without a value grows into any other. -/
theorem File.Grows.of_none {α : Type} {a b : File α} (h : a.value? = none) : a.Grows b := by
  intro v hv
  rw [h] at hv
  cases hv

theorem Folder.Grows.refl (f : Folder) : f.Grows f := ⟨rfl, .refl _, .refl _, .refl _, .refl _⟩

theorem Folder.Grows.trans {f g h : Folder} (a : f.Grows g) (b : g.Grows h) : f.Grows h :=
  ⟨b.id.trans a.id, a.plan.trans b.plan, a.validation.trans b.validation, a.intent.trans b.intent,
    a.receipt.trans b.receipt⟩

theorem Grows.refl (j : List Folder) : Grows j j := fun f hf => ⟨f, hf, .refl f⟩

theorem Grows.trans {j j' j'' : List Folder} (h : Grows j j') (h' : Grows j' j'') : Grows j j'' := by
  intro f hf
  obtain ⟨g, hg, hfg⟩ := h f hf
  obtain ⟨g', hg', hgg'⟩ := h' g hg
  exact ⟨g', hg', hfg.trans hgg'⟩

theorem mem_intents {j : List Folder} {i : Intent} :
    i ∈ intents j ↔ ∃ f ∈ j, f.intent.value? = some i := by
  simp [intents]

theorem Waits.refl (s : Site) : Waits s s := ⟨rfl, le_rfl, rfl⟩

theorem Waits.trans {a b c : Site} (h : Waits a b) (h' : Waits b c) : Waits a c :=
  ⟨h'.journal.trans h.journal, h.time.trans h'.time, h'.events.trans h.events⟩

theorem Waits.quiet {s s' : Site} (h : Waits s s') : Quiet s s' :=
  ⟨h.journal, h.time, h.events ▸ List.suffix_rfl⟩

theorem Quiet.refl (s : Site) : Quiet s s := (Waits.refl s).quiet

theorem Quiet.trans {a b c : Site} (h : Quiet a b) (h' : Quiet b c) : Quiet a c :=
  ⟨h'.journal.trans h.journal, h.time.trans h'.time, h.events.trans h'.events⟩

theorem quiet_event (s : Site) (e : Event) : Quiet s { s with events := e :: s.events } :=
  ⟨rfl, le_rfl, List.suffix_cons _ _⟩

theorem Site.Clear.waits {s s' : Site} (h : s.Clear) (hw : Waits s s') : s'.Clear := by
  intro t ht
  rw [hw.journal]
  exact h t (hw.time.trans ht)

/-- A settled operation has no open intent. -/
theorem Folder.Settled.not_open {f : Folder} (h : f.Settled) : f.open? = none := by
  unfold Folder.open?
  obtain hi | ⟨r, hr, -⟩ := h
  · rw [hi]; split_ifs <;> rfl
  · rw [if_neg]
    rintro ha
    rw [ha] at hr
    cases hr

/-! ## Reading the journal -/

theorem File.read_ok {α : Type} {a : File α} {v : Option α} (h : a.read = .ok v) : a.value? = v := by
  cases a with
  | torn => cases h
  | _ => exact Except.ok.inj h

/-- A file that can be read and has no value is not there. -/
theorem File.absent_of_read {α : Type} {a : File α} (h : a.read = .ok none) : a = .absent := by
  cases a with
  | absent => rfl
  | torn => cases h
  | written v => cases Except.ok.inj h
  | stored v => cases Except.ok.inj h

theorem uncertainOperations_nil {j : List Folder} (h : uncertainOperations j = .ok []) :
    ∀ f ∈ j, f.Settled := by
  induction j with
  | nil => intro f hf; cases hf
  | cons f j ih =>
    simp only [uncertainOperations, bind_ok, need_eq_ok, exists_unit] at h
    obtain ⟨-, intent, hintent, receipt, hreceipt, result, hresult, hrest⟩ := h
    by_cases hopen : intent ≠ none ∧ ∀ r ∈ receipt, r.state = .uncertain
    · rw [if_pos hopen] at hrest
      cases Except.ok.inj hrest
    · rw [if_neg hopen] at hrest
      obtain rfl := Except.ok.inj hrest
      rw [List.forall_mem_cons]
      refine ⟨?_, ih hresult⟩
      by_cases hi : intent = none
      · subst hi
        exact Or.inl (File.absent_of_read hintent)
      · have hr : ¬ ∀ r ∈ receipt, r.state = .uncertain := fun hr => hopen ⟨hi, hr⟩
        push Not at hr
        obtain ⟨r, hr, hstate⟩ := hr
        exact Or.inr ⟨r, (File.read_ok hreceipt).trans hr, hstate⟩

theorem attempts_ok {since : ℚ} {j : List Folder} {rows : List Intent}
    (h : attempts since j = .ok rows) : rows = (intents j).filter fun i => since ≤ i.attemptedAt := by
  induction j generalizing rows with
  | nil => exact (Except.ok.inj h).symm
  | cons f j ih =>
    simp only [attempts, bind_ok, pure_ok] at h
    obtain ⟨intent, hintent, rest, hrest, rfl⟩ := h
    rw [intents, List.flatMap_cons, List.filter_append, File.read_ok hintent, ih hrest]
    cases intent with
    | none => rfl
    | some i =>
      by_cases hi : since ≤ i.attemptedAt
      · simp [Option.filter, hi, intents]
      · simp [Option.filter, hi, intents]

/-! ## Files that are put -/

section
variable {α : Type} {slot : Slot α} {id : String} {s s' : Site}

theorem Site.put_put {a b : File α} : (s.put slot id a).put slot id b = s.put slot id b := by
  have hset : slot.set b ∘ slot.set a = slot.set b := funext fun f => slot.set_set b a f
  simp only [Site.put, amend_amend (slot.set_id a), hset]

theorem Site.create_ok (h : s.create slot id = .ok s') :
    s' = s.put slot id .torn ∧ ∃ f ∈ s.journal, f.id = id ∧ slot.get f = .absent := by
  simp only [Site.create, bind_ok, need_eq_ok, exists_unit] at h
  obtain ⟨⟨f₀, hf₀, hid₀⟩, h⟩ := h
  cases hl : lookup Folder.id id s.journal with
  | none => exact absurd hid₀ (lookup_eq_none.1 hl f₀ hf₀)
  | some f =>
    obtain ⟨hf, hid⟩ := lookup_eq_some hl
    have hfile : fileOf slot id s.journal = slot.get f := by simp [fileOf, hl]
    rw [hfile] at h
    cases hget : slot.get f with
    | absent => rw [hget] at h; exact ⟨(Except.ok.inj h).symm, f, hf, hid, hget⟩
    | _ => rw [hget] at h; cases h

/-- The file of the one folder with an identifier. -/
theorem fileOf_eq {j : List Folder} (hn : (j.map Folder.id).Nodup) {f : Folder} (hf : f ∈ j) :
    fileOf slot f.id j = slot.get f := by
  have : lookup Folder.id f.id j = some f := (lookup_eq_some_iff hn).2 ⟨hf, rfl⟩
  simp [fileOf, this]

theorem exists_of_fileOf {j : List Folder} {v : α} (h : (fileOf slot id j).value? = some v) :
    ∃ f ∈ j, f.id = id ∧ (slot.get f).value? = some v := by
  cases hl : lookup Folder.id id j with
  | none => simp [fileOf, hl, File.value?] at h
  | some f =>
    obtain ⟨hf, hid⟩ := lookup_eq_some hl
    exact ⟨f, hf, hid, by simpa [fileOf, hl] using h⟩

end

theorem grows_amend {j : List Folder} {id : String} {change : Folder → Folder}
    (h : ∀ f ∈ j, f.id = id → f.Grows (change f)) : Grows j (amend Folder.id id change j) := by
  intro f hf
  by_cases hid : f.id = id
  · exact ⟨change f, mem_amend.2 (Or.inr ⟨f, hf, hid, rfl⟩), h f hf hid⟩
  · exact ⟨f, mem_amend.2 (Or.inl ⟨hf, hid⟩), .refl f⟩

theorem Grows.mem_intents {j j' : List Folder} (h : Grows j j') {i : Intent} (hi : i ∈ intents j) :
    i ∈ intents j' := by
  obtain ⟨f, hf, hfi⟩ := NodeRedAdmin.mem_intents.1 hi
  obtain ⟨f', hf', hff⟩ := h f hf
  exact NodeRedAdmin.mem_intents.2 ⟨f', hf', hff.intent i hfi⟩

/-! ## The invariant -/

section
variable [Canonical Json] [Canonical Plan] {s s' : Site} {ds : List Deploy}

omit [Canonical Plan] in
theorem ReadBack.mono {events events' : List Event} {ds ds' : List Deploy} {f f' : Folder} {r : Receipt}
    (h : ReadBack events ds f r) (he : events <:+ events') (hds : ds ⊆ ds') (hf : f.Grows f') :
    ReadBack events' ds' f' r := by
  obtain ⟨⟨plan, hplan, hafter⟩, d, hd, i, hi, hid, c, hc, hrest⟩ := h
  exact ⟨⟨plan, hf.plan plan hplan, hafter⟩, d, hds hd, i, hi, hid.trans hf.id.symm, c,
    hc.trans he, hrest⟩

theorem Kept.quiet (h : Kept s ds) (hq : Quiet s s') : Kept s' ds := by
  obtain ⟨hj, ht, he⟩ := hq
  refine ⟨?_, ?_, ?_, ?_, h.of, h.once, ?_, ?_⟩
  all_goals rw [hj]
  · exact h.ids
  · exact h.own
  · exact h.paced
  · exact fun i hi => (h.past i hi).trans ht
  · exact h.recorded
  · exact fun f hf r hr ha => (h.readBack f hf r hr ha).mono he (List.Subset.refl _) (.refl f)

/-- A change of one folder. -/
theorem Kept.change (h : Kept s ds) {id : String} {change : Folder → Folder}
    (hgrows : ∀ f ∈ s.journal, f.id = id → f.Grows (change f))
    (hown : ∀ f ∈ s.journal, f.id = id → ∀ i, (change f).intent.value? = some i → i.operationId = f.id)
    (hpaced : Paced 60 86400 4
      ((intents (amend Folder.id id change s.journal)).map Intent.attemptedAt))
    (hpast : ∀ i ∈ intents (amend Folder.id id change s.journal), i.attemptedAt ≤ s.time)
    (hread : ∀ f ∈ s.journal, f.id = id → ∀ r, (change f).receipt.value? = some r →
      r.state = .applied → ReadBack s.events ds (change f) r) :
    Kept { s with journal := amend Folder.id id change s.journal } ds where
  ids := by
    rw [map_key_amend]
    · exact h.ids
    · exact fun f hf hid => (hgrows f hf hid).id
  own f hf i hi := by
    rcases mem_amend.1 hf with ⟨hf, -⟩ | ⟨g, hg, hid, rfl⟩
    · exact h.own f hf i hi
    · exact (hown g hg hid i hi).trans (hgrows g hg hid).id.symm
  paced := hpaced
  past := hpast
  of := h.of
  once := h.once
  recorded i hi := (grows_amend hgrows).mem_intents (h.recorded i hi)
  readBack f hf r hr ha := by
    rcases mem_amend.1 hf with ⟨hf, -⟩ | ⟨g, hg, hid, rfl⟩
    · exact h.readBack f hf r hr ha
    · exact hread g hg hid r hr ha

/-- A change of one folder that leaves its intent and its receipt alone. -/
theorem Kept.change_other (h : Kept s ds) {id : String} {change : Folder → Folder}
    (hgrows : ∀ f ∈ s.journal, f.id = id → f.Grows (change f))
    (hintent : ∀ f ∈ s.journal, f.id = id → (change f).intent.value? = f.intent.value?)
    (hreceipt : ∀ f ∈ s.journal, f.id = id → (change f).receipt.value? = f.receipt.value?) :
    Kept { s with journal := amend Folder.id id change s.journal } ds := by
  have hsame : intents (amend Folder.id id change s.journal) = intents s.journal :=
    flatMap_amend_eq fun f hf hid => congrArg Option.toList (hintent f hf hid)
  refine h.change hgrows ?_ ?_ ?_ ?_
  · intro f hf hid i hi
    rw [hintent f hf hid] at hi
    exact h.own f hf i hi
  · rw [hsame]; exact h.paced
  · rw [hsame]; exact h.past
  · intro f hf hid r hr ha
    rw [hreceipt f hf hid] at hr
    exact (h.readBack f hf r hr ha).mono List.suffix_rfl (List.Subset.refl _) (hgrows f hf hid)

/-- The one folder of an operation. -/
theorem Kept.eq_of_id (h : Kept s ds) {f g : Folder} (hf : f ∈ s.journal) (hg : g ∈ s.journal)
    (hid : g.id = f.id) : g = f := eq_of_key_eq h.ids hg hf hid

/-- A new intent that keeps the budget and the spacing. -/
theorem Kept.put_intent (h : Kept s ds) (hclear : s.Clear) {f : Folder} (hf : f ∈ s.journal)
    (habsent : f.intent = .absent) {i : Intent} (hid : i.operationId = f.id)
    (hnow : i.attemptedAt = s.time) {file : File Intent}
    (hfile : file.value? = none ∨ file.value? = some i) : Kept (s.put intentFile f.id file) ds := by
  have hnone : f.intent.value? = none := by rw [habsent]; rfl
  have hgrows : ∀ g ∈ s.journal, g.id = f.id → g.Grows (intentFile.set file g) := by
    intro g hg hgf
    rw [h.eq_of_id hf hg hgf]
    exact ⟨rfl, .refl _, .refl _, .of_none hnone, .refl _⟩
  rcases hfile with hfile | hfile
  · refine h.change_other hgrows (fun g hg hgf => ?_) fun g _ _ => rfl
    rw [h.eq_of_id hf hg hgf, hnone]
    exact hfile
  · have hperm : (intents (Verif.amend Folder.id f.id (intentFile.set file) s.journal)).Perm
        ([i] ++ intents s.journal) := by
      refine flatMap_amend_perm h.ids hf rfl ?_
      have hvalue : (intentFile.set file f).intent.value? = some i := hfile
      rw [hvalue, hnone]
      rfl
    obtain ⟨hspaced, hbudget⟩ := hclear s.time le_rfl
    refine h.change hgrows ?_ ?_ ?_ ?_
    · intro g hg hgf i' hi'
      have : some i = some i' := hfile.symm.trans hi'
      rw [← Option.some.inj this, hid, hgf]
    · refine Paced.perm ?_ (hperm.map Intent.attemptedAt)
      rw [List.singleton_append, List.map_cons, hnow]
      refine h.paced.cons (by norm_num) ?_ hbudget
      intro t ht
      obtain ⟨i', hi', rfl⟩ := List.mem_map.1 ht
      exact hspaced i' hi'
    · intro i' hi'
      rcases List.mem_cons.1 (hperm.mem_iff.1 hi') with rfl | hi'
      · exact hnow.le
      · exact h.past i' hi'
    · intro g hg hgf r hr ha
      exact (h.readBack g hg r hr ha).mono List.suffix_rfl (List.Subset.refl _) (hgrows g hg hgf)

theorem Kept.put_receipt (h : Kept s ds) {f : Folder} (hf : f ∈ s.journal)
    (habsent : f.receipt = .absent) {r : Receipt} (hread : r.state = .applied → ReadBack s.events ds f r)
    {file : File Receipt} (hfile : file.value? = none ∨ file.value? = some r) :
    Kept (s.put receiptFile f.id file) ds := by
  have hnone : f.receipt.value? = none := by rw [habsent]; rfl
  have hgrows : ∀ g ∈ s.journal, g.id = f.id → g.Grows (receiptFile.set file g) := by
    intro g hg hgf
    rw [h.eq_of_id hf hg hgf]
    exact ⟨rfl, .refl _, .refl _, .refl _, .of_none hnone⟩
  have hsame : intents (Verif.amend Folder.id f.id (receiptFile.set file) s.journal) =
      intents s.journal := flatMap_amend_eq fun g _ _ => rfl
  refine h.change hgrows (fun g hg _ => h.own g hg) ?_ ?_ ?_
  · rw [hsame]; exact h.paced
  · rw [hsame]; exact h.past
  · intro g hg hgf r' hr' ha
    have hr' : file.value? = some r' := hr'
    rcases hfile with hfile | hfile
    · rw [hfile] at hr'; cases hr'
    · have hrr : r = r' := Option.some.inj (hfile.symm.trans hr')
      rw [← hrr] at ha ⊢
      obtain rfl := h.eq_of_id hf hg hgf
      exact (hread ha).mono List.suffix_rfl (List.Subset.refl _) (hgrows g hg rfl)

/-- The deploy of an intent for which there was none. -/
theorem Kept.deploy (h : Kept s ds) {rev : String} {flows : List Json} {f : Folder} {i : Intent}
    (hof : Deploy.Of ⟨s, rev, flows⟩ f i)
    (hnew : i.operationId ∉ (ds.filterMap Deploy.intent?).map Intent.operationId) :
    Kept s (ds ++ [⟨s, rev, flows⟩]) := by
  have hfilter : (ds ++ [(⟨s, rev, flows⟩ : Deploy)]).filterMap Deploy.intent? =
      ds.filterMap Deploy.intent? ++ [i] := by
    rw [List.filterMap_append]
    simp [hof.open_]
  refine ⟨h.ids, h.own, h.paced, h.past, ?_, ?_, ?_, ?_⟩
  · intro d hd
    rcases List.mem_append.1 hd with hd | hd
    · exact h.of d hd
    · rw [List.mem_singleton.1 hd]
      exact ⟨f, i, hof⟩
  · rw [hfilter, List.map_append, List.nodup_append]
    refine ⟨h.once, List.nodup_singleton _, ?_⟩
    rintro a ha b hb rfl
    exact hnew (List.mem_singleton.1 hb ▸ ha)
  · intro i' hi'
    rw [hfilter] at hi'
    rcases List.mem_append.1 hi' with hi' | hi'
    · exact h.recorded i' hi'
    · rw [List.mem_singleton.1 hi']
      exact mem_intents.2 ⟨f, hof.folder, by rw [hof.intent]; rfl⟩
  · intro g hg r hr ha
    exact (h.readBack g hg r hr ha).mono List.suffix_rfl (List.subset_append_left _ _) (.refl g)

/-- A new folder. -/
theorem Kept.mkdir (h : Kept s ds) {id : String} (hs : s.mkdir id = .ok s') :
    Kept s' ds ∧ Grows s.journal s'.journal := by
  simp only [Site.mkdir, bind_ok, need_eq_ok, exists_unit, pure_ok] at hs
  obtain ⟨hnew, rfl⟩ := hs
  have hgrows : Grows s.journal (s.journal ++ [⟨id, .absent, .absent, .absent, .absent⟩]) :=
    fun f hf => ⟨f, List.mem_append_left _ hf, .refl f⟩
  have hsame : intents (s.journal ++ [⟨id, .absent, .absent, .absent, .absent⟩]) =
      intents s.journal := by simp [intents, File.value?]
  refine ⟨⟨?_, ?_, ?_, ?_, h.of, h.once, ?_, ?_⟩, hgrows⟩
  · exact nodup_keys_append h.ids hnew
  · intro f hf i hi
    rcases List.mem_append.1 hf with hf | hf
    · exact h.own f hf i hi
    · rw [List.mem_singleton.1 hf] at hi
      cases hi
  · rw [hsame]; exact h.paced
  · rw [hsame]; exact h.past
  · rw [hsame]; exact h.recorded
  · intro f hf r hr ha
    rcases List.mem_append.1 hf with hf | hf
    · exact h.readBack f hf r hr ha
    · rw [List.mem_singleton.1 hf] at hr
      cases hr

end

/-! ## Steps that leave the journal alone -/

section
variable {s : Site}

theorem leads_clock : clock.Leads deployed Quiet (fun now s' => Waits s s' ∧ s'.time = now) s := by
  unfold clock
  refine leads_bind (leads_ask rfl fun elapsed => leads_bind ?_)
  refine leads_transaction (Quiet.refl s) fun s' hs' => ?_
  obtain rfl := Except.ok.inj hs'
  have hwaits : Waits s { s with time := s.time + elapsed } :=
    ⟨rfl, le_add_of_nonneg_right elapsed.2, rfl⟩
  exact ⟨hwaits.quiet, leads_bind (leads_get (Quiet.refl _) (leads_pure ⟨hwaits, rfl⟩))⟩

theorem leads_read {α : Type} {slot : Slot α} {id : String} : (read slot id).Leads deployed Quiet
    (fun v s' => s' = s ∧ (fileOf slot id s.journal).read = .ok v) s := by
  unfold read
  refine leads_bind (leads_require fun _ => leads_bind (leads_get (Quiet.refl s) ?_))
  exact leads_lift fun v hv => ⟨rfl, hv⟩

section
variable [Canonical Json]

theorem leads_fetch : fetch.Leads deployed Quiet
    (fun c s' => s' = { s with events := .fetched c :: s.events }) s := by
  unfold fetch
  refine leads_bind (leads_ask rfl fun reply => leads_bind (leads_lift fun value _ => ?_))
  refine leads_bind (leads_lift fun c _ => leads_bind (leads_transaction (Quiet.refl s) ?_))
  intro s' hs'
  obtain rfl := Except.ok.inj hs'
  exact ⟨quiet_event s _, leads_pure rfl⟩

end

section
variable [Canonical Plan] [Canonical Guard]

theorem leads_guarded {plan : Plan} {phase : Phase} :
    (guarded plan phase).Leads deployed Quiet (fun _ s' => s' = s) s := by
  unfold guarded
  refine leads_bind (leads_ask rfl fun reply => leads_bind (leads_lift fun answer _ => ?_))
  refine leads_bind (leads_lift fun guard _ => leads_bind (leads_require fun _ => ?_))
  exact leads_bind (leads_require fun _ => leads_bind (leads_require fun _ => leads_pure rfl))

end

section
variable [Canonical Json] [Canonical Plan]

theorem leads_admitted {plan : Plan} {approvalId : String} :
    (admitted plan approvalId).Leads deployed Quiet (fun _ s' => Waits s s') s := by
  unfold admitted
  refine leads_bind (leads_require fun _ => leads_bind (leads_ask rfl fun reply => ?_))
  refine leads_bind (leads_lift fun answer _ => leads_bind (leads_lift fun gate _ => ?_))
  refine leads_bind (leads_require fun _ => leads_bind (leads_clock.mono fun now s' hs' => ?_))
  exact leads_require fun _ => hs'.1

/-- What a passed preflight found. -/
structure Passed (plan : Plan) (s s' : Site) : Prop where
  journal : s'.journal = s.journal
  time : s.time ≤ s'.time
  settled : ∀ f ∈ s.journal, f.Settled
  validated : ∃ v, (fileOf validationFile plan.operationId s.journal).value? = some v ∧
    v.planSha256 = digest plan
  current : ∃ c, s'.events = .fetched c :: s.events ∧ c.rev = plan.beforeRevision ∧
    flowsDigest c.flows = plan.beforeSha256
  clear : s'.Clear

theorem Passed.waits {plan : Plan} {s s' s'' : Site} (h : Passed plan s s') (hw : Waits s' s'') :
    Passed plan s s'' := by
  obtain ⟨c, hc, hcurrent⟩ := h.current
  exact ⟨hw.journal.trans h.journal, h.time.trans hw.time, h.settled, h.validated,
    ⟨c, hw.events.trans hc, hcurrent⟩, h.clear.waits hw⟩

theorem Passed.quiet {plan : Plan} {s s' : Site} (h : Passed plan s s') : Quiet s s' := by
  obtain ⟨c, hc, -⟩ := h.current
  exact ⟨h.journal, h.time, hc ▸ List.suffix_cons _ _⟩

end

section
variable [Canonical Json] [Canonical Plan] [Canonical Guard]

/-- An applied deploy was read back. -/
theorem leads_judge {plan : Plan} {reply : Except String (Option DeployReply)} :
    (judge plan reply).Leads deployed Quiet (fun o s' => ∀ revision sha256,
      o = .applied revision sha256 → ∃ c, s'.events = .fetched c :: s.events ∧ c.rev = revision ∧
        flowsDigest c.flows = plan.afterSha256) s := by
  unfold judge
  refine leads_bind (leads_lift fun answer _ => leads_bind (leads_lift fun r _ => ?_))
  split_ifs
  · refine leads_pure ?_
    rintro revision sha256 ⟨⟩
  · unfold confirm
    refine leads_bind (leads_lift fun revision _ => leads_bind (leads_require fun _ => ?_))
    refine leads_bind (leads_fetch.mono ?_)
    rintro c s' rfl
    refine leads_bind (leads_require fun hloaded => ?_)
    refine leads_bind ((leads_attempt Quiet.refl Quiet.trans leads_guarded).mono ?_)
    rintro (e | sha256) s'' ⟨-, hs''⟩
    · refine leads_pure ?_
      rintro revision sha256 ⟨⟩
    · obtain rfl := hs'' sha256 rfl
      refine leads_pure ?_
      rintro revision' sha256' ⟨⟩
      exact ⟨c, rfl, hloaded⟩
  · refine leads_pure ?_
    rintro revision sha256 ⟨⟩

end

section
variable [Canonical Policy] (p : Policy)

theorem leads_policy {effect : Bool} : (policy p effect).Leads deployed Quiet
    (fun _ s' => Waits s s' ∧ p.maximumDeploysPer24h = 4) s := by
  unfold policy
  refine leads_bind (leads_require fun _ => leads_bind (leads_ask rfl fun reply => ?_))
  refine leads_bind (leads_lift fun revoked _ => leads_bind (leads_require fun _ => ?_))
  refine leads_bind (leads_lift fun expires _ => leads_bind (leads_clock.mono fun now s' hs' => ?_))
  refine leads_bind (leads_require fun _ => leads_bind (leads_require fun hlimits => ?_))
  exact leads_pure ⟨hs'.1, hlimits.1⟩

theorem leads_prepared {id : String} : (prepared p id).Leads deployed Quiet
    (fun plan s' => Waits s s' ∧ plan.operationId = id ∧
      ∃ f ∈ s.journal, f.id = id ∧ f.plan.value? = some plan) s := by
  unfold prepared
  refine leads_bind (leads_read.mono ?_)
  rintro value s' ⟨rfl, hvalue⟩
  refine leads_bind (leads_lift fun plan hplan => leads_bind (leads_require fun hid => ?_))
  refine leads_bind ((leads_policy p).mono fun sha256 s'' hs'' => ?_)
  refine leads_bind (leads_require fun _ => leads_pure ⟨hs''.1, hid, ?_⟩)
  rw [orFail_eq_ok.1 hplan] at hvalue
  exact exists_of_fileOf (File.read_ok hvalue)

omit [Canonical Policy] in
/-- The budget and the spacing are kept by whatever comes later. -/
theorem leads_budget (hlimit : p.maximumDeploysPer24h = 4) :
    (budget p).Leads deployed Quiet (fun _ s' => Waits s s' ∧ s'.Clear) s := by
  unfold budget
  refine leads_bind (leads_clock.mono ?_)
  rintro now s₁ ⟨hs₁, rfl⟩
  refine leads_bind (leads_get (Quiet.refl s₁) (leads_bind (leads_lift fun rows hrows => ?_)))
  obtain rfl := attempts_ok hrows
  refine leads_bind (leads_require fun hcount => ?_)
  rw [hlimit] at hcount
  -- a later window starts later, so it holds no more of the attempts
  have hlater : ∀ t, s₁.time ≤ t → ((intents s₁.journal).map Intent.attemptedAt).countP
      (fun a => t - 86400 ≤ a ∧ a ≤ t) < 4 := by
    intro t ht
    refine lt_of_le_of_lt ?_ hcount
    rw [List.countP_map, ← List.countP_eq_length_filter]
    refine List.countP_mono_left fun i _ hi => ?_
    have hi : t - 86400 ≤ i.attemptedAt ∧ i.attemptedAt ≤ t := by simpa using hi
    have : s₁.time - 86400 ≤ i.attemptedAt := by linarith [hi.1]
    simpa using this
  have hold : ∀ i ∈ intents s₁.journal, i ∉ (intents s₁.journal).filter
      (fun i => s₁.time - 86400 ≤ i.attemptedAt) → i.attemptedAt < s₁.time - 86400 := by
    intro i hi hni
    by_contra hlt
    exact hni (List.mem_filter.2 ⟨hi, by simpa using hlt⟩)
  by_cases hnone : (intents s₁.journal).filter (fun i => s₁.time - 86400 ≤ i.attemptedAt) = []
  · rw [if_pos hnone]
    refine leads_pure ⟨hs₁, fun t ht => ⟨fun i hi => ?_, hlater t ht⟩⟩
    have := hold i hi (by rw [hnone]; exact List.not_mem_nil)
    linarith
  · rw [if_neg hnone]
    refine leads_bind (leads_clock.mono ?_)
    rintro now s₂ ⟨hs₂, rfl⟩
    refine leads_require fun hspacing => ⟨hs₁.trans hs₂, fun t ht => ⟨fun i hi => ?_, ?_⟩⟩
    · rw [hs₂.journal] at hi
      by_cases hin : i ∈ (intents s₁.journal).filter (fun i => s₁.time - 86400 ≤ i.attemptedAt)
      · linarith [hspacing i hin]
      · linarith [hold i hi hin, hs₂.time]
    · rw [hs₂.journal]
      exact hlater t (hs₂.time.trans ht)

section
variable [Canonical Json] [Canonical Plan] [Canonical Guard]

theorem leads_preflightOf {plan : Plan} {approvalId : String} :
    (preflightOf p plan approvalId).Leads deployed Quiet (fun _ s' => Passed plan s s') s := by
  unfold preflightOf
  refine leads_bind ((leads_policy p).mono ?_)
  rintro sha256 s₁ ⟨hs₁, hlimit⟩
  refine leads_bind (leads_clock.mono ?_)
  rintro now s₂ ⟨hs₂, -⟩
  refine leads_bind (leads_require fun _ => leads_bind (leads_get (Quiet.refl s₂) ?_))
  refine leads_bind (leads_lift fun uncertain hun => leads_bind (leads_require fun hnil => ?_))
  refine leads_bind (leads_read.mono ?_)
  rintro validated s₂' ⟨rfl, hvalidated⟩
  refine leads_bind (leads_require fun hv => leads_bind (leads_fetch.mono ?_))
  rintro c s₃ rfl
  refine leads_bind (leads_require fun hcurrent => ?_)
  refine leads_bind ((leads_budget p hlimit).mono ?_)
  rintro - s₄ ⟨hs₄, hclear⟩
  have hwaits := hs₁.trans hs₂
  have hpassed : Passed plan s s₄ := by
    obtain ⟨v, hvmem, hsha⟩ := hv
    rw [hnil] at hun
    rw [hvmem, hwaits.journal] at hvalidated
    have hvalidated := File.read_ok hvalidated
    rw [hwaits.journal] at hun
    exact ⟨hs₄.journal.trans hwaits.journal, hwaits.time.trans hs₄.time, uncertainOperations_nil hun,
      ⟨v, hvalidated, hsha⟩, ⟨c, hs₄.events.trans (by rw [hwaits.events]), hcurrent⟩, hclear⟩
  refine leads_bind (leads_admitted.mono fun _ s₅ hs₅ => leads_bind (leads_guarded.mono ?_))
  rintro sha256 s₅' rfl
  refine leads_bind (leads_clock.mono ?_)
  rintro now s₆ ⟨hs₆, -⟩
  exact leads_pure (hpassed.waits (hs₅.trans hs₆))

end

end

end

/-! ## Requests -/

section
variable [Canonical Json] [Canonical Plan] {j₀ : List Folder} {s s' : Site} {ds : List Deploy}

/-- What holds under a request that found the journal `j₀`. -/
structure Serves (j₀ : List Folder) (s : Site) (ds : List Deploy) : Prop where
  kept : Kept s ds
  grows : Grows j₀ s.journal

theorem Serves.quiet (h : Serves j₀ s ds) (hq : Quiet s s') : Serves j₀ s' ds :=
  ⟨h.kept.quiet hq, hq.journal ▸ h.grows⟩

/-- A program keeps the invariant from a site on. -/
abbrev Safely {α : Type} (j₀ : List Folder) (p : Prog α) (s : Site) (ds : List Deploy) : Prop :=
  Keeps (Tracks (Serves j₀) deployed) deployed p s ds

theorem safely_lead {α β : Type} {q : Prog α} {k : α → Prog β} {post : α → Site → Prop}
    (hq : q.Leads deployed Quiet post s) (h : ∀ a s', post a s' → Safely j₀ (k a) s' ds) :
    Safely j₀ (q >>= k) s ds :=
  keeps_lead tracks_ignores (fun _ _ hw hquiet => Serves.quiet hw hquiet) hq h

theorem safely_create {α β : Type} [Canonical α] {slot : Slot α} {id : String} {value : α}
    {k : Unit → Prog β} (h : ∀ f ∈ s.journal, f.id = id → slot.get f = .absent →
      (∀ file, file.value? = none ∨ file.value? = some value → Serves j₀ (s.put slot id file) ds) ∧
        Safely j₀ (k ()) (s.put slot id (.stored value)) ds) :
    Safely j₀ (create slot id value >>= k) s ds := by
  unfold create
  simp only [bind_assoc]
  refine keeps_require fun _ => keeps_update fun s₁ hs₁ => ?_
  obtain ⟨rfl, f, hf, hid, habsent⟩ := Site.create_ok hs₁
  obtain ⟨hfile, hk⟩ := h f hf hid habsent
  refine ⟨hfile _ (Or.inl rfl), keeps_update fun s₂ hs₂ => ?_⟩
  obtain rfl := Except.ok.inj hs₂
  rw [Site.put_put]
  refine ⟨hfile _ (Or.inr rfl), keeps_update fun s₃ hs₃ => ?_⟩
  obtain rfl := Except.ok.inj hs₃
  rw [Site.put_put]
  exact ⟨hfile _ (Or.inr rfl), hk⟩

theorem Serves.put (h : Serves j₀ s ds) {α : Type} {slot : Slot α} {f : Folder} {file : File α}
    (hf : f ∈ s.journal) (hgrows : f.Grows (slot.set file f)) (hkept : Kept (s.put slot f.id file) ds) :
    Serves j₀ (s.put slot f.id file) ds := by
  refine ⟨hkept, h.grows.trans (grows_amend fun g hg hid => ?_)⟩
  rw [h.kept.eq_of_id hf hg hid]
  exact hgrows

theorem Serves.put_plan (h : Serves j₀ s ds) {f : Folder} (hf : f ∈ s.journal)
    (habsent : f.plan = .absent) {file : File Plan} : Serves j₀ (s.put planFile f.id file) ds := by
  have hgrows : f.Grows (planFile.set file f) :=
    ⟨rfl, .of_none (by rw [habsent]; rfl), .refl _, .refl _, .refl _⟩
  refine h.put hf hgrows (h.kept.change_other (fun g hg hid => ?_) (fun _ _ _ => rfl) fun _ _ _ => rfl)
  rw [h.kept.eq_of_id hf hg hid]
  exact hgrows

theorem Serves.put_validation (h : Serves j₀ s ds) {f : Folder} (hf : f ∈ s.journal)
    (habsent : f.validation = .absent) {file : File Validation} :
    Serves j₀ (s.put validationFile f.id file) ds := by
  have hgrows : f.Grows (validationFile.set file f) :=
    ⟨rfl, .refl _, .of_none (by rw [habsent]; rfl), .refl _, .refl _⟩
  refine h.put hf hgrows (h.kept.change_other (fun g hg hid => ?_) (fun _ _ _ => rfl) fun _ _ _ => rfl)
  rw [h.kept.eq_of_id hf hg hid]
  exact hgrows

section
variable [Canonical Validation] [Canonical Intent] [Canonical Receipt]

/-- A new plan gets a new folder. -/
theorem safely_register {β : Type} (h : Serves j₀ s ds) {plan : Plan} {k : Unit → Prog β}
    (hk : ∀ u s', Safely j₀ (k u) s' ds) : Safely j₀ (register plan >>= k) s ds := by
  unfold register
  rw [bind_assoc]
  refine safely_lead leads_read ?_
  rintro existing s₁ ⟨rfl, -⟩
  cases existing with
  | some value => exact keeps_require fun _ => hk () _
  | none =>
    simp only [bind_assoc]
    refine keeps_get (keeps_require fun _ => keeps_lift fun bytes _ => keeps_require fun _ => ?_)
    refine keeps_update fun s₂ hs₂ => ?_
    obtain ⟨hkept, hgrows⟩ := h.kept.mkdir hs₂
    have h₂ : Serves j₀ s₂ ds := ⟨hkept, h.grows.trans hgrows⟩
    refine ⟨h₂, safely_create fun f hf hid habsent => ?_⟩
    rw [← hid]
    exact ⟨fun file _ => h₂.put_plan hf habsent, hk () _⟩

end

/-! ## The deploy -/

omit [Canonical Json] in
theorem receiptOf_applied {plan : Plan} {sha256 : String} {now : ℚ} {o : Except String Outcome}
    (h : (receiptOf plan sha256 now (Outcome.of o)).state = .applied) : ∃ revision sha256',
      o = .ok (.applied revision sha256') ∧
        (receiptOf plan sha256 now (Outcome.of o)).afterRevision = some revision := by
  cases o with
  | error e => cases h
  | ok outcome =>
    cases outcome with
    | applied revision sha256' => exact ⟨revision, sha256', rfl, rfl⟩
    | rejected => cases h
    | unconfirmed e => cases h

omit [Canonical Json] in
theorem receiptOf_after {plan : Plan} {sha256 : String} {now : ℚ} {outcome : Outcome} :
    (receiptOf plan sha256 now outcome).afterSha256 = plan.afterSha256 := by
  cases outcome <;> rfl

section
variable [Canonical Receipt] [Canonical Guard]

/-- The deploy of a durable intent, and its receipt. -/
theorem safely_deploy (h : Serves j₀ s ds) {f : Folder} {i : Intent} {plan : Plan} {sha256 : String}
    {id : String} (hfid : f.id = id) (hplan : f.plan.value? = some plan) (hof : Deploy.Of ⟨s, plan.beforeRevision, plan.afterFlows⟩ f i)
    (hnew : i.operationId ∉ (ds.filterMap Deploy.intent?).map Intent.operationId) :
    Safely j₀ (deploy id plan sha256) s ds := by
  subst hfid
  unfold deploy
  set d : Deploy := ⟨s, plan.beforeRevision, plan.afterFlows⟩ with hd
  have h₁ : Serves j₀ s (ds ++ [d]) := ⟨h.kept.deploy hof hnew, h.grows⟩
  refine keeps_effect (d := d) rfl h₁ fun reply => ?_
  refine safely_lead (leads_attempt Quiet.refl Quiet.trans leads_judge) ?_
  rintro outcome s₂ ⟨hs₂, hread⟩
  refine safely_lead leads_clock ?_
  rintro now s₃ ⟨hs₃, -⟩
  have h₃ : Serves j₀ s₃ (ds ++ [d]) := (h₁.quiet hs₂).quiet hs₃.quiet
  refine safely_create fun g hg hid habsent => ⟨fun file hfile => ?_, keeps_pure⟩
  -- the folder is the one that the deploy was of
  have hf : f ∈ s₃.journal := by
    rw [hs₃.journal, hs₂.journal]
    exact hof.folder
  obtain rfl := h₃.kept.eq_of_id hf hg hid
  have habsent : g.receipt = .absent := habsent
  refine h₃.put hf ⟨rfl, .refl _, .refl _, .refl _, .of_none (by rw [habsent]; rfl)⟩ ?_
  refine h₃.kept.put_receipt hf habsent (fun ha => ?_) hfile
  obtain ⟨revision, sha256', rfl, hrevision⟩ := receiptOf_applied ha
  obtain ⟨c, hc, rfl, hafter⟩ := hread _ rfl revision sha256' rfl
  refine ⟨⟨plan, hplan, receiptOf_after⟩, d, List.mem_append_right _ (List.mem_singleton_self d), i,
    hof.open_, hof.id, c, ?_, hrevision.symm, hafter.trans receiptOf_after.symm⟩
  rw [hs₃.events, hc]

end

/-- The deploy of an intent that is stored when there is no doubt about any operation. -/
theorem deploy_of (h : Kept s ds) {plan : Plan} (hpassed : Passed plan s' s) {f : Folder}
    (hf : f ∈ s.journal) (hid : plan.operationId = f.id) (hplan : f.plan.value? = some plan)
    (hreceipt : f.receipt = .absent) {i : Intent} (hi : i.operationId = f.id)
    (hsha : i.planSha256 = digest plan) :
    Deploy.Of ⟨s.put intentFile f.id (.stored i), plan.beforeRevision, plan.afterFlows⟩
      { f with intent := .stored i } i := by
  have hset : ∀ g ∈ s.journal, g.id = f.id →
      intentFile.set (.stored i) g = { f with intent := .stored i } := by
    intro g hg hgf
    rw [h.eq_of_id hf hg hgf]
    rfl
  have hmem : { f with intent := .stored i } ∈ (s.put intentFile f.id (.stored i)).journal :=
    mem_amend.2 (Or.inr ⟨f, hf, rfl, rfl⟩)
  have hothers : ∀ g ∈ (s.put intentFile f.id (.stored i)).journal,
      g ≠ { f with intent := .stored i } → g.Settled := by
    intro g hg hne
    rcases mem_amend.1 hg with ⟨hg, -⟩ | ⟨g', hg', hgf, rfl⟩
    · exact hpassed.settled g (hpassed.journal ▸ hg)
    · exact absurd (hset g' hg' hgf) hne
  have hopen : Folder.open? { f with intent := .stored i } = some i := by
    rw [Folder.open?, if_pos hreceipt]
    rfl
  refine ⟨hmem, rfl, hreceipt, ?_, hi, hothers, plan, hplan, hid, hsha, ?_, rfl, rfl, ?_⟩
  · refine findSome_eq hmem hopen fun g hg i' hi' => ?_
    by_cases hne : g = { f with intent := .stored i }
    · rw [hne, hopen] at hi'
      exact (Option.some.inj hi').symm
    · rw [(hothers g hg hne).not_open] at hi'
      cases hi'
  · obtain ⟨v, hv, hvsha⟩ := hpassed.validated
    rw [← hpassed.journal, hid, fileOf_eq h.ids hf] at hv
    exact ⟨v, hv, hvsha⟩
  · obtain ⟨c, hc, hcurrent⟩ := hpassed.current
    have hevents : (s.put intentFile f.id (.stored i)).events = s.events := rfl
    exact ⟨c, by rw [hevents, hc]; rfl, hcurrent⟩

section
variable [Canonical Policy] (p : Policy)

section
variable [Canonical Intent] [Canonical Receipt] [Canonical Guard]

theorem safely_attemptDeploy (h : Serves j₀ s ds) {f : Folder} (hf : f ∈ s.journal) {plan : Plan}
    (hid : plan.operationId = f.id) (hplan : f.plan.value? = some plan)
    (hreceipt : f.receipt = .absent) {approvalId : String} :
    Safely j₀ (attemptDeploy p f.id plan approvalId) s ds := by
  unfold attemptDeploy
  refine safely_lead (leads_preflightOf p) fun found s₁ hs₁ => ?_
  refine safely_lead leads_clock ?_
  rintro now s₂ ⟨hs₂, rfl⟩
  have hpassed : Passed plan s s₂ := hs₁.waits hs₂
  have h₂ : Serves j₀ s₂ ds := h.quiet hpassed.quiet
  have hf₂ : f ∈ s₂.journal := by rw [hpassed.journal]; exact hf
  refine safely_create fun g hg hgf habsent => ?_
  obtain rfl := h₂.kept.eq_of_id hf₂ hg hgf
  have habsent : g.intent = .absent := habsent
  set i : Intent := ⟨g.id, digest plan, plan.action, s₂.time, plan.beforeRevision⟩ with hi
  have hfiles : ∀ file : File Intent, file.value? = none ∨ file.value? = some i →
      Serves j₀ (s₂.put intentFile g.id file) ds := fun file hfile =>
    h₂.put hf₂ ⟨rfl, .refl _, .refl _, .of_none (by rw [habsent]; rfl), .refl _⟩
      (h₂.kept.put_intent hpassed.clear hf₂ habsent rfl rfl hfile)
  refine ⟨hfiles, ?_⟩
  have hof := deploy_of h₂.kept hpassed hf₂ hid hplan hreceipt (i := i) rfl rfl
  refine safely_deploy (f := { g with intent := .stored i }) (hfiles (.stored i) (Or.inr rfl)) rfl
    hplan hof ?_
  -- an earlier deploy of the operation would have left its intent
  rintro hold
  obtain ⟨i', hi', hii⟩ := List.mem_map.1 hold
  obtain ⟨g', hg', hgi⟩ := mem_intents.1 (h₂.kept.recorded i' hi')
  have hgg : g'.id = g.id := (h₂.kept.own g' hg' i' hgi).symm.trans hii
  rw [h₂.kept.eq_of_id hf₂ hg' hgg, habsent] at hgi
  cases hgi

theorem safely_apply (h : Serves j₀ s ds) {id planSha256 approvalId : String} :
    Safely j₀ (apply p id planSha256 approvalId) s ds := by
  unfold apply
  refine safely_lead (leads_prepared p) ?_
  rintro plan s₁ ⟨hs₁, hid, f, hf, hfid, hplan⟩
  have h₁ : Serves j₀ s₁ ds := h.quiet hs₁.quiet
  have hf₁ : f ∈ s₁.journal := by rw [hs₁.journal]; exact hf
  subst hfid
  refine keeps_require fun _ => safely_lead leads_read ?_
  rintro existing s₁' ⟨rfl, hexisting⟩
  cases existing with
  | some receipt => exact keeps_pure
  | none =>
    rw [fileOf_eq h₁.kept.ids hf₁] at hexisting
    refine safely_lead leads_read ?_
    rintro intent s₁' ⟨rfl, -⟩
    cases intent with
    | some i => exact keeps_pure
    | none => exact safely_attemptDeploy p h₁ hf₁ hid hplan (File.absent_of_read hexisting)

end

theorem safely_validate [Canonical Validation] (h : Serves j₀ s ds) {id : String} : Safely j₀ (validate p id) s ds := by
  unfold validate
  refine safely_lead (leads_prepared p) ?_
  rintro plan s₁ ⟨hs₁, -⟩
  refine safely_lead leads_read ?_
  rintro existing s₁' ⟨rfl, -⟩
  cases existing with
  | some value => exact keeps_require fun _ => keeps_pure
  | none =>
    refine keeps_ask tracks_ignores rfl fun reply => keeps_lift fun proof _ => keeps_require fun _ => ?_
    refine safely_lead leads_clock ?_
    rintro now s₂ ⟨hs₂, -⟩
    have h₂ : Serves j₀ s₂ ds := (h.quiet hs₁.quiet).quiet hs₂.quiet
    refine safely_create fun f hf hid habsent => ?_
    rw [← hid]
    exact ⟨fun file _ => h₂.put_validation hf habsent, keeps_pure⟩

section
variable [Canonical Validation] [Canonical Intent] [Canonical Receipt]

theorem safely_prepare (planner : Planner) (h : Serves j₀ s ds) {id rev sha256 : String}
    {edits : List Json} : Safely j₀ (prepare p planner id rev sha256 edits) s ds := by
  unfold prepare
  refine safely_lead (leads_policy p) ?_
  rintro policySha256 s₁ ⟨hs₁, -⟩
  refine safely_lead leads_read ?_
  rintro existing s₁' ⟨rfl, -⟩
  cases existing with
  | some plan => exact keeps_require fun _ => keeps_pure
  | none =>
    have h₁ := h.quiet hs₁.quiet
    refine safely_lead leads_fetch ?_
    rintro c s₂ rfl
    refine keeps_require fun _ => safely_lead leads_clock ?_
    rintro now s₃ ⟨hs₃, -⟩
    refine keeps_lift fun plan _ => safely_register ?_ fun _ _ => keeps_pure
    exact (h₁.quiet (quiet_event s₁' _)).quiet hs₃.quiet

theorem safely_rollback (planner : Planner) (h : Serves j₀ s ds) {id rollbackId : String} :
    Safely j₀ (rollback p planner id rollbackId) s ds := by
  unfold rollback
  refine safely_lead (leads_policy p) ?_
  rintro policySha256 s₁ ⟨hs₁, -⟩
  refine safely_lead leads_read ?_
  rintro original s₁' ⟨rfl, -⟩
  refine safely_lead leads_read ?_
  rintro receipt s₁' ⟨rfl, -⟩
  have h₁ := h.quiet hs₁.quiet
  refine keeps_lift fun original _ => keeps_lift fun receipt _ => keeps_require fun _ => ?_
  refine safely_lead leads_fetch ?_
  rintro c s₂ rfl
  refine keeps_require fun _ => keeps_require fun _ => safely_lead leads_clock ?_
  rintro now s₃ ⟨hs₃, -⟩
  refine keeps_lift fun plan _ => safely_register ?_ fun _ _ => keeps_pure
  exact (h₁.quiet (quiet_event s₁' _)).quiet hs₃.quiet

/-- Every request keeps the invariant, wherever it stops. -/
theorem safely_handle [Canonical Guard] (planner : Planner) (h : Serves j₀ s ds) {command : Command} :
    Safely j₀ (handle p planner command) s ds := by
  unfold handle locks
  refine keeps_update fun s₁ hs₁ => ?_
  obtain rfl := Except.ok.inj hs₁
  have h₁ := h.quiet (quiet_event s .locked)
  refine ⟨h₁, ?_⟩
  cases command with
  | prepare id rev sha256 edits => exact safely_prepare p planner h₁
  | validate id => exact safely_validate p h₁
  | apply id planSha256 approvalId => exact safely_apply p h₁
  | rollback id rollbackId => exact safely_rollback p planner h₁
  | preflight id approvalId =>
    refine safely_lead (leads_prepared p) fun plan s₂ _ => ?_
    exact safely_lead (leads_preflightOf p) fun _ _ _ => keeps_pure
  | status id =>
    refine keeps_require fun _ => safely_lead leads_read ?_
    rintro value s₂ ⟨rfl, -⟩
    refine keeps_lift fun plan _ => safely_lead leads_read ?_
    rintro receipt s₂ ⟨rfl, -⟩
    cases receipt with
    | some r => exact keeps_pure
    | none => exact safely_lead leads_read fun _ _ _ => keeps_pure
  | verify id =>
    refine safely_lead (leads_policy p) fun _ s₂ _ => safely_lead leads_read fun _ s₃ _ => ?_
    refine keeps_lift fun plan _ => safely_lead leads_read fun _ s₄ _ => ?_
    refine safely_lead leads_fetch fun c s₅ _ => ?_
    refine safely_lead (leads_attempt Quiet.refl Quiet.trans leads_guarded) fun _ s₆ _ => ?_
    exact safely_lead leads_clock fun _ _ _ => keeps_pure

end

end

end

/-! ## Runs -/

/-- The times of the deploys are among those of the intents, so they keep the same distances. -/
theorem Kept.deploys_paced [Canonical Json] [Canonical Plan] {s : Site} {ds : List Deploy} (h : Kept s ds) :
    Paced 60 86400 4 ((ds.filterMap Deploy.intent?).map Intent.attemptedAt) := by
  obtain ⟨l, hl, hsub⟩ := (List.Nodup.of_map _ h.once).subperm h.recorded
  exact h.paced.subperm ⟨_, hl.map Intent.attemptedAt, hsub.map Intent.attemptedAt⟩

section
variable [Canonical Json] [Canonical Plan] [Canonical Validation] [Canonical Intent]
  [Canonical Receipt] [Canonical Guard] [Canonical Policy]

/-- The runs of the engine: from an empty journal, requests under the locks one after the other,
    each of which may stop at any point. -/
def engineMachine : Machine AdminWorld where
  start w := ∃ time, w = ⟨⟨[], time, []⟩, []⟩
  step w w' := ∃ (p : Policy) (planner : Planner) (command : Command), Run (handle p planner command) w w'

theorem serves_step {w w' : AdminWorld} (h : Kept w.state (deploys w)) (hs : engineMachine.step w w') :
    Serves w.state.journal w'.state (deploys w') := by
  obtain ⟨p, planner, command, hr⟩ := hs
  have hstart : Serves w.state.journal w.state (deploys w) := ⟨h, .refl _⟩
  exact (safely_handle p planner hstart).run hstart ⟨rfl, rfl⟩ hr

theorem kept_reachable {w : AdminWorld} (hw : engineMachine.Reachable w) : Kept w.state (deploys w) := by
  refine Machine.Invariant.reachable (p := fun w => Kept w.state (deploys w)) ⟨?_, ?_⟩ hw
  · rintro w ⟨time, rfl⟩
    refine ⟨List.nodup_nil, ?_, paced_nil, ?_, ?_, List.nodup_nil, ?_, ?_⟩
    · intro f hf; cases hf
    · intro i hi; cases hi
    · intro d hd; cases hd
    · intro i hi; cases hi
    · intro f hf; cases hf
  · intro w w' _ h hs
    exact (serves_step h hs).kept

/-- What the journal holds stays, in every run. -/
theorem grows_run {w w' : AdminWorld} (hw : engineMachine.Reachable w)
    (hr : Relation.ReflTransGen engineMachine.step w w') :
    engineMachine.Reachable w' ∧ Grows w.state.journal w'.state.journal := by
  induction hr with
  | refl => exact ⟨hw, .refl _⟩
  | tail _ hs ih =>
    obtain ⟨hreach, hgrows⟩ := ih
    exact ⟨.step hreach hs, hgrows.trans (serves_step (kept_reachable hreach) hs).grows⟩

/-- **Deploys happen at most once and never on top of doubt.**  At every point of every run: every
    deploy is the one of a registered and validated plan, with a durable intent, over the
    configuration that was fetched last under the same locks, while no other operation is in doubt;
    no operation is deployed twice; deploys, at the times of their intents, are at least 60 s apart
    and a window of 24 hours holds at most 4; a receipt that says `applied` has read the
    configuration back after its deploy; and a receipt stays as it is in every further run. -/
theorem deploys_at_most_once {w : AdminWorld} (hw : engineMachine.Reachable w) :
    (∀ d ∈ deploys w, ∃ f i, d.Of f i) ∧
      (((deploys w).filterMap Deploy.intent?).map Intent.operationId).Nodup ∧
      (((deploys w).filterMap Deploy.intent?).map Intent.attemptedAt).Pairwise
        (fun a b => 60 ≤ |a - b|) ∧
      (∀ t, (((deploys w).filterMap Deploy.intent?).map Intent.attemptedAt).countP
        (fun a => t ≤ a ∧ a ≤ t + 86400) ≤ 4) ∧
      (∀ f ∈ w.state.journal, ∀ r, f.receipt.value? = some r → r.state = .applied →
        ReadBack w.state.events (deploys w) f r) ∧
      ∀ w', Relation.ReflTransGen engineMachine.step w w' → ∀ f ∈ w.state.journal, ∀ r,
        f.receipt.value? = some r →
          ∃ f' ∈ w'.state.journal, f'.id = f.id ∧ f'.receipt.value? = some r := by
  have h := kept_reachable hw
  refine ⟨h.of, h.once, h.deploys_paced.spaced, h.deploys_paced.budget, h.readBack, ?_⟩
  intro w' hr f hf r hfr
  obtain ⟨f', hf', hgrows⟩ := (grows_run hw hr).2 f hf
  exact ⟨f', hf', hgrows.id, hgrows.receipt r hfr⟩

end

/-! ## A run -/

section

/-- A digest that is the text itself. -/
local instance : Canonical Json := ⟨fun j => String.ofList j.canonical, fun j => j.canonical.length⟩

local instance : Canonical Plan := ⟨Plan.operationId, fun _ => 0⟩

local instance : Canonical Validation := ⟨Validation.planSha256, fun _ => 0⟩

local instance : Canonical Intent := ⟨Intent.operationId, fun _ => 0⟩

local instance : Canonical Receipt := ⟨Receipt.operationId, fun _ => 0⟩

local instance : Canonical Guard := ⟨Guard.planSha256, fun _ => 0⟩

local instance : Canonical Policy := ⟨fun _ => String.ofList (List.replicate 64 'a'), fun _ => 0⟩

def sampleId : String := String.ofList (List.replicate 32 'b')

def samplePolicy : Policy := ⟨true, "raspberry", "/mnt/data/docker", true, some 1000000, 4, 60, 900⟩

/-- Nodes are only created. -/
def samplePlanner : Planner where
  edited flows edits := .ok (flows ++ edits.map fun e => item e "node", [])
  changeset before after := after.filter (· ∉ before)
  effectInventory _ _ _ := .obj [("removed_node_ids", .arr [])]

def sampleNode (id : String) : Json := .obj [("id", .str id), ("type", .str "tab")]

def sampleFlows : List Json := [sampleNode "a"]

/-- A transport that accepts the deploy, and where the old configuration stays loaded. -/
def sampleAnswer : ∀ q, Reply q
  | .clock => (1 : ℚ≥0)
  | .revoked => .ok false
  | .fetch => .ok (.obj [("rev", .str "1"), ("flows", .arr sampleFlows)])
  | .validate plan => .ok (some ⟨plan.operationId, true, true, true, true, true, true, true⟩)
  | .admitPlan binding approvalId => .ok (some ⟨binding, approvalId, true, true, true, true, true, 1000⟩)
  | .guard plan phase => .ok (some ⟨plan.operationId, phase, true, true, true, true⟩)
  | .deploy _ _ => .ok (some ⟨"accepted", false, some "2"⟩)

/-- An operation is prepared, validated, applied, and applied again. -/
def sampleCommands : List Command :=
  [.prepare sampleId "1" (flowsDigest sampleFlows) [.obj [("kind", .str "create"), ("node", sampleNode "b")]],
    .validate sampleId, .apply sampleId sampleId sampleId, .apply sampleId sampleId sampleId]

def sampleWorld : AdminWorld :=
  sampleCommands.foldl (fun w c => exec sampleAnswer (handle samplePolicy samplePlanner c) w)
    ⟨⟨[], 0, []⟩, []⟩

theorem sampleWorld_reachable : engineMachine.Reachable sampleWorld :=
  .step (.step (.step (.step (.start ⟨0, rfl⟩) ⟨_, _, _, run_exec _ _ _⟩) ⟨_, _, _, run_exec _ _ _⟩)
    ⟨_, _, _, run_exec _ _ _⟩) ⟨_, _, _, run_exec _ _ _⟩

theorem deploys_at_most_once_sample :
    (((deploys sampleWorld).filterMap Deploy.intent?).map Intent.operationId).Nodup ∧
      ((deploys sampleWorld).filterMap Deploy.intent?).map Intent.operationId = [sampleId] := by
  obtain ⟨-, honce, -⟩ := deploys_at_most_once sampleWorld_reachable
  exact ⟨honce, by decide +kernel⟩

end

end SmartHome.NodeRedAdmin
