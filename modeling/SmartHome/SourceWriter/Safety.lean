/-
  What the source writer leaves behind, wherever it is interrupted, and what its reports say of it.
-/
import SmartHome.Lib.Machine
import SmartHome.SourceWriter.Writer

namespace SmartHome.SourceWriter

open Verif Program

/-! ## Runs -/

/-- What is called of the writer. -/
inductive Operation where
  | commit (root : Bool) (pid : ℕ) (a : Action)
  | restore (root : Bool) (pid : ℕ) (r : NativeReceipt)
  | status (a : Action)

/-- An operation that was called, and what there was before and after it. -/
structure Event where
  operation : Operation
  before : Site
  after : Site

/-- What is stored, what the outside left in each file at last, and the operations so far. -/
structure Observed where
  site : Site
  foreign : String → Option File
  log : List Event

section
variable [FloatText] (H : Hashing) {profile : Profile} (b : Bundle profile)

def Operation.program : Operation → Prog Report
  | .commit root pid a => SourceWriter.commit H b root pid a
  | .restore root pid r => restoreAfterRejectedNative H b root pid r
  | .status a => SourceWriter.status H b a

/-- The runs of the operations on a bundle, each interrupted anywhere or not at all, and of changes
    that others make to the files in between. -/
def writerMachine : Machine Observed where
  start o := o.site.markers = [] ∧ o.foreign = o.site.files ∧ o.log = []
  step o o' :=
    (∃ (op : Operation) (w : World Site Query), Run (op.program H b) ⟨o.site, []⟩ w ∧
      o' = { o with site := w.state, log := o.log ++ [⟨op, o.site, w.state⟩] }) ∨
    ∃ (p : String) (f : Option File), o' = { o with
      site := { o.site with files := Function.update o.site.files p f }
      foreign := Function.update o.foreign p f }

end

/-! ## Contents -/

section
variable {profile : Profile} (b : Bundle profile)

/-- A file holds some bytes, all of them. -/
def Holds (files : String → Option File) (p : String) (bytes : Bytes) : Prop :=
  ∃ f, files p = some f ∧ f.bytes = bytes

/-- Every editable file holds its bytes. -/
def AllHold (profile : Profile) (files : String → Option File) (contents : String → Bytes) : Prop :=
  ∀ p ∈ profile.paths, Holds files p (contents p)

/-- A file that holds neither its bytes before nor those after. -/
def Foreign (files : String → Option File) (p : String) : Prop :=
  ¬ Holds files p (b.before p) ∧ ¬ Holds files p (b.after p)

/-- Some editable files that held the one content hold the other, and nothing else has changed. -/
def Moved (profile : Profile) (source target : String → Bytes) (files files' : String → Option File) : Prop :=
  ∀ p, files' p = files p ∨ (p ∈ profile.paths ∧ Holds files p (source p) ∧ Holds files' p (target p))

end

/-! ## One file -/

/-- A condition on what is stored. -/
def On (J : Site → Prop) (w : World Site Query) : Prop := J w.state

/-- Files that are not renamed yet do not matter. -/
def Settled (J : Site → Prop) : Prop := ∀ s s', s'.files = s.files → s'.markers = s.markers → J s → J s'

section
variable {J : Site → Prop} {w : World Site Query} {p : String} {pid : ℕ}
  {α : Type} {post : α → World Site Query → Prop}

theorem safe_check {k : Unit → Prog α} (hi : On J w) (h : Safe (On J) post (k ()) (w.request .check)) :
    Safe (On J) post (check >>= k) w := by
  refine ⟨hi, fun (ok : Bool) => ?_⟩
  exact safe_require (w := w.request .check) hi fun _ => h

theorem safe_clock {k : ℚ → Prog α} (hi : On J w) (h : ∀ now, Safe (On J) post (k now) (w.request .clock)) :
    Safe (On J) post (clock >>= k) w := ⟨hi, h⟩

theorem safe_readReview {k : Review → Prog α} (hi : On J w)
    (h : ∀ review, Safe (On J) post (k review) (w.request .review)) : Safe (On J) post (readReview >>= k) w := by
  refine ⟨hi, fun (review : Option Review) => ?_⟩
  exact safe_lift (w := w.request .review) hi fun review _ => h review

/-- A step that touches files in their place only where they are not renamed yet. -/
theorem safe_onTemp {f : File → File} {k : Unit → Prog α} (hi : On J w)
    (h : ∀ s, s.files = w.state.files → s.markers = w.state.markers →
      s.temps (p, pid) = (w.state.temps (p, pid)).map f → Safe (On J) post (k ()) (w.put s)) :
    Safe (On J) post (onTemp p pid f >>= k) w :=
  ⟨hi, h _ rfl rfl (Function.update_self _ _ _)⟩

theorem writeTemp_safe (hJ : Settled J) {bytes : Bytes} {k : Unit → Prog α} {f : File} (hi : On J w)
    (hf : w.state.temps (p, pid) = some f)
    (h : ∀ s, s.files = w.state.files → s.markers = w.state.markers →
      s.temps (p, pid) = some { f with bytes := f.bytes ++ bytes } → Safe (On J) post (k ()) (w.put s)) :
    Safe (On J) post (writeTemp p pid bytes >>= k) w := by
  induction bytes generalizing w f with
  | nil =>
    refine h w.state rfl rfl ?_
    rw [List.append_nil]
    exact hf
  | cons byte bytes ih =>
    show Safe (On J) post (onTemp p pid _ >>= fun _ => writeTemp p pid bytes >>= k) w
    refine safe_onTemp hi fun s hfiles hmarkers htemp => ?_
    have hi' : On J (w.put s) := hJ _ _ hfiles hmarkers hi
    rw [hf] at htemp
    refine ih hi' htemp fun s' hfiles' hmarkers' htemp' => ?_
    refine h s' (hfiles'.trans hfiles) (hmarkers'.trans hmarkers) ?_
    rw [htemp', List.append_assoc]
    rfl

theorem read_ok {s : Site} {f : File} (h : s.read p = .ok f) : s.files p = some f := by
  unfold Site.read at h
  split at h
  · cases h
  · split_ifs at h
    cases h
    assumption

/-- **The replacement of one file**: it is as it was, or it has its new bytes, all of them. -/
theorem replaceOwned_safe (hJ : Settled J) {H : Hashing} {bytes : Bytes} {expected : String} {metadata : Metadata} {k : Unit → Prog α}
    (hi : On J w)
    (h : ∀ s f f', w.state.files p = some f → H.sha f.bytes = expected → f'.bytes = bytes →
      s.files = Function.update w.state.files p (some f') → s.markers = w.state.markers →
      Safe (On J) post (k ()) (w.put s)) :
    Safe (On J) post (replaceOwned H pid p bytes expected metadata >>= k) w := by
  -- until the file is renamed, neither files nor markers change
  have hkept : ∀ s, s.files = w.state.files → s.markers = w.state.markers → On J (w.put s) :=
    fun s hfiles hmarkers => hJ _ _ hfiles hmarkers hi
  unfold replaceOwned
  simp only [bind_assoc]
  refine safe_get hi (safe_lift hi fun before hbefore => safe_require hi fun hexpected => safe_require hi fun _ => ?_)
  refine safe_transaction hi fun s hs => ?_
  split_ifs at hs
  obtain rfl := Except.ok.inj hs
  refine writeTemp_safe hJ (hkept _ rfl rfl) (Function.update_self _ _ _) fun s hfiles hmarkers htemp => ?_
  refine safe_onTemp (hkept _ hfiles hmarkers) fun s' hfiles' hmarkers' htemp' => ?_
  have hf : s'.files = w.state.files := hfiles'.trans hfiles
  have hm : s'.markers = w.state.markers := hmarkers'.trans hmarkers
  refine safe_get (hkept _ hf hm) ?_
  have hunlink : ∀ e, Safe (On J) post ((unlinkTemp p pid >>= fun _ => (fail e : Prog Unit)) >>= k)
      (w.put s') := fun e => ⟨hkept _ hf hm, hkept _ hf hm⟩
  have htemp : s'.temps (p, pid) = some ⟨bytes, metadata, w.state.nextIdentity⟩ := by
    rw [htemp', World.put_state, htemp]
    rfl
  simp only [World.put_state]
  cases hread : s'.read p with
  | error e => exact hunlink e
  | ok again =>
    simp only
    split_ifs
    · have hnew : Function.update s'.files p (s'.temps (p, pid)) =
          Function.update w.state.files p (some ⟨bytes, metadata, w.state.nextIdentity⟩) := by
        rw [hf, htemp]
      exact ⟨hkept _ hf hm, h _ before _ (read_ok hbefore) hexpected rfl hnew hm⟩
    · exact hunlink _

end

/-! ## All files -/

section
variable {profile : Profile} {source target : String → Bytes} {files files' : String → Option File} {p : String}

theorem moved_refl : Moved profile source target files files := fun _ => Or.inl rfl

/-- One more file is moved. -/
theorem Moved.update (h : Moved profile source target files files') (hp : p ∈ profile.paths) {f f' : File}
    (hf : files' p = some f) (hsource : f.bytes = source p) (htarget : f'.bytes = target p) :
    Moved profile source target files (Function.update files' p (some f')) := by
  intro q
  by_cases hq : q = p
  · subst hq
    refine Or.inr ⟨hp, ?_, f', Function.update_self _ _ _, htarget⟩
    rcases h q with heq | ⟨-, hholds, -⟩
    · exact ⟨f, heq.symm.trans hf, hsource⟩
    · exact hholds
  · rw [Function.update_of_ne hq]
    rcases h q with heq | hmoved
    · exact Or.inl heq
    · refine Or.inr ⟨hmoved.1, hmoved.2.1, ?_⟩
      obtain ⟨g, hg, hbytes⟩ := hmoved.2.2
      exact ⟨g, (Function.update_of_ne hq _ _).trans hg, hbytes⟩

end

/-- Where an operation stops that moves the files of a site: before its first marker nothing has
    changed, and after its second one all files are moved. -/
structure Stops (profile : Profile) (source target : String → Bytes) (m m' : Marker) (s s' : Site) : Prop where
  moved : Moved profile source target s.files s'.files
  marked : (s'.files = s.files ∧ s'.markers = s.markers) ∨ s'.markers = s.markers ++ [m] ∨
    (s'.markers = s.markers ++ [m, m'] ∧ AllHold profile s'.files target)

section
variable {profile : Profile} {source target : String → Bytes} {m m' : Marker} {H : Hashing} {s : Site}
  {w : World Site Query} {pid : ℕ} {α : Type} {post : α → World Site Query → Prop}

theorem settled_stops : Settled (Stops profile source target m m' s) := by
  intro s₁ s₂ hfiles hmarkers h
  refine ⟨?_, ?_⟩
  · rw [hfiles]; exact h.moved
  · rw [hfiles, hmarkers]; exact h.marked

/-- The operation may stop here, between its two markers. -/
def Between (profile : Profile) (source target : String → Bytes) (m m' : Marker) (s : Site) (w : World Site Query) :
    Prop := On (Stops profile source target m m' s) w ∧ w.state.markers = s.markers ++ [m]

theorem replaceOwned_between {p : String} {metadata : Metadata} {k : Unit → Prog α} (hp : p ∈ profile.paths)
    (hw : Between profile source target m m' s w)
    (h : ∀ w', Between profile source target m m' s w' → Safe (On (Stops profile source target m m' s)) post (k ()) w') :
    Safe (On (Stops profile source target m m' s)) post
      (replaceOwned H pid p (target p) (H.sha (source p)) metadata >>= k) w := by
  obtain ⟨hi, hm⟩ := hw
  refine replaceOwned_safe settled_stops hi fun s' f f' hf hsha hbytes hfiles hmarkers =>
    h _ ⟨⟨?_, ?_⟩, hmarkers.trans hm⟩
  · rw [World.put_state, hfiles]
    exact hi.moved.update hp hf (H.injective hsha) hbytes
  · exact Or.inr (Or.inl (hmarkers.trans hm))

/-- The first marker. -/
theorem writeNew_first {k : Unit → Prog α} (hw : w.state = s)
    (h : ∀ w', Between profile source target m m' s w' → Safe (On (Stops profile source target m m' s)) post (k ()) w') :
    Safe (On (Stops profile source target m m' s)) post (writeNew m >>= k) w := by
  subst hw
  refine safe_transaction ⟨moved_refl, Or.inl ⟨rfl, rfl⟩⟩ fun s' hs' => ?_
  split_ifs at hs'
  obtain rfl := Except.ok.inj hs'
  exact h _ ⟨⟨moved_refl, Or.inr (Or.inl rfl)⟩, rfl⟩

/-- The second marker. -/
theorem writeNew_second {k : Unit → Prog α} (hw : Between profile source target m m' s w)
    (hall : AllHold profile w.state.files target)
    (h : ∀ w', On (Stops profile source target m m' s) w' → AllHold profile w'.state.files target →
      Safe (On (Stops profile source target m m' s)) post (k ()) w') :
    Safe (On (Stops profile source target m m' s)) post (writeNew m' >>= k) w := by
  obtain ⟨hi, hm⟩ := hw
  refine safe_transaction hi fun s' hs' => ?_
  split_ifs at hs'
  obtain rfl := Except.ok.inj hs'
  refine h _ ⟨hi.moved, Or.inr (Or.inr ⟨?_, hall⟩)⟩ hall
  show w.state.markers ++ [m'] = s.markers ++ [m, m']
  rw [hm, List.append_assoc]
  rfl

end

section
variable {profile : Profile} {b : Bundle profile} {H : Hashing} {s : Site} {w : World Site Query} {pid : ℕ}
  {a : Action} {α : Type} {post : α → World Site Query → Prop} {paths : List String} {k : Unit → Prog α}

theorem commitFiles_safe {expiresAt : ℚ} (hpaths : ∀ p ∈ paths, p ∈ profile.paths)
    (hw : Between profile (b.start a) (b.target a) (.intent a) (.result a) s w)
    (h : ∀ w', Between profile (b.start a) (b.target a) (.intent a) (.result a) s w' →
      Safe (On (Stops profile (b.start a) (b.target a) (.intent a) (.result a) s)) post (k ()) w') :
    Safe (On (Stops profile (b.start a) (b.target a) (.intent a) (.result a) s)) post
      (commitFiles H b pid a expiresAt paths >>= k) w := by
  induction paths generalizing w with
  | nil => exact h w hw
  | cons p paths ih =>
    have hrest : ∀ q ∈ paths, q ∈ profile.paths := fun q hq => hpaths q (List.mem_cons_of_mem _ hq)
    unfold commitFiles
    simp only [bind_assoc]
    refine safe_check hw.1 (safe_clock hw.1 fun now => safe_require hw.1 fun _ => ?_)
    split_ifs
    · rw [bind_assoc]
      exact replaceOwned_between (hpaths p List.mem_cons_self) hw fun w' hw' => ih hrest hw'
    · exact ih hrest hw

theorem restoreFiles_safe {actual : String → Bytes} (hpaths : ∀ p ∈ paths, p ∈ profile.paths)
    (hw : Between profile (b.target a) (b.start a) (.restoreIntent a) (.restoreResult a) s w)
    (h : ∀ w', Between profile (b.target a) (b.start a) (.restoreIntent a) (.restoreResult a) s w' →
      Safe (On (Stops profile (b.target a) (b.start a) (.restoreIntent a) (.restoreResult a) s)) post (k ()) w') :
    Safe (On (Stops profile (b.target a) (b.start a) (.restoreIntent a) (.restoreResult a) s)) post
      (restoreFiles H b pid a actual paths >>= k) w := by
  induction paths generalizing w with
  | nil => exact h w hw
  | cons p paths ih =>
    have hrest : ∀ q ∈ paths, q ∈ profile.paths := fun q hq => hpaths q (List.mem_cons_of_mem _ hq)
    unfold restoreFiles
    simp only [bind_assoc]
    refine safe_check hw.1 ?_
    split_ifs
    · rw [bind_assoc]
      exact replaceOwned_between (hpaths p List.mem_cons_self) hw fun w' hw' => ih hrest hw'
    · exact ih hrest hw

end

/-! ## Reports -/

section
variable [FloatText] {H : Hashing} {profile : Profile} {b : Bundle profile} {s : Site} {files : String → Bytes}
  {contents : String → Bytes} {a : Action} {now : ℚ} {r : Report}

omit [FloatText] in
theorem encode_injective : Function.Injective encode := by
  intro s t h
  have h := Array.toList_inj.1 h
  exact String.ofList_injective (String.toByteArray_inj.1 (ByteArray.ext h))

/-- The files have one hash if they hold the same. -/
theorem sourceSet_inj {paths : List String} (hn : paths.Nodup) {files files' : String → Bytes} :
    sourceSet H paths files = sourceSet H paths files' ↔ ∀ p ∈ paths, files p = files' p := by
  have hkeys : ∀ files : String → Bytes,
      ((paths.map fun p => (p, PyValue.str (H.sha (files p)))).map Prod.fst).Nodup := by
    intro files
    rw [List.map_map]
    exact (List.map_id'' (fun _ => rfl) paths).symm ▸ hn
  have hget : ∀ files : String → Bytes, ∀ p ∈ paths,
      PyValue.getKey p (paths.map fun p => (p, PyValue.str (H.sha (files p)))) = some (.str (H.sha (files p))) :=
    fun files p hp => PyValue.getKey_of_mem (hkeys files) (List.mem_map.2 ⟨p, hp, rfl⟩)
  constructor
  · intro h p hp
    have hraw := PyValue.raw_inj.1 (List.append_cancel_right (encode_injective (H.injective h)))
    have hp' := (PyValue.canon_dict (hkeys files) (hkeys files')).1 hraw p
    have hcanon : ∀ x, (PyValue.str x).canon = .str x := fun x => by simp only [PyValue.canon]
    rw [hget files p hp, hget files' p hp, Option.map_some, Option.map_some, hcanon, hcanon] at hp'
    exact H.injective (PyValue.str.inj (Option.some.inj hp'))
  · intro h
    have hmap : (paths.map fun p => (p, PyValue.str (H.sha (files p)))) =
        paths.map fun p => (p, PyValue.str (H.sha (files' p))) :=
      List.map_congr_left fun p hp => by rw [h p hp]
    unfold sourceSet
    rw [hmap]

omit [FloatText] in
theorem current_ok (h : current profile s = .ok files) {p : String} (hp : p ∈ profile.paths) :
    ∃ f, s.files p = some f ∧ f.bytes = files p := by
  unfold current at h
  split_ifs at h with hall
  obtain rfl := Except.ok.inj h
  have hp := List.all_eq_true.1 hall p hp
  cases hread : s.read p with
  | error e => rw [hread] at hp; cases hp
  | ok f =>
    refine ⟨f, read_ok hread, ?_⟩
    show f.bytes = (s.files p).elim [] File.bytes
    rw [read_ok hread]
    rfl

omit [FloatText] in
theorem holds_iff (h : current profile s = .ok files) {p : String} (hp : p ∈ profile.paths) {bytes : Bytes} :
    Holds s.files p bytes ↔ files p = bytes := by
  obtain ⟨f, hf, hbytes⟩ := current_ok h hp
  constructor
  · rintro ⟨f', hf', rfl⟩
    rw [← hbytes, Option.some.inj (hf.symm.trans hf')]
  · intro heq
    exact ⟨f, hf, hbytes.trans heq⟩

omit [FloatText] in
theorem allHold_iff (h : current profile s = .ok files) :
    AllHold profile s.files contents ↔ ∀ p ∈ profile.paths, files p = contents p :=
  forall₂_congr fun _ hp => holds_iff h hp

omit [FloatText] in
theorem allHold_of_same (h : current profile s = .ok files) (hsame : sameFiles profile files contents = true) :
    AllHold profile s.files contents :=
  (allHold_iff h).2 fun p hp => of_decide_eq_true (List.all_eq_true.1 hsame p hp)

theorem allHold_iff_sourceSet (H : Hashing) (contents : String → Bytes) (h : current profile s = .ok files) :
    sourceSet H profile.paths files = sourceSet H profile.paths contents ↔ AllHold profile s.files contents := by
  rw [sourceSet_inj profile.nodup, allHold_iff h]

/-- The owner and the mode of each editable file are those of the bundle. -/
def MetadataOk (b : Bundle profile) (s : Site) : Prop :=
  ∀ p ∈ profile.paths, ∃ f, s.files p = some f ∧ f.metadata = b.metadata p

/-- **What a report says**: `terminal` that the files hold the end and the result is there, `before`
    that they hold the start and the action was not begun or is restored. -/
theorem report_state (h : report H b a s now = .ok r) :
    (r.state = .terminal ↔ AllHold profile s.files (b.target a) ∧ .result a ∈ s.markers ∧ MetadataOk b s) ∧
    (r.state = .before ↔ r.state ≠ .terminal ∧ AllHold profile s.files (b.start a) ∧
      (.intent a ∉ s.markers ∨ .restoreResult a ∈ s.markers) ∧ MetadataOk b s) := by
  unfold report at h
  cases hcurrent : current profile s with
  | error e => rw [hcurrent] at h; cases h
  | ok files =>
    rw [hcurrent] at h
    obtain rfl := Except.ok.inj h
    have htarget := allHold_iff_sourceSet H (b.target a) hcurrent
    have hstart := allHold_iff_sourceSet H (b.start a) hcurrent
    have hmetadata : (profile.paths.all fun p => (s.files p).any fun f => f.metadata = b.metadata p) = true ↔
        MetadataOk b s := by
      unfold MetadataOk
      rw [List.all_eq_true]
      refine forall₂_congr fun p _ => ?_
      rw [Option.any_eq_true]
      simp only [decide_eq_true_eq]
    have hstate : ∀ t u : Bool, ((if t then SourceState.terminal else if u then .before else .uncertain) = .terminal ↔
          t = true) ∧ ((if t then SourceState.terminal else if u then .before else .uncertain) = .before ↔
          ¬ t = true ∧ u = true) := by decide
    obtain ⟨hterminal, hbefore⟩ := hstate
      (decide (sourceSet H profile.paths files = sourceSet H profile.paths (b.target a)) &&
        decide (.result a ∈ s.markers) && profile.paths.all fun p => (s.files p).any fun f => f.metadata = b.metadata p)
      (decide (sourceSet H profile.paths files = sourceSet H profile.paths (b.start a)) &&
        (!decide (.intent a ∈ s.markers) || decide (.restoreResult a ∈ s.markers)) &&
        profile.paths.all fun p => (s.files p).any fun f => f.metadata = b.metadata p)
    refine ⟨hterminal.trans ?_, hbefore.trans (and_congr (not_congr hterminal.symm) ?_)⟩
    · rw [Bool.and_eq_true, Bool.and_eq_true, decide_eq_true_eq, decide_eq_true_eq, htarget, hmetadata, and_assoc]
    · rw [Bool.and_eq_true, Bool.and_eq_true, Bool.or_eq_true, Bool.not_eq_true', decide_eq_false_iff_not,
        decide_eq_true_eq, decide_eq_true_eq, hstart, hmetadata, and_assoc]

end

/-! ## Operations -/

section
variable [FloatText] {H : Hashing} {profile : Profile} {b : Bundle profile} {s : Site} {w : World Site Query}
  {J : Site → Prop} {root : Bool} {pid : ℕ} {a : Action}

/-- A status changes nothing. -/
theorem status_safe (hi : On J w) :
    Safe (On J) (fun r w' => w'.state = w.state ∧ ∃ now, report H b a w.state now = .ok r) (status H b a) w := by
  refine safe_get hi (safe_clock hi fun now => ?_)
  unfold lift
  cases hr : report H b a w.state now with
  | ok r => exact ⟨hi, rfl, now, hr⟩
  | error e => exact hi

theorem commitNew_safe {expiresAt : ℚ} (hw : w.state = s) :
    Safe (On (Stops profile (b.start a) (b.target a) (.intent a) (.result a) s)) (fun _ _ => True)
      (commitNew H b pid a expiresAt) w := by
  have hi : On (Stops profile (b.start a) (b.target a) (.intent a) (.result a) s) w := by
    subst hw
    exact ⟨moved_refl, Or.inl ⟨rfl, rfl⟩⟩
  refine safe_get hi (safe_lift hi fun files hfiles => safe_require hi fun _ => ?_)
  refine writeNew_first hw fun w₁ hw₁ => commitFiles_safe (fun p hp => hp) hw₁ fun w₂ hw₂ => ?_
  refine safe_check hw₂.1 (safe_get hw₂.1 (safe_lift hw₂.1 fun files hfiles => safe_require hw₂.1 fun hsame => ?_))
  refine writeNew_second hw₂ (allHold_of_same hfiles hsame) fun w₃ hw₃ _ => ?_
  exact (status_safe hw₃).mono fun _ _ _ _ => trivial

/-- **A commit**, wherever it stops. -/
theorem commit_safe (hw : w.state = s) :
    Safe (On (Stops profile (b.start a) (b.target a) (.intent a) (.result a) s)) (fun _ _ => True)
      (commit H b root pid a) w := by
  have hi : On (Stops profile (b.start a) (b.target a) (.intent a) (.result a) s) w := by
    subst hw
    exact ⟨moved_refl, Or.inl ⟨rfl, rfl⟩⟩
  refine safe_require hi fun _ => safe_check hi (safe_clock hi fun _ => safe_require hi fun _ => ?_)
  refine safe_get hi (safe_require hi fun _ => safe_readReview hi fun review => safe_clock hi fun _ => ?_)
  refine safe_require hi fun _ => safe_get hi ?_
  split_ifs
  · refine Safe.bind (Safe.mono (status_safe hi) fun r w' hi' _ => ?_)
    exact safe_require hi' fun _ => ⟨hi', trivial⟩
  · exact commitNew_safe hw

/-- **A restoration**, wherever it stops; when it returns, the files hold the start. -/
theorem restoreNew_safe (hw : w.state = s) :
    Safe (On (Stops profile (b.target a) (b.start a) (.restoreIntent a) (.restoreResult a) s))
      (fun _ w' => AllHold profile w'.state.files (b.start a)) (restoreNew H b pid a) w := by
  have hi : On (Stops profile (b.target a) (b.start a) (.restoreIntent a) (.restoreResult a) s) w := by
    subst hw
    exact ⟨moved_refl, Or.inl ⟨rfl, rfl⟩⟩
  refine safe_get hi (safe_lift hi fun files hfiles => safe_require hi fun _ => ?_)
  refine writeNew_first hw fun w₁ hw₁ => restoreFiles_safe (fun p hp => hp) hw₁ fun w₂ hw₂ => ?_
  refine safe_get hw₂.1 (safe_lift hw₂.1 fun files hfiles => safe_require hw₂.1 fun hsame => safe_check hw₂.1 ?_)
  refine writeNew_second hw₂ (allHold_of_same hfiles hsame) fun w₃ hw₃ hall => ?_
  refine (status_safe hw₃).mono fun r w' _ hr => ?_
  rw [hr.1]
  exact hall

/-- The checks before a restoration. -/
theorem restore_lead {r : NativeReceipt} {post : Report → World Site Query → Prop} (hi : On J w)
    (hold : .restoreIntent r.action ∈ w.state.markers → ∀ w', w'.state = w.state →
      Safe (On J) post (status H b r.action) w')
    (hnew : .restoreIntent r.action ∉ w.state.markers → ∀ w', w'.state = w.state →
      Safe (On J) post (restoreNew H b pid r.action) w') :
    Safe (On J) post (restoreAfterRejectedNative H b root pid r) w := by
  refine safe_require hi fun _ => safe_check hi (safe_require hi fun _ => safe_require hi fun _ => ?_)
  refine safe_clock hi fun now => safe_require hi fun _ => safe_get hi ?_
  split_ifs with hmarker
  · exact hold hmarker _ rfl
  · exact hnew hmarker _ rfl

theorem restore_safe {r : NativeReceipt} (hw : w.state = s) :
    Safe (On (Stops profile (b.target r.action) (b.start r.action) (.restoreIntent r.action)
        (.restoreResult r.action) s))
      (fun _ w' => .restoreIntent r.action ∉ s.markers → AllHold profile w'.state.files (b.start r.action))
      (restoreAfterRejectedNative H b root pid r) w := by
  have hi : ∀ w', w'.state = s → On (Stops profile (b.target r.action) (b.start r.action)
      (.restoreIntent r.action) (.restoreResult r.action) s) w' := by
    rintro w' rfl
    exact ⟨moved_refl, Or.inl ⟨rfl, rfl⟩⟩
  refine restore_lead (hi w hw) (fun hmarker w' hw' => ?_) fun _ w' hw' => ?_
  · refine (status_safe (hi w' (hw'.trans hw))).mono fun _ _ _ _ hnone => ?_
    rw [hw] at hmarker
    exact absurd hmarker hnone
  · exact (restoreNew_safe (hw'.trans hw)).mono fun _ _ _ hall _ => hall

/-- Once a restoration was begun, another one only reports. -/
theorem restore_begun {r : NativeReceipt} (hw : w.state = s) (hmarker : .restoreIntent r.action ∈ s.markers) :
    Safe (On (· = s)) (fun _ _ => True) (restoreAfterRejectedNative H b root pid r) w := by
  refine restore_lead hw (fun _ w' hw' => ?_) fun hnone => absurd (hw ▸ hmarker) hnone
  exact (status_safe (J := (· = s)) (hw'.trans hw)).mono fun _ _ _ _ => trivial

/-- A foreign file blocks a restoration before it changes anything. -/
theorem restore_foreign {r : NativeReceipt} (hw : w.state = s) (hmarker : .restoreIntent r.action ∉ s.markers)
    {p : String} (hp : p ∈ profile.paths) (hforeign : Foreign b s.files p) :
    Safe (On (· = s)) (fun _ _ => False) (restoreAfterRejectedNative H b root pid r) w := by
  refine restore_lead hw (fun h => absurd (hw ▸ h) hmarker) fun _ w' hw' => ?_
  have hi : On (· = s) w' := hw'.trans hw
  refine safe_get hi (safe_lift hi fun files hfiles => safe_require hi fun hall => ?_)
  -- the file holds its bytes before or those after, whatever the action
  have hfiles : current profile s = .ok files := by
    rw [hw', hw] at hfiles
    exact hfiles
  have hknown : Holds s.files p (b.before p) ∨ Holds s.files p (b.after p) := by
    rw [holds_iff hfiles hp, holds_iff hfiles hp]
    cases haction : r.action with
    | apply => rw [haction] at hall; exact hall p hp
    | rollback => rw [haction] at hall; exact (hall p hp).symm
  exact absurd hknown (not_or.2 hforeign)

end

/-! ## What the runs keep -/

section
variable {profile : Profile} (b : Bundle profile)

/-- The action that is begun, or whose restoration is. -/
def Operation.commits (a : Action) : Operation → Prop
  | .commit _ _ a' => a' = a
  | _ => False

def Operation.restores (a : Action) : Operation → Prop
  | .restore _ _ r => r.action = a
  | _ => False

/-- What an operation does to a site, wherever it stops. -/
def Effect : Operation → Site → Site → Prop
  | .commit _ _ a => Stops profile (b.start a) (b.target a) (.intent a) (.result a)
  | .restore _ _ r => Stops profile (b.target r.action) (b.start r.action) (.restoreIntent r.action)
      (.restoreResult r.action)
  | .status _ => fun s s' => s' = s

theorem effect_of_run [FloatText] {H : Hashing} {op : Operation} {s : Site} {w : World Site Query}
    (h : Run (op.program H b) ⟨s, []⟩ w) : Effect b op s w.state := by
  cases op with
  | commit root pid a => exact (commit_safe (w := ⟨s, []⟩) rfl).run h
  | restore root pid r => exact (restore_safe (w := ⟨s, []⟩) rfl).run h
  | status a => exact (status_safe (w := ⟨s, []⟩) (J := (· = s)) rfl).run h

structure Sound (o : Observed) : Prop where
  complete : ∀ p, o.site.files p = o.foreign p ∨ Holds o.site.files p (b.before p) ∨ Holds o.site.files p (b.after p)
  begun : ∀ a, .intent a ∉ o.site.markers → ∀ e ∈ o.log, e.operation.commits a → e.after.files = e.before.files
  result : ∀ a, .result a ∈ o.site.markers →
    ∃ e ∈ o.log, e.operation.commits a ∧ AllHold profile e.after.files (b.target a)
  restored : ∀ a, .restoreResult a ∈ o.site.markers →
    ∃ e ∈ o.log, e.operation.restores a ∧ AllHold profile e.after.files (b.start a)

variable {b} {source target : String → Bytes} {m m' : Marker} {s s' : Site}

theorem holds_start {files : String → Option File} {p : String} {a : Action} (h : Holds files p (b.start a p)) :
    Holds files p (b.before p) ∨ Holds files p (b.after p) := by
  cases a with
  | apply => exact Or.inl h
  | rollback => exact Or.inr h

theorem holds_target {files : String → Option File} {p : String} {a : Action} (h : Holds files p (b.target a p)) :
    Holds files p (b.before p) ∨ Holds files p (b.after p) := by
  cases a with
  | apply => exact Or.inr h
  | rollback => exact Or.inl h

/-- An operation changes editable files only that are not foreign, and leaves them complete. -/
theorem Effect.holds {op : Operation} (h : Effect b op s s') (p : String) :
    s'.files p = s.files p ∨
      (p ∈ profile.paths ∧ ¬ Foreign b s.files p ∧ (Holds s'.files p (b.before p) ∨ Holds s'.files p (b.after p))) := by
  cases op with
  | commit root pid a =>
    rcases h.moved p with heq | ⟨hp, hsource, htarget⟩
    · exact Or.inl heq
    · exact Or.inr ⟨hp, fun hf => not_or.2 hf (holds_start hsource), holds_target htarget⟩
  | restore root pid r =>
    rcases h.moved p with heq | ⟨hp, hsource, htarget⟩
    · exact Or.inl heq
    · exact Or.inr ⟨hp, fun hf => not_or.2 hf (holds_target hsource), holds_start htarget⟩
  | status a =>
    rw [show s' = s from h]
    exact Or.inl rfl

/-- A marker that is new. -/
theorem Stops.new_marker (h : Stops profile source target m m' s s') {x : Marker} (hx : x ∈ s'.markers) :
    x ∈ s.markers ∨ x = m ∨ (x = m' ∧ AllHold profile s'.files target) := by
  rcases h.marked with ⟨-, hm⟩ | hm | ⟨hm, hall⟩
  · rw [hm] at hx
    exact Or.inl hx
  · rw [hm, List.mem_append, List.mem_singleton] at hx
    exact hx.imp_right Or.inl
  · rw [hm, List.mem_append, List.mem_pair] at hx
    exact hx.imp_right fun hx => hx.imp_right fun hx => ⟨hx, hall⟩

/-- No marker is removed. -/
theorem Effect.markers {op : Operation} (h : Effect b op s s') {x : Marker} (hx : x ∈ s.markers) : x ∈ s'.markers := by
  have hstops : ∀ {source target : String → Bytes} {m m' : Marker}, Stops profile source target m m' s s' →
      x ∈ s'.markers := by
    intro source target m m' h
    rcases h.marked with ⟨-, hm⟩ | hm | ⟨hm, -⟩
    · rw [hm]; exact hx
    · rw [hm]; exact List.mem_append_left _ hx
    · rw [hm]; exact List.mem_append_left _ hx
  cases op with
  | commit root pid a => exact hstops h
  | restore root pid r => exact hstops h
  | status a =>
    rw [show s' = s from h]
    exact hx

/-- An operation tells its intent before it changes anything. -/
theorem Effect.begun {op : Operation} (h : Effect b op s s') {a : Action} (hop : op.commits a)
    (hnone : .intent a ∉ s'.markers) : s'.files = s.files := by
  cases op with
  | commit root pid a' =>
    obtain rfl : a' = a := hop
    rcases h.marked with ⟨hfiles, -⟩ | hm | ⟨hm, -⟩
    · exact hfiles
    · exact absurd (hm ▸ List.mem_append_right _ List.mem_cons_self) hnone
    · exact absurd (hm ▸ List.mem_append_right _ List.mem_cons_self) hnone
  | restore root pid r => exact hop.elim
  | status a' => exact hop.elim

theorem Effect.result {op : Operation} (h : Effect b op s s') {a : Action} (hx : .result a ∈ s'.markers) :
    .result a ∈ s.markers ∨ (op.commits a ∧ AllHold profile s'.files (b.target a)) := by
  cases op with
  | commit root pid a' =>
    rcases h.new_marker hx with hx | hx | ⟨hx, hall⟩
    · exact Or.inl hx
    · cases hx
    · cases hx
      exact Or.inr ⟨rfl, hall⟩
  | restore root pid r =>
    rcases h.new_marker hx with hx | hx | ⟨hx, -⟩
    · exact Or.inl hx
    · cases hx
    · cases hx
  | status a' =>
    rw [show s' = s from h] at hx
    exact Or.inl hx

theorem Effect.restored {op : Operation} (h : Effect b op s s') {a : Action} (hx : .restoreResult a ∈ s'.markers) :
    .restoreResult a ∈ s.markers ∨ (op.restores a ∧ AllHold profile s'.files (b.start a)) := by
  cases op with
  | commit root pid a' =>
    rcases h.new_marker hx with hx | hx | ⟨hx, -⟩
    · exact Or.inl hx
    · cases hx
    · cases hx
  | restore root pid r =>
    rcases h.new_marker hx with hx | hx | ⟨hx, hall⟩
    · exact Or.inl hx
    · cases hx
    · cases hx
      exact Or.inr ⟨rfl, hall⟩
  | status a' =>
    rw [show s' = s from h] at hx
    exact Or.inl hx

/-- **An operation keeps the site sound.** -/
theorem Sound.operation {o : Observed} (h : Sound b o) {op : Operation} (heffect : Effect b op o.site s') :
    Sound b { o with site := s', log := o.log ++ [⟨op, o.site, s'⟩] } := by
  have hnew : (⟨op, o.site, s'⟩ : Event) ∈ o.log ++ [⟨op, o.site, s'⟩] :=
    List.mem_append_right _ List.mem_cons_self
  refine ⟨fun p => ?_, fun a hnone e he hop => ?_, fun a hx => ?_, fun a hx => ?_⟩
  · rcases heffect.holds p with heq | ⟨-, -, hholds⟩
    · unfold Holds
      rw [heq]
      exact h.complete p
    · exact Or.inr hholds
  · rcases List.mem_append.1 he with he | he
    · exact h.begun a (fun hx => hnone (heffect.markers hx)) e he hop
    · obtain rfl := List.mem_singleton.1 he
      exact heffect.begun hop hnone
  · rcases heffect.result hx with hx | ⟨hop, hall⟩
    · obtain ⟨e, he, hprops⟩ := h.result a hx
      exact ⟨e, List.mem_append_left _ he, hprops⟩
    · exact ⟨_, hnew, hop, hall⟩
  · rcases heffect.restored hx with hx | ⟨hop, hall⟩
    · obtain ⟨e, he, hprops⟩ := h.restored a hx
      exact ⟨e, List.mem_append_left _ he, hprops⟩
    · exact ⟨_, hnew, hop, hall⟩

/-- A change by others. -/
theorem Sound.edit {o : Observed} (h : Sound b o) (p : String) (f : Option File) :
    Sound b { o with
      site := { o.site with files := Function.update o.site.files p f }
      foreign := Function.update o.foreign p f } := by
  refine ⟨fun q => ?_, h.begun, h.result, h.restored⟩
  by_cases hq : q = p
  · subst hq
    exact Or.inl ((Function.update_self q f o.site.files).trans (Function.update_self q f o.foreign).symm)
  · have hfiles : Function.update o.site.files p f q = o.site.files q := Function.update_of_ne hq _ _
    rcases h.complete q with heq | ⟨g, hg, hbytes⟩ | ⟨g, hg, hbytes⟩
    · exact Or.inl (hfiles.trans (heq.trans (Function.update_of_ne hq _ _).symm))
    · exact Or.inr (Or.inl ⟨g, hfiles.trans hg, hbytes⟩)
    · exact Or.inr (Or.inr ⟨g, hfiles.trans hg, hbytes⟩)

theorem sound_of_reachable [FloatText] {H : Hashing} {o : Observed} (ho : (writerMachine H b).Reachable o) :
    Sound b o := by
  refine Machine.Invariant.reachable (p := Sound b) ⟨?_, ?_⟩ ho
  · rintro o ⟨hmarkers, hforeign, hlog⟩
    refine ⟨fun p => Or.inl (by rw [hforeign]), fun a _ e he => ?_, fun a hx => ?_, fun a hx => ?_⟩
    · rw [hlog] at he; cases he
    · rw [hmarkers] at hx; cases hx
    · rw [hmarkers] at hx; cases hx
  · rintro o _ - hsound (⟨op, w, hrun, rfl⟩ | ⟨p, f, rfl⟩)
    · exact hsound.operation (effect_of_run b hrun)
    · exact hsound.edit p f

end

/-! ## Reversible sources -/

section
variable [FloatText] (H : Hashing) {profile : Profile} (b : Bundle profile)

/-- What is promised of the operations on a bundle, as things are. -/
structure Reversible (o : Observed) : Prop where
  /-- A file holds what others left in it, or all of its bytes before or after. -/
  complete : ∀ p, o.site.files p = o.foreign p ∨ Holds o.site.files p (b.before p) ∨ Holds o.site.files p (b.after p)
  /-- Wherever an operation is interrupted, foreign files and files that are not editable are as they were. -/
  spares : ∀ (op : Operation) (w : World Site Query), Run (op.program H b) ⟨o.site, []⟩ w →
    ∀ p, (p ∈ profile.paths → Foreign b o.site.files p) → w.state.files p = o.site.files p
  restores : ∀ root pid (r : NativeReceipt), r.Matches b → .restoreIntent r.action ∉ o.site.markers →
    ∀ rep w, Returns (restoreAfterRejectedNative H b root pid r) ⟨o.site, []⟩ rep w →
      AllHold profile w.state.files (b.start r.action)
  refuses : ∀ root pid (r : NativeReceipt), r.Matches b → .restoreIntent r.action ∉ o.site.markers →
    (∃ p ∈ profile.paths, Foreign b o.site.files p) →
      (∀ w, Run (restoreAfterRejectedNative H b root pid r) ⟨o.site, []⟩ w → w.state = o.site) ∧
      ∀ rep w, ¬ Returns (restoreAfterRejectedNative H b root pid r) ⟨o.site, []⟩ rep w
  /-- A restoration is begun once. -/
  once : ∀ root pid (r : NativeReceipt), .restoreIntent r.action ∈ o.site.markers →
    ∀ w, Run (restoreAfterRejectedNative H b root pid r) ⟨o.site, []⟩ w → w.state = o.site
  terminal : ∀ a rep w, Returns (status H b a) ⟨o.site, []⟩ rep w →
    (rep.state = .terminal ↔
      AllHold profile o.site.files (b.target a) ∧ .result a ∈ o.site.markers ∧ MetadataOk b o.site)
  before : ∀ a rep w, Returns (status H b a) ⟨o.site, []⟩ rep w →
    (rep.state = .before ↔ rep.state ≠ .terminal ∧ AllHold profile o.site.files (b.start a) ∧
      (.intent a ∉ o.site.markers ∨ .restoreResult a ∈ o.site.markers) ∧ MetadataOk b o.site)
  /-- The markers tell what happened. -/
  begun : ∀ a, .intent a ∉ o.site.markers → ∀ e ∈ o.log, e.operation.commits a → e.after.files = e.before.files
  result : ∀ a, .result a ∈ o.site.markers →
    ∃ e ∈ o.log, e.operation.commits a ∧ AllHold profile e.after.files (b.target a)
  restored : ∀ a, .restoreResult a ∈ o.site.markers →
    ∃ e ∈ o.log, e.operation.restores a ∧ AllHold profile e.after.files (b.start a)

variable {H b}

theorem report_of_status {s : Site} {a : Action} {rep : Report} {w : World Site Query}
    (h : Returns (status H b a) ⟨s, []⟩ rep w) : ∃ now, report H b a s now = .ok rep :=
  ((status_safe (J := fun _ => True) trivial).returns h).2

end

/-! ## A restoration that is interrupted -/

theorem toNat_ofNat : ∀ {n : ℕ}, n < 256 → (Char.ofNat n).toNat = n := by decide +kernel

/-- A hash for runs on fixed inputs: a character for each byte. -/
def sampleHashing : Hashing where
  sha bytes := String.ofList (bytes.map fun byte => Char.ofNat byte.toNat)
  injective := by
    have hchar : Function.Injective fun byte : UInt8 => Char.ofNat byte.toNat := by
      intro c d hcd
      have hnat := congrArg Char.toNat hcd
      simp only [toNat_ofNat (UInt8.toNat_lt c), toNat_ofNat (UInt8.toNat_lt d)] at hnat
      exact UInt8.toNat_inj.1 hnat
    intro x y h
    exact List.map_injective_iff.2 hchar (String.ofList_injective h)

def samplePath : String := "nodered/tools/functions/host-observer-facts.js"

def sampleProfile : Profile where
  componentId := "observacao_host"
  paths := [samplePath]
  ownerAuthorizationExpiresAt := 1000
  nodup := List.nodup_singleton _
  bound := by decide

def sampleBundle : Bundle sampleProfile where
  operationId := "aaaaaaaaaaaaaaaaaaaaaaaaaaaaaaaa"
  before _ := [98]
  after _ := [97, 102]
  metadata _ := ⟨0, 0, 0o600⟩
  small _ _ := by decide

def sampleReceipt : NativeReceipt where
  executorTerminal := true
  definitiveNoEffect := true
  state := "rejected_without_effect"
  sessionRevoked := true
  operationId := "aaaaaaaaaaaaaaaaaaaaaaaaaaaaaaaa"
  componentId := "observacao_host"
  action := .apply

section
local instance : FloatText := PyValue.wholeText

def sampleAnswer : ∀ q, Reply q
  | .check => true
  | .clock => (0 : ℚ)
  | .review => some ⟨"aaaaaaaaaaaaaaaaaaaaaaaaaaaaaaaa", sourceSet sampleHashing [samplePath] fun _ => [97, 102], 10⟩

def sampleStart : Observed where
  site := ⟨fun p => if p = samplePath then some ⟨[98], ⟨0, 0, 0o600⟩, 0⟩ else none, fun _ => none, [], 1⟩
  foreign p := if p = samplePath then some ⟨[98], ⟨0, 0, 0o600⟩, 0⟩ else none
  log := []

/-- The run of an operation from what is observed, for some steps. -/
def Observed.after (o : Observed) (op : Operation) (n : ℕ) : Observed :=
  let w := interrupted sampleAnswer n (op.program sampleHashing sampleBundle) ⟨o.site, []⟩
  { o with site := w.state, log := o.log ++ [⟨op, o.site, w.state⟩] }

theorem reachable_after {o : Observed} (ho : (writerMachine sampleHashing sampleBundle).Reachable o)
    (op : Operation) (n : ℕ) : (writerMachine sampleHashing sampleBundle).Reachable (o.after op n) :=
  .step ho (Or.inl ⟨op, _, run_interrupted _ _ _ _, rfl⟩)

theorem reachable_sampleStart : (writerMachine sampleHashing sampleBundle).Reachable sampleStart :=
  .start ⟨rfl, rfl, rfl⟩

/-- The change is committed. -/
def sampleCommitted : Observed := sampleStart.after (.commit true 1 .apply) 100

/-- Its restoration dies after it told its intent. -/
def sampleBegun : Observed := sampleCommitted.after (.restore true 2 sampleReceipt) 5

end

end SmartHome.SourceWriter
