/-
  Runs of the maintenance journal and its controller: processes one after the other, each of which may
  die anywhere, losses of power, and a backend that answers as it likes.
-/
import SmartHome.Lib.Machine
import SmartHome.Maintenance.Dispatch

namespace SmartHome.Maintenance

open Verif Program Mqtt

section
variable [Sha256] {α β : Type} {d d₀ : Dir} {es : List (Dir × Command × Row)} {op : Operation} {id : Hex 32}
  {approval : Hex 64} {post : β → Dir → Prop}

/-! ## The parts of the controller -/

omit [Sha256] in
theorem reads_fallible : fallible.Reads executed d fun _ => True :=
  reads_bind (reads_ask rfl fun _ => reads_require fun _ => trivial)

omit [Sha256] in
theorem reads_reading {read : Files → Except String α} : (reading read).Reads executed d fun a => read d.now = .ok a :=
  reads_bind (reads_fallible.mono fun _ _ => reads_bind (reads_get (reads_lift fun _ ha => ha)))

/-- What `_operation` finds. -/
def Found (d : Dir) (id : Hex 32) (op : Operation) : Prop :=
  d.now.known id = some op ∧ op.Valid ∧ op.operationId = id ∧ op.phaseList.head? = some .begin

theorem reads_operation (hd : d.Sound) : (operation id).Reads executed d fun o => ∀ op, o = some op → Found d id op := by
  refine reads_bind (reads_reading.mono fun o ho => ?_)
  have hknown := Except.ok.inj ((hd.now.find_eq id).symm.trans ho)
  cases o with
  | none => exact reads_pure fun op hop => by cases hop
  | some op =>
    refine reads_bind (reads_require fun hvalid => reads_bind (reads_require fun hbegin => reads_pure ?_))
    rintro op' ⟨⟩
    exact ⟨hknown, hvalid, (hd.now.of_known hknown).1, hbegin⟩

omit [Sha256] in
theorem reads_clock {o : Option Operation} : (clock o).Reads executed d fun _ => True := by
  refine reads_bind (reads_ask rfl fun answer => ?_)
  cases answer with
  | none => trivial
  | some t =>
    obtain ⟨now, domain⟩ := t
    refine reads_bind (reads_require fun _ => ?_)
    cases o with
    | none => exact reads_pure trivial
    | some op => exact reads_bind (reads_require fun _ => reads_bind (reads_require fun _ => reads_pure trivial))

omit [Sha256] in
theorem reads_dispatchInvariants {command : Command} :
    (dispatchInvariants op command).Reads executed d fun _ => op.Allows command := by
  refine reads_bind (reads_require fun hwindow => ?_)
  cases command with
  | stopSource => exact reads_pure hwindow
  | stopConsumer => exact reads_bind (reads_require fun hdrained => reads_pure ⟨hwindow, hdrained⟩)
  | startConsumer =>
    exact reads_bind (reads_require fun hdrained => reads_bind (reads_require fun hstopped =>
      reads_pure ⟨hwindow, hdrained, hstopped⟩))
  | startSource =>
    exact reads_bind (reads_require fun hdrained => reads_bind (reads_require fun hstopped =>
      reads_require fun hready => ⟨hwindow, hdrained, hstopped, hready⟩))

theorem leads_appendFacts {phase : Phase} {facts : Facts} {o : Option Operation} {post : Receipt → Dir → Prop}
    (hd : d.Sound) (h : ∀ e receipt d', e.operationId = id → e.phase = phase → Appended e d receipt d' → post receipt d') :
    (appendFacts approval id phase facts o).Leads executed Grows post d := by
  refine leads_bind ((reads_clock.leads Grows.refl).mono ?_)
  rintro ⟨now, domain⟩ d' ⟨rfl, -⟩
  exact leads_append hd fun receipt d' hd' => h _ receipt d' rfl rfl hd'

theorem Appended.sound {e : Entry} {receipt : Receipt} {d' : Dir} (h : Appended e d receipt d') (hd : d.Sound) : d'.Sound := by
  cases h with
  | duplicate => exact hd
  | recorded hd' => exact hd'

theorem leads_record {phase : Phase} {facts : Facts} {o : Option Operation} {dispatched : Bool} (hd : d.Sound) :
    (record approval id phase facts o dispatched).Leads executed Grows (fun _ _ => True) d := by
  refine leads_bind (leads_appendFacts hd fun e receipt d' _ _ happended => ?_)
  refine leads_bind (((reads_operation (happended.sound hd)).leads Grows.refl).mono ?_)
  rintro o' d'' ⟨rfl, -⟩
  cases o' with
  | none => trivial
  | some op => exact leads_pure trivial

theorem leads_observeFacts {phase : Phase} {purpose : Option Purpose} {o : Option Operation} (hd : d.Sound) :
    (observeFacts approval id phase purpose o).Leads executed Grows (fun _ _ => True) d := by
  refine leads_bind (leads_ask rfl fun _ => leads_check fun _ => leads_bind (leads_ask rfl fun answer => ?_))
  cases answer with
  | value facts => exact leads_record hd
  | unavailable => exact leads_pure trivial
  | raised => trivial

theorem leads_observe {phase : Phase} {head : Option (Hex 64)} {purpose : Option Purpose} (hd : d.Sound) :
    (observe approval id phase head purpose).Leads executed Grows (fun _ _ => True) d := by
  refine leads_check fun _ => leads_bind (((reads_operation hd).leads Grows.refl).mono ?_)
  rintro o d' ⟨rfl, -⟩
  cases o with
  | none =>
    refine leads_check fun _ => leads_reading fun _ _ => leads_check fun _ => ?_
    exact leads_check fun _ => leads_observeFacts hd
  | some op =>
    refine leads_check fun _ => ?_
    by_cases hrecorded : (op.record phase).isSome
    · simp only [if_pos hrecorded]
      exact leads_pure trivial
    · simp only [if_neg hrecorded]
      exact leads_check fun _ => leads_observeFacts hd

theorem leads_observeEffect {command : Command} {dispatched : Bool} (hd : d.Sound) :
    (observeEffect approval id command op dispatched).Leads executed Grows (fun _ _ => True) d := by
  refine leads_bind (leads_ask rfl fun answer => ?_)
  cases answer with
  | value facts => exact leads_record hd
  | unavailable => exact leads_pure trivial
  | raised => trivial

/-! ## Commands -/

theorem grows_tracks (w : World Dir Request) (d' : Dir) (h : Tracks (Once d₀) executed w) (hgrows : Grows w.state d') :
    Tracks (Once d₀) executed (w.put d') := Once.grows h hgrows

/-- What is known of the state may be used. -/
theorem keeps_once {p : Prog α} (h : Once d₀ d es → Keeps (Tracks (Once d₀) executed) executed p d es) :
    Keeps (Tracks (Once d₀) executed) executed p d es := by
  intro w hw hat
  obtain ⟨rfl, rfl⟩ := hat
  exact h hw w hw ⟨rfl, rfl⟩

theorem keeps_leads {p : Prog α} {post : α → Dir → Prop} (h : p.Leads executed Grows post d) :
    Keeps (Tracks (Once d₀) executed) executed p d es := by
  rw [← bind_pure p]
  exact keeps_lead tracks_ignores grows_tracks h fun _ _ _ => keeps_pure

/-- A command that has no intent: the intent is recorded, and then it is executed. -/
theorem keeps_dispatchFresh {command : Command} (h : Once d₀ d es) (hfound : Found d id op)
    (hlast : op.lastPhase = some command.before) (hfresh : op.record command.intent = none) (hallows : op.Allows command) :
    Keeps (Tracks (Once d₀) executed) executed (dispatchFresh approval id command op) d es := by
  obtain ⟨hknown, hvalid, hid, hbegin⟩ := hfound
  refine keeps_ask tracks_ignores rfl fun answer => ?_
  cases answer with
  | unavailable => exact keeps_pure
  | raised => exact keeps_fail
  | value facts =>
    have happend : (appendFacts approval id command.intent facts (some op)).Leads executed Grows (fun _ d' =>
        ∃ e receipt, e.operationId = id ∧ e.phase = command.intent ∧ Appended e d receipt d') d :=
      leads_appendFacts h.sound fun e receipt d' he hphase happended => ⟨e, receipt, he, hphase, happended⟩
    refine keeps_lead tracks_ignores grows_tracks happend ?_
    rintro _ d' ⟨e, receipt, he, hphase, happended⟩
    refine keeps_once fun h' => keeps_read tracks_ignores (reads_operation h'.sound) fun o ho => ?_
    cases o with
    | none => exact keeps_fail
    | some longer =>
      obtain ⟨hlonger, hvalid', hid', -⟩ := ho longer rfl
      cases hrow : longer.record command.intent with
      | none => simp only [hrow]; exact keeps_fail
      | some row =>
        simp only [hrow]
        obtain ⟨hmem, hintent⟩ := Operation.record_eq_some hrow
        cases happended with
        | duplicate hop hrow' hphase' =>
          -- a duplicate would be in an operation that has no intent
          rw [he, hknown] at hop
          obtain rfl := Option.some.inj hop
          have hnone := List.find?_eq_none.1 hfresh _ hrow'
          exact absurd (hphase'.trans hphase) (by simpa using hnone)
        | @recorded _ op' row' _ hsince hop hrecords hphase' =>
          rw [he] at hop hrecords
          obtain rfl := Option.some.inj (hop.symm.trans hlonger)
          rw [hknown] at hrecords
          -- the intent is the record that was added
          have hsame : row = row' := by
            rw [hrecords, List.mem_append, List.mem_singleton] at hmem
            rcases hmem with hold | hnew
            · exact absurd hintent (by simpa using List.find?_eq_none.1 hfresh row hold)
            · exact hnew
          subst hsame
          have hrowid : row.body.operationId = id := hid' ▸ hvalid'.operationId hmem
          have hexecute : Once d₀ d' (es ++ [(d', command, row)]) := by
            refine h'.execute hsince hvalid (hid.trans hrowid.symm) (hvalid.place hbegin hlast) hallows hintent
              (hrowid ▸ hop) hrecords fun e' he' hsame => ?_
            obtain ⟨o, ho, hgrown⟩ := h.kept e' he' d.now mem_all
            rw [hsame, hrowid, hknown] at ho
            obtain rfl := Option.some.inj ho
            exact hgrown
          refine keeps_effect rfl hexecute fun answer => ?_
          cases answer with
          | done => exact keeps_leads (leads_observeEffect h'.sound)
          | rejected => exact keeps_pure
          | raised => exact keeps_pure

theorem keeps_dispatch {command : Command} {head : Option (Hex 64)} (h : Once d₀ d es) :
    Keeps (Tracks (Once d₀) executed) executed (dispatch approval id command head) d es := by
  refine keeps_read tracks_ignores (reads_operation h.sound) fun o ho => ?_
  cases o with
  | none => exact keeps_fail
  | some op =>
    have hfound := ho op rfl
    by_cases hafter : (op.record command.after).isSome
    · simp only [if_pos hafter]
      exact keeps_pure
    · simp only [if_neg hafter]
      refine keeps_require fun hlast => keeps_require fun _ => keeps_read tracks_ignores reads_dispatchInvariants
        fun _ hallows => keeps_ask tracks_ignores rfl fun _ => keeps_require fun _ => ?_
      by_cases hfresh : (op.record command.intent).isNone
      · rw [if_pos hfresh]
        refine keeps_dispatchFresh h hfound (hlast.resolve_right fun hintent => ?_) (Option.isNone_iff_eq_none.1 hfresh) hallows
        exact Operation.record_of_last hintent (Option.isNone_iff_eq_none.1 hfresh)
      · rw [if_neg hfresh]
        exact keeps_leads (leads_observeEffect h.sound)

/-! ## Runs -/

/-- Appends by any caller and calls of the controller, each of which may stop anywhere, and losses of
    power. -/
inductive Step : World Dir Request → World Dir Request → Prop
  | append {w w' : World Dir Request} (approval : Hex 64) (e : Entry) : Run (append approval e) w w' → Step w w'
  | observe {w w' : World Dir Request} (approval : Hex 64) (id : Hex 32) (phase : Phase) (head : Option (Hex 64))
      (purpose : Option Purpose) : Run (observe approval id phase head purpose) w w' → Step w w'
  | dispatch {w w' : World Dir Request} (approval : Hex 64) (id : Hex 32) (command : Command) (head : Option (Hex 64)) :
      Run (dispatch approval id command head) w w' → Step w w'
  | lose {w : World Dir Request} {f : Files} : f ∈ w.state.all → Step w (w.put ⟨f, []⟩)

/-- A directory without files. -/
def noFiles : Dir := ⟨⟨none, none, fun _ => none⟩, []⟩

def maintenance : Machine (World Dir Request) where
  start w := w = ⟨noFiles, []⟩
  step := Step

theorem sound_noFiles : noFiles.Sound := by
  intro f hf
  obtain rfl := List.mem_singleton.1 hf
  refine ⟨?_, ?_, ?_, Nat.le_refl _, ?_, ?_, ?_, ?_⟩
  · rintro s ⟨⟩
  · rintro ix ⟨⟩
  · rintro r ⟨⟩
  · rintro s ⟨⟩
  · rintro r ⟨⟩
  · rintro r ⟨⟩
  · rintro id op ⟨⟩

/-- What one step does, whatever was executed before it. -/
theorem once_step {w w' : World Dir Request} (h : Tracks (Once d₀) executed w) (hstep : Step w w') :
    Tracks (Once w.state) executed w' := by
  have hagain : Tracks (Once w.state) executed w := Once.again h
  have hat : At executed w.state (w.calls.filterMap executed) w := ⟨rfl, rfl⟩
  have hsound : w.state.Sound := Once.sound h
  cases hstep with
  | append approval e hrun =>
    have hleads : (append approval e).Leads executed Grows (fun _ _ => True) w.state :=
      leads_append hsound fun _ _ _ => trivial
    exact (keeps_leads hleads).run hagain hat hrun
  | observe approval id phase head purpose hrun => exact (keeps_leads (leads_observe hsound)).run hagain hat hrun
  | dispatch approval id command head hrun => exact (keeps_dispatch hagain).run hagain hat hrun
  | @lose f hf =>
    refine Once.grows hagain fun _ => ⟨fun g hg => ?_, fun g hg => ?_⟩
    · rw [List.mem_singleton.1 hg]
      exact hsound f hf
    · rw [List.mem_singleton.1 hg]
      exact ⟨f, hf, .refl f⟩

theorem once : maintenance.Invariant (Tracks (Once noFiles) executed) where
  start w hw := by
    subst hw
    exact ⟨sound_noFiles, .refl _, fun _ he => (by cases he), fun _ he => (by cases he), List.Pairwise.nil⟩
  step w w' _ h hstep := by
    have hlast := once_step h hstep
    exact ⟨hlast.sound, (Once.grown h).trans hlast.grown, hlast.dispatched, hlast.kept, hlast.ordered⟩

variable {w w' : World Dir Request}

/-- **No command is executed twice, or out of order.**  Each is executed when its intent is recorded
    and durable, after the phases before it and where their facts allow it. -/
theorem commands_once (h : maintenance.Reachable w) :
    (∀ e ∈ w.calls.filterMap executed, Dispatched e) ∧
    ((w.calls.filterMap executed).map fun e => (idOf e, e.2.1)).Nodup ∧
    (w.calls.filterMap executed).Pairwise fun e e' => idOf e = idOf e' → e.2.1.place < e'.2.1.place := by
  have honce : Once noFiles w.state (w.calls.filterMap executed) := once.reachable h
  refine ⟨honce.dispatched, ?_, honce.ordered⟩
  rw [List.Nodup, List.pairwise_map]
  refine honce.ordered.imp fun {e e'} hlt heq => ?_
  obtain ⟨hid, hcommand⟩ := Prod.mk.inj heq
  have hplace := hlt hid
  rw [hcommand] at hplace
  exact Nat.lt_irrefl _ hplace

/-- **The journal forgets nothing.**  Whatever stops it, every identity is found with what is known of
    it; and whatever a loss of power leaves later continues every operation of something that one could
    have left before, and operations that had ended as they were. -/
theorem operations_kept (h : maintenance.Reachable w) (hrun : Relation.ReflTransGen Step w w') :
    (∀ g ∈ w'.state.all, ∀ id, g.find id = .ok (g.known id)) ∧
    ∀ g ∈ w'.state.all, ∃ f ∈ w.state.all, ∀ id op, f.known id = some op →
      ∃ op', g.known id = some op' ∧ op'.Valid ∧ op'.approval = op.approval ∧ op.records <+: op'.records ∧
        ((∃ phase ∈ op.lastPhase, phase ∈ ended) → op' = op) := by
  have hw : Tracks (Once w.state) executed w := Once.again (once.reachable h)
  have hall : Tracks (Once w.state) executed w' := by
    induction hrun with
    | refl => exact hw
    | tail _ hstep ih =>
      have hlast := once_step ih hstep
      exact ⟨hlast.sound, (Once.grown ih).trans hlast.grown, hlast.dispatched, hlast.kept, hlast.ordered⟩
  refine ⟨fun g hg id => (Once.sound hall g hg).find_eq id, fun g hg => ?_⟩
  obtain ⟨hsound, hext⟩ := Once.grown hall (Once.sound hw)
  obtain ⟨f, hf, hfg⟩ := hext g hg
  refine ⟨f, hf, fun id op hop => ?_⟩
  obtain ⟨op', hop', hid, happroval, hrecords⟩ := hfg id op hop
  have hvalid := ((hsound g hg).of_known hop').2
  exact ⟨op', hop', hvalid, happroval, hrecords, fun hended => hvalid.eq_of_ended hrecords hid happroval hended⟩

end
end SmartHome.Maintenance
