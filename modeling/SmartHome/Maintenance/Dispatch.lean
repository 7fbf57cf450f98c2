/-
  Commands are executed at most once and in order, each after its intent is durable.

  The invariant `Once` is about every state that a loss of power may leave: it knows the records that
  were there when a command was executed, so no process that runs later executes it again.
-/
import SmartHome.Maintenance.Append
import SmartHome.Maintenance.Controller

namespace SmartHome.Maintenance

open Verif Program Mqtt

/-! ## Places -/

/-- How many records there are before the intent of a command. -/
def Command.place (command : Command) : ℕ := phases.idxOf command.intent

theorem place_of_last {n : ℕ} {command : Command} (hn : n ≤ phases.length + 1)
    (h : (phases.take n).getLast? = some command.before) : n = command.place := by
  revert n
  cases command <;> decide

section
variable [Sha256] {op : Operation} {first : Row}

/-- The phases of an operation that no exit has ended. -/
theorem Operation.RowsValid.phases {i : ℕ} {previous : Option Row} {rows : List Row}
    (h : op.RowsValid first i previous rows) (hlast : ∀ r ∈ rows.getLast?, r.body.phase ∉ exits) :
    rows.map (fun r => r.body.phase) = ((path op.phaseList).drop i).take rows.length := by
  induction rows generalizing i previous with
  | nil => rfl
  | cons row rows ih =>
    obtain ⟨⟨-, -, -, -, hexit, hpath, -, -⟩, hrest⟩ := h
    have hphase : row.body.phase ∉ exits := by
      intro hmem
      have hempty : rows = [] := List.isEmpty_iff.1 (hexit hmem).2.1
      subst hempty
      exact hlast row rfl hmem
    have hrow := hpath hphase
    obtain ⟨hlt, hget⟩ := List.getElem?_eq_some_iff.1 hrow
    rw [List.drop_eq_getElem_cons hlt, List.map_cons, List.length_cons, List.take_succ_cons, hget]
    refine congrArg _ (ih hrest fun r hr => ?_)
    cases rows with
    | nil => cases hr
    | cons r' rows => exact hlast r ((List.getLast?_cons_cons).trans hr)

omit [Sha256] in
theorem Operation.record_of_last {phase : Phase} (h : op.lastPhase = some phase) : op.record phase ≠ none := by
  intro hnone
  rw [Operation.lastPhase, Operation.phaseList, List.getLast?_map] at h
  obtain ⟨r, hr, hphase⟩ := Option.map_eq_some_iff.1 h
  exact absurd hphase (by simpa using List.find?_eq_none.1 hnone r (List.mem_of_getLast? hr))

theorem Operation.RowsValid.operationId {i : ℕ} {previous : Option Row} {rows : List Row} {row : Row}
    (h : op.RowsValid first i previous rows) (hrow : row ∈ rows) : row.body.operationId = op.operationId := by
  induction rows generalizing i previous with
  | nil => cases hrow
  | cons r rows ih =>
    rcases List.mem_cons.1 hrow with rfl | hrow
    · exact h.1.1.1
    · exact ih h.2 hrow

theorem Operation.Valid.operationId {row : Row} (h : op.Valid) (hrow : row ∈ op.records) :
    row.body.operationId = op.operationId := by
  obtain ⟨-, first, -, hrows⟩ := h
  exact hrows.operationId hrow

/-- The phases of an operation before a command. -/
theorem Operation.Valid.place (h : op.Valid) (hbegin : op.phaseList.head? = some .begin) {command : Command}
    (hlast : op.lastPhase = some command.before) :
    op.phaseList = phases.take op.records.length ∧ op.records.length = command.place := by
  obtain ⟨hlen, first, -, hrows⟩ := h
  have hexit : ∀ r ∈ op.records.getLast?, r.body.phase ∉ exits := by
    intro r hr
    rw [Operation.lastPhase, Operation.phaseList, List.getLast?_map, show op.records.getLast? = some r from hr] at hlast
    have hphase : r.body.phase = command.before := Option.some.inj hlast
    rw [hphase]
    cases command <;> decide
  have hpath : path op.phaseList = phases := by
    cases hlist : op.phaseList with
    | nil => rw [hlist] at hbegin; cases hbegin
    | cons p ps =>
      rw [hlist] at hbegin
      obtain rfl := Option.some.inj hbegin
      rfl
  have hphases : op.phaseList = phases.take op.records.length := by
    have hall := hrows.phases hexit
    rw [hpath, List.drop_zero] at hall
    exact hall
  refine ⟨hphases, place_of_last hlen ?_⟩
  rw [← hphases]
  exact hlast

/-! ## Executed commands -/

/-- The operation of an executed command. -/
def idOf (e : Dir × Command × Row) : Hex 32 := e.2.2.body.operationId

/-- The records that were there when a command was executed. -/
def recordsOf (e : Dir × Command × Row) : List Row := (e.1.now.known (idOf e)).elim [] Operation.records

/-- A command as it may be executed: its intent is the last record, durable, and follows the records
    that allow it. -/
structure Dispatched (e : Dir × Command × Row) : Prop where
  durable : e.1.since = []
  allowed : ∃ op : Operation, op.Valid ∧ op.operationId = idOf e ∧ op.phaseList = phases.take e.2.1.place ∧
    op.Allows e.2.1 ∧ recordsOf e = op.records ++ [e.2.2]
  intent : e.2.2.body.phase = e.2.1.intent

/-- Since the directory `d₀` nothing is forgotten, and the commands `es` were executed once, in order. -/
structure Once (d₀ d : Dir) (es : List (Dir × Command × Row)) : Prop where
  sound : d.Sound
  grown : Grows d₀ d
  dispatched : ∀ e ∈ es, Dispatched e
  kept : ∀ e ∈ es, ∀ f ∈ d.all, ∃ op, f.known (idOf e) = some op ∧ recordsOf e <+: op.records
  ordered : es.Pairwise fun e e' => idOf e = idOf e' → e.2.1.place < e'.2.1.place

section
variable {d₀ d : Dir} {es : List (Dir × Command × Row)}

theorem Once.grows {d' : Dir} (h : Once d₀ d es) (hgrows : Grows d d') : Once d₀ d' es := by
  obtain ⟨hsound, hext⟩ := hgrows h.sound
  refine ⟨hsound, h.grown.trans hgrows, h.dispatched, fun e he g hg => ?_, h.ordered⟩
  obtain ⟨f, hf, hfg⟩ := hext g hg
  obtain ⟨op, hop, hrecords⟩ := h.kept e he f hf
  obtain ⟨op', hop', -, -, hrecords'⟩ := hfg _ op hop
  exact ⟨op', hop', hrecords.trans hrecords'⟩

theorem Once.again (h : Once d₀ d es) : Once d d es := ⟨h.sound, .refl d, h.dispatched, h.kept, h.ordered⟩

/-- **One more command.** -/
theorem Once.execute {command : Command} {row : Row} {longer : Operation}
    (h : Once d₀ d es) (hsince : d.since = []) (hvalid : op.Valid) (hid : op.operationId = row.body.operationId)
    (hplace : op.phaseList = phases.take op.records.length ∧ op.records.length = command.place)
    (hallows : op.Allows command) (hintent : row.body.phase = command.intent)
    (hknown : d.now.known row.body.operationId = some longer) (hlonger : longer.records = op.records ++ [row])
    (hbefore : ∀ e ∈ es, idOf e = row.body.operationId → recordsOf e <+: op.records) :
    Once d₀ d (es ++ [(d, command, row)]) := by
  have hrecords : recordsOf (d, command, row) = op.records ++ [row] := by
    rw [recordsOf, show d.now.known (idOf (d, command, row)) = _ from hknown]
    exact hlonger
  refine ⟨h.sound, h.grown, fun e he => ?_, fun e he f hf => ?_, ?_⟩
  · rw [List.mem_append, List.mem_singleton] at he
    rcases he with he | rfl
    · exact h.dispatched e he
    · exact ⟨hsince, ⟨op, hvalid, hid, hplace.1.trans (by rw [hplace.2]), hallows, hrecords⟩, hintent⟩
  · rw [List.mem_append, List.mem_singleton] at he
    rcases he with he | rfl
    · exact h.kept e he f hf
    · rw [Dir.all, hsince, List.mem_singleton] at hf
      subst hf
      exact ⟨longer, hknown, by rw [hrecords, hlonger]⟩
  · refine List.pairwise_append.2 ⟨h.ordered, List.pairwise_singleton _ _, fun e he e' he' hsame => ?_⟩
    obtain rfl := List.mem_singleton.1 he'
    -- the records of the earlier command end before the new intent
    obtain ⟨op₀, -, -, hphases, -, hrecords₀⟩ := (h.dispatched e he).allowed
    have hlen : op₀.records.length = e.2.1.place := by
      have hmap := congrArg List.length hphases
      rw [Operation.phaseList, List.length_map, List.length_take] at hmap
      rw [hmap]
      have hle : e.2.1.place ≤ phases.length := by cases e.2.1 <;> decide
      exact Nat.min_eq_left hle
    have hgrown := (hbefore e he hsame).length_le
    rw [hrecords₀, List.length_append, List.length_singleton, hlen, hplace.2] at hgrown
    exact hgrown

end
end
end SmartHome.Maintenance
