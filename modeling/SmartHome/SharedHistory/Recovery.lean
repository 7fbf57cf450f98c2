/-
  What the history gives back after torn appends.

  An append writes blindly after whatever the file ends with.  While every append starts on a
  fresh line, what `readTurns` returns are the turns whose text was written completely and that
  no `clearTurns` removed, each by its last text and in the order of their first
  (`turns_recovered`).  An append after a torn one shares its line, and both are lost
  (`turn_lost`).
-/
import SmartHome.SharedHistory.Store

namespace SmartHome.SharedHistory

open Verif

/-! ## What should be read -/

/-- The turn belongs to the conversation. -/
def Turn.In (t : Turn) (agent conversationId : String) : Prop :=
  t.agent = .str agent ∧ t.conversationId = .str conversationId

instance (t : Turn) (agent conversationId : String) : Decidable (t.In agent conversationId) :=
  inferInstanceAs (Decidable (_ ∧ _))

/-- The turns whose text was written completely and that were not cleared since. -/
def keep (log : List Turn) : Op → List Turn
  | .append t written => if (utf8 t.text).length ≤ written then log ++ [t] else log
  | .clear agent conversationId =>
    if agent = "" ∨ conversationId = "" then log
    else log.filter fun t => ¬ t.In agent conversationId

def kept (ops : List Op) : List Turn := ops.foldl keep []

/-- An append that writes anything starts on a fresh line. -/
def Op.Fresh (file : File) : Op → Prop
  | .append _ written => written = 0 ∨ file.getD [] = [] ∨ (file.getD []).getLast? = some 10
  | .clear _ _ => True

/-- Every step of the run does. -/
def FreshRun (ops : List Op) : Prop := ∀ pre op, pre ++ [op] <+: ops → op.Fresh (run pre)

/-! ## Lines -/

/-- One line of text. -/
def OneLine (l : List Char) : Prop := ∀ c ∈ l, 32 ≤ c.toNat

theorem OneLine.ne {l : List Char} (h : OneLine l) {c : Char} (hc : c.toNat < 32) : c ∉ l :=
  fun hm => absurd (h c hm) (by omega)

theorem splitLines_cons {c : Char} (h1 : c ≠ '\r') (h2 : c ≠ '\n') {cs l : List Char}
    {ls : List (List Char)} (h : splitLines cs = l :: ls) : splitLines (c :: cs) = (c :: l) :: ls := by
  rw [splitLines, h]
  · rintro _ rfl
    exact absurd rfl h1
  · exact h2

theorem splitLines_append {l : List Char} (hl : OneLine l) {cs l' : List Char} {ls : List (List Char)}
    (h : splitLines cs = l' :: ls) : splitLines (l ++ cs) = (l ++ l') :: ls := by
  induction l with
  | nil => exact h
  | cons c l ih =>
    have hc : ∀ {e : Char}, e.toNat < 32 → c ≠ e := by
      rintro e he rfl
      exact absurd (hl c List.mem_cons_self) (by omega)
    exact splitLines_cons (hc (by decide)) (hc (by decide)) (ih fun e he => hl e (List.mem_cons_of_mem _ he))

/-- The bytes of lines, each with its end. -/
def rowsText (rows : List (List Char)) : List Char := rows.flatMap fun l => l ++ ['\n']

theorem splitLines_rows {rows : List (List Char)} (h : ∀ l ∈ rows, OneLine l) {t : List Char}
    (ht : OneLine t) : splitLines (rowsText rows ++ t) = rows ++ [t] := by
  induction rows with
  | nil =>
    have h0 : splitLines [] = [] :: [] := by rw [splitLines]
    simpa [rowsText] using splitLines_append ht h0
  | cons l rows ih =>
    have hrest : splitLines ('\n' :: (rowsText rows ++ t)) = [] :: (rows ++ [t]) := by
      rw [splitLines, ih fun l' hl' => h l' (List.mem_cons_of_mem _ hl')]
    have := splitLines_append (h l List.mem_cons_self) hrest
    simpa [rowsText] using this

theorem intercalate_rows {rows : List (List Char)} :
    (if rows = [] then [] else List.intercalate ['\n'] rows ++ ['\n']) = rowsText rows := by
  induction rows with
  | nil => rfl
  | cons l rows ih =>
    cases rows with
    | nil => simp [rowsText, List.intercalate]
    | cons l' rows =>
      rw [if_neg (List.cons_ne_nil _ _)] at ih ⊢
      simp only [rowsText, List.flatMap_cons] at ih ⊢
      rw [← ih]
      simp [List.intercalate, List.intersperse]

/-! ## Texts of turns -/

/-- What a reader finds in a line. -/
def record (line : List Char) : Option Json := if isBlank line then none else parseLine line

@[simp] theorem record_nil : record [] = none := rfl

theorem oneLine_text (t : Turn) : OneLine t.text := Json.render_printable _

theorem record_text (t : Turn) : record t.text = some t.toJson := by
  have hblank : isBlank t.text = false := by
    have hopen : isJsSpace '{' = false := by decide
    rw [isBlank, Turn.text, Turn.toJson, Json.render, List.all_cons, hopen, Bool.false_and]
  rw [record, hblank, parseLine, Turn.text, Json.parse_render]
  rfl

theorem newline_notMem_text (t : Turn) (n : ℕ) : (10 : UInt8) ∉ (utf8 t.text).take n := by
  intro h
  have hc := mem_utf8 (by decide) (List.mem_of_mem_take h)
  exact (oneLine_text t).ne (by decide) hc

theorem record_none {l : List Char} (h : Json.parse l = none) : record l = none := by
  rw [record, parseLine, h]
  split <;> rfl

/-- A text that is cut short is one line in which a reader finds nothing. -/
theorem cut_text (t : Turn) {n : ℕ} (h : n < (utf8 t.text).length) :
    OneLine (decodeUtf8 ((utf8 t.text).take n)) ∧ record (decodeUtf8 ((utf8 t.text).take n)) = none := by
  obtain ⟨k, hk, hcut⟩ := decodeUtf8_take h
  have hline : OneLine (t.text.take k) := fun c hc => oneLine_text t c (List.mem_of_mem_take hc)
  rcases hcut with hcut | hcut <;> rw [hcut]
  · exact ⟨hline, record_none (Json.parse_take_object _ hk)⟩
  · refine ⟨fun c hc => ?_, record_none ?_⟩
    · rcases List.mem_append.1 hc with hc | hc
      · exact hline c hc
      · rw [List.mem_singleton.1 hc]
        decide
    · exact Json.parse_take_object_append _ hk (by decide) (by decide +kernel)

/-! ## The file of a run -/

/-- The file holds whole lines and an unended one, and a reader finds the log in them. -/
structure Layout (file : File) (log : List Turn) (rows : List (List Char)) (tail : List UInt8) : Prop where
  bytes : file.getD [] = utf8 (rowsText rows) ++ tail
  rows_line : ∀ l ∈ rows, OneLine l
  tail_line : OneLine (decodeUtf8 tail)
  unended : (10 : UInt8) ∉ tail
  records : (rows ++ [decodeUtf8 tail]).filterMap record = log.map Turn.toJson

/-- The file has a layout with the log. -/
def Holds (file : File) (log : List Turn) : Prop := ∃ rows tail, Layout file log rows tail

theorem holds_none : Holds none [] :=
  ⟨[], [], rfl, by simp, by simp [OneLine], by simp, by decide⟩

theorem Layout.lines {bs : List UInt8} {log : List Turn} {rows : List (List Char)} {tail : List UInt8}
    (h : Layout (some bs) log rows tail) : splitLines (decodeUtf8 bs) = rows ++ [decodeUtf8 tail] := by
  have hb : bs = utf8 (rowsText rows) ++ tail := h.bytes
  rw [hb, decodeUtf8_append, splitLines_rows h.rows_line h.tail_line]

/-- A file that is empty or ends a line has no unended one. -/
theorem Layout.tail_nil {file : File} {log : List Turn} {rows : List (List Char)} {tail : List UInt8}
    (h : Layout file log rows tail) (hf : file.getD [] = [] ∨ (file.getD []).getLast? = some 10) :
    tail = [] := by
  rw [h.bytes] at hf
  rcases hf with hf | hf
  · exact (List.append_eq_nil_iff.1 hf).2
  · by_contra hne
    rw [List.getLast?_append_of_ne_nil _ hne] at hf
    exact h.unended (List.mem_of_getLast? hf)

theorem Layout.records_rows {file : File} {log : List Turn} {rows : List (List Char)}
    (h : Layout file log rows []) : rows.filterMap record = log.map Turn.toJson := by
  have hr := h.records
  rwa [List.filterMap_append, decodeUtf8_nil, List.filterMap_cons_none record_nil, List.filterMap_nil,
    List.append_nil] at hr

/-- Where there is no file there is no turn. -/
theorem Layout.of_none {log : List Turn} {rows : List (List Char)} {tail : List UInt8}
    (h : Layout none log rows tail) : log = [] := by
  obtain ⟨hrows, htail⟩ := List.append_eq_nil_iff.1 h.bytes.symm
  subst htail
  have hlog := h.records_rows
  cases rows with
  | nil => exact List.map_eq_nil_iff.1 hlog.symm
  | cons l rows =>
    have hlen := congrArg List.length hrows
    simp [rowsText] at hlen
    have := Char.utf8Size_pos '\n'
    omega

/-- **An append on a fresh line** adds its turn if the turn's text is complete. -/
theorem holds_append {file : File} {log : List Turn} {t : Turn} {n : ℕ} (h : Holds file log)
    (hf : (Op.append t n).Fresh file) : Holds (appendTurn file t n) (keep log (.append t n)) := by
  have hpos : 0 < (utf8 t.text).length := by
    simp [Turn.text, Turn.toJson, Json.render, Char.utf8Size_pos]
  obtain ⟨rows, tail, h⟩ := h
  rcases hf with rfl | hf
  · refine ⟨rows, tail, ?_⟩
    rw [keep, if_neg (by omega)]
    exact { h with bytes := by simpa [appendTurn] using h.bytes }
  · obtain rfl := h.tail_nil hf
    have hbytes : (appendTurn file t n).getD [] = utf8 (rowsText rows) ++ (utf8 (t.text ++ ['\n'])).take n := by
      rw [appendTurn, Option.getD_some, h.bytes, List.append_nil]
    rw [utf8_append, List.take_append] at hbytes
    rcases Nat.lt_trichotomy n (utf8 t.text).length with hn | hn | hn
    · -- torn inside the text
      obtain ⟨hline, hrec⟩ := cut_text t hn
      rw [Nat.sub_eq_zero_of_le hn.le, List.take_zero, List.append_nil] at hbytes
      rw [keep, if_neg (by omega)]
      refine ⟨rows, _, hbytes, h.rows_line, hline, newline_notMem_text t n, ?_⟩
      rw [List.filterMap_append, h.records_rows]
      simp [hrec]
    · -- only the end of the line is missing
      rw [hn, Nat.sub_self, List.take_zero, List.append_nil, List.take_length] at hbytes
      rw [keep, if_pos hn.ge]
      refine ⟨rows, _, by rw [hn]; exact hbytes, h.rows_line, ?_, ?_, ?_⟩
      · rw [decodeUtf8_utf8]
        exact oneLine_text t
      · simpa using newline_notMem_text t (utf8 t.text).length
      · rw [List.filterMap_append, h.records_rows, decodeUtf8_utf8]
        simp [record_text]
    · have hend : (utf8 ['\n']).take (n - (utf8 t.text).length) = utf8 ['\n'] :=
        List.take_of_length_le (by
          have : (utf8 ['\n']).length = 1 := rfl
          omega)
      rw [List.take_of_length_le hn.le, hend, ← utf8_append] at hbytes
      rw [keep, if_pos hn.le]
      refine ⟨rows ++ [t.text], [], ?_, ?_, by simp [OneLine], by simp, ?_⟩
      · rw [hbytes]
        simp [rowsText]
      · simp only [List.mem_append, List.mem_singleton]
        rintro l (hl | rfl)
        · exact h.rows_line l hl
        · exact oneLine_text t
      · rw [List.filterMap_append, List.filterMap_append, h.records_rows]
        simp [record_text]

/-- A cleared line holds a turn of the conversation. -/
theorem cleared_iff (agent conversationId : String) {t : Turn} {l : List Char}
    (h : parseLine l = some t.toJson) : cleared agent conversationId l = decide (t.In agent conversationId) := by
  have ha : t.toJson.get? "agent" = some t.agent := by simp [Turn.toJson, Json.get?]
  have hc : t.toJson.get? "conversation_id" = some t.conversationId := by simp [Turn.toJson, Json.get?]
  rw [Bool.eq_iff_iff]
  simp only [cleared, h, ha, hc, Option.some.injEq, Bool.and_eq_true, decide_eq_true_iff]
  rfl

theorem record_of_blank {l : List Char} (h : isBlank l = true) : record l = none := by
  rw [record, h]
  rfl

theorem parseLine_of_record {l : List Char} {j : Json} (h : record l = some j) : parseLine l = some j := by
  rw [record] at h
  split at h
  · cases h
  · exact h

/-- What the lines that `clearTurns` retains hold. -/
theorem records_retained {agent conversationId : String} {ls : List (List Char)} {log : List Turn}
    (h : ls.filterMap record = log.map Turn.toJson) :
    ((ls.filter fun l => !isBlank l).filter fun l => !cleared agent conversationId l).filterMap record =
      (log.filter fun t => ¬ t.In agent conversationId).map Turn.toJson := by
  induction ls generalizing log with
  | nil =>
    obtain rfl : log = [] := by simpa using h.symm
    rfl
  | cons l ls ih =>
    cases hb : isBlank l with
    | true =>
      rw [List.filterMap_cons_none (record_of_blank hb)] at h
      simpa [hb] using ih h
    | false =>
      cases hr : record l with
      | none =>
        rw [List.filterMap_cons_none hr] at h
        have hp : parseLine l = none := by simpa [record, hb] using hr
        simpa [hb, cleared, hp, hr] using ih h
      | some j =>
        rw [List.filterMap_cons_some hr] at h
        obtain ⟨t, log, rfl, rfl, hlog⟩ := List.map_eq_cons_iff.1 h.symm
        have hc := cleared_iff agent conversationId (parseLine_of_record hr)
        by_cases hin : t.In agent conversationId
        · simpa [hb, hc, hin] using ih hlog.symm
        · simpa [hb, hc, hin, hr] using ih hlog.symm

/-- **Clearing** ends every line that it retains. -/
theorem holds_clear {file : File} {log : List Turn} (h : Holds file log) (agent conversationId : String) :
    Holds (clearTurns agent conversationId file).2 (keep log (.clear agent conversationId)) := by
  by_cases hempty : agent = "" ∨ conversationId = ""
  · simp only [clearTurns, keep, hempty, if_true]
    exact h
  · simp only [clearTurns, keep, hempty, if_false]
    obtain ⟨rows, tail, h⟩ := h
    cases file with
    | none =>
      -- there is no file to rewrite, and no turn in it
      obtain rfl := h.of_none
      exact holds_none
    | some bs =>
      dsimp only
      rw [h.lines, intercalate_rows]
      refine ⟨_, [], by rw [Option.getD_some, List.append_nil], ?_, by simp [OneLine], by simp, ?_⟩
      · intro l hl
        have hmem := (List.mem_filter.1 (List.mem_filter.1 hl).1).1
        rcases List.mem_append.1 hmem with hmem | hmem
        · exact h.rows_line l hmem
        · rw [List.mem_singleton.1 hmem]
          exact h.tail_line
      · rw [List.filterMap_append, records_retained h.records, decodeUtf8_nil,
          List.filterMap_cons_none record_nil, List.filterMap_nil, List.append_nil]

theorem run_concat (ops : List Op) (op : Op) : run (ops ++ [op]) = op.apply (run ops) := by
  simp [run]

theorem kept_concat (ops : List Op) (op : Op) : kept (ops ++ [op]) = keep (kept ops) op := by
  simp [kept]

/-- **After a run with fresh appends the file holds the turns that are kept.** -/
theorem holds_run {ops : List Op} (h : FreshRun ops) : Holds (run ops) (kept ops) := by
  induction ops using List.reverseRecOn with
  | nil => exact holds_none
  | append_singleton ops op ih =>
    have hprev : FreshRun ops := fun pre op' hp => h pre op' (hp.trans (List.prefix_append _ _))
    have hop : op.Fresh (run ops) := h ops op List.prefix_rfl
    rw [run_concat, kept_concat]
    cases op with
    | append t n => exact holds_append (ih hprev) hop
    | clear agent conversationId => exact holds_clear (ih hprev) agent conversationId

/-! ## Reading -/

/-- The turn passes the reader's filters. -/
def Turn.Selected (agent conversationId : Option String) (t : Turn) : Bool :=
  selects agent "agent" t.toJson && selects conversationId "conversation_id" t.toJson

/-- The reader has seen these turns. -/
structure Reads (r : Reader) (log : List Turn) : Prop where
  turns : r.turns = (current Turn.id log).map Turn.toJson
  index : ∀ id ≠ "", r.indexesById (.str id) =
    if id ∈ keysInOrder Turn.id log then some ((keysInOrder Turn.id log).idxOf id) else none

theorem indexKey_toJson (t : Turn) : indexKey t.toJson = some (.str t.id) := by
  have hid : t.toJson.get? "id" = some (.str t.id) := by simp [Turn.toJson, Json.get?]
  simp [indexKey, hid, truthy, t.id_ne]

theorem reads_empty : Reads Reader.empty [] := ⟨rfl, fun _ _ => rfl⟩

/-- A turn is read in the place of its id. -/
theorem reads_add {r : Reader} {log : List Turn} (h : Reads r log) (t : Turn) :
    Reads (r.add t.toJson) (log ++ [t]) := by
  have hkey := h.index t.id t.id_ne
  by_cases hmem : t.id ∈ keysInOrder Turn.id log
  · rw [if_pos hmem] at hkey
    simp only [Reader.add, indexKey_toJson, hkey]
    constructor
    · dsimp only
      rw [h.turns, current_concat_known hmem, List.map_set]
    · intro id hid
      rw [keysInOrder_concat, if_pos hmem]
      exact h.index id hid
  · rw [if_neg hmem] at hkey
    simp only [Reader.add, indexKey_toJson, hkey]
    constructor
    · dsimp only
      rw [h.turns, current_concat_new hmem, List.map_append, List.map_singleton]
    · intro id hid
      have hlen : r.turns.length = (keysInOrder Turn.id log).length := by
        rw [h.turns, List.length_map, ← keys_current, List.length_map]
      rw [keysInOrder_concat, if_neg hmem]
      by_cases hid' : id = t.id
      · subst hid'
        simp [Function.update, hlen, hmem, List.idxOf_append]
      · have hne : Json.str id ≠ Json.str t.id := by simpa using hid'
        simp [Function.update, hne, h.index id hid, hid', List.idxOf_append]
        split_ifs <;> rfl

/-- The lines of a log are read as its selected turns. -/
theorem reads_lines (agent conversationId : Option String) {ls : List (List Char)} {log : List Turn}
    (h : ls.filterMap record = log.map Turn.toJson) {r : Reader} {seen : List Turn} (hr : Reads r seen) :
    Reads (ls.foldl (Reader.line agent conversationId) r)
      (seen ++ log.filter (Turn.Selected agent conversationId)) := by
  induction ls generalizing log r seen with
  | nil =>
    obtain rfl : log = [] := by simpa using h.symm
    simpa using hr
  | cons l ls ih =>
    rw [List.foldl_cons]
    cases hb : isBlank l with
    | true =>
      rw [List.filterMap_cons_none (record_of_blank hb)] at h
      have hline : r.line agent conversationId l = r := by simp [Reader.line, hb]
      rw [hline]
      exact ih h hr
    | false =>
      cases hrec : record l with
      | none =>
        rw [List.filterMap_cons_none hrec] at h
        have hp : parseLine l = none := by simpa [record, hb] using hrec
        have hline : r.line agent conversationId l = r := by simp [Reader.line, hb, hp]
        rw [hline]
        exact ih h hr
      | some j =>
        rw [List.filterMap_cons_some hrec] at h
        obtain ⟨t, log, rfl, rfl, hlog⟩ := List.map_eq_cons_iff.1 h.symm
        have hline : r.line agent conversationId l =
            if t.Selected agent conversationId then r.add t.toJson else r := by
          simp only [Reader.line, hb, parseLine_of_record hrec, Turn.Selected, Bool.false_eq_true, if_false]
          rfl
        rw [hline]
        split
        · rename_i hs
          rw [List.filter_cons_of_pos hs, List.append_cons]
          exact ih hlog.symm (reads_add hr t)
        · rename_i hs
          rw [List.filter_cons_of_neg hs]
          exact ih hlog.symm hr

/-- **What is read back.**  After a run whose appends start on fresh lines, the reader returns the
    turns that were written completely and not cleared, of those with one id the last
    (`mem_current`), in the order of the first (`keys_current`). -/
theorem turns_recovered {ops : List Op} (h : FreshRun ops) (agent conversationId : Option String)
    (limit : ℕ) : readTurns agent conversationId limit (run ops) = lastTurns limit
      ((current Turn.id ((kept ops).filter (Turn.Selected agent conversationId))).map Turn.toJson) := by
  obtain ⟨rows, tail, hl⟩ := holds_run h
  cases hf : run ops with
  | none =>
    rw [hf] at hl
    rw [hl.of_none]
    simp [readTurns, lastTurns]
  | some bs =>
    rw [hf] at hl
    have hr := reads_lines agent conversationId hl.records reads_empty
    rw [readTurns, hl.lines, hr.turns, List.nil_append]

theorem freshRun_nil : FreshRun [] := by
  intro pre op h
  simp at h

theorem freshRun_concat {ops : List Op} {op : Op} (h : FreshRun ops) (hop : op.Fresh (run ops)) :
    FreshRun (ops ++ [op]) := by
  intro pre op' hp
  rcases List.prefix_concat_iff.1 hp with heq | hp
  · obtain ⟨rfl, rfl⟩ : pre = ops ∧ op' = op := by simpa using heq
    exact hop
  · exact h pre op' hp

instance (file : File) (op : Op) : Decidable (op.Fresh file) :=
  match op with
  | .append _ _ => inferInstanceAs (Decidable (_ ∨ _ ∨ _))
  | .clear _ _ => .isTrue trivial

def sampleTurn (id prompt reply : String) (h : id ≠ "" := by decide) : Turn where
  id := id
  timestamp := "2026-01-01T00:00:00.000Z"
  agent := .str "codex"
  conversationId := .str "c"
  sessionId := .null
  status := .str "success"
  prompt := .str prompt
  reply := .str reply
  id_ne := h

/-- A torn append, a clearing, a turn written twice, and another torn append. -/
theorem turns_recovered_sample :
    readTurns none none 50 (run [.append (sampleTurn "1" "um" "") 9, .clear "codex" "c",
      .append (sampleTurn "2" "não" "") 500, .append (sampleTurn "2" "não" "feito") 500,
      .append (sampleTurn "3" "dois" "") 150]) = [(sampleTurn "2" "não" "feito").toJson] := by
  refine (turns_recovered ?_ none none 50).trans (by decide +kernel)
  exact freshRun_concat (freshRun_concat (freshRun_concat (freshRun_concat (freshRun_concat freshRun_nil
    (by decide +kernel)) (by decide +kernel)) (by decide +kernel)) (by decide +kernel)) (by decide +kernel)

/-- An append after a torn one is lost, though it is complete. -/
theorem turn_lost : ¬ ∀ ops : List Op, ∀ t ∈ current Turn.id (kept ops),
    t.toJson ∈ readTurns none none (kept ops).length (run ops) := by
  intro h
  have hlost := h [.append (sampleTurn "1" "um" "") 9, .append (sampleTurn "2" "dois" "") 500]
    (sampleTurn "2" "dois" "")
  revert hlost
  decide +kernel

end SmartHome.SharedHistory
