/-
  A field of a node, page by page (`Engine.read_field` in `engine.py`).

  * `field_read_whole`: the pages of a field that is shown are its whole text;
  * `pageOf_append`: one page, at any boundary of characters.
-/
import SmartHome.Lib.Utf8
import SmartHome.NodeRedAdmin.Reverse

namespace SmartHome.NodeRedAdmin.Planning

open Verif PyValue

/-- What a call meets: the policy under the locks, the configuration, the clock and the projector. -/
structure Visit where
  policy : Except String Unit
  fetched : Except String PyValue
  now : ℚ
  projector : Option (String → String → PyValue → PyValue)

/-- `[A-Za-z_][A-Za-z0-9_]{0,127}` -/
def isFieldName (s : String) : Bool :=
  match s.toList with
  | [] => false
  | c :: cs => (c.isAlpha || c = '_') && cs.length ≤ 127 && cs.all fun c => c.isAlphanum || c = '_'

/-- A part of the text of a field. -/
structure Page where
  format : String
  offset : ℕ
  fragment : List Char
  nextOffset : Option ℕ
  totalBytes : ℕ

/-- The state of a field, with the digest of its value. -/
inductive FieldState where
  /-- `field_not_present` -/
  | unknown
  /-- `reviewed_public_source_proof_unavailable` -/
  | withheld (fieldSha256 : String)
  | observed (fieldSha256 : String) (page : Page)

structure FieldAnswer where
  observedAt : ℚ
  nodeId : String
  field : String
  nodeSha256 : String
  revision : String
  state : FieldState

/-- The integer, if it is one; a truth value is none. -/
def int? : PyValue → Option ℤ
  | .int n => some n
  | _ => none

section
variable [FloatText]

/-- The text that is shown of a value, which is the text itself or its JSON. -/
def shownText : PyValue → List Char
  | .str s => s.toList
  | v => v.raw

def formatOf : PyValue → String
  | .str _ => "text/plain"
  | _ => "application/json"

/-- The page of a value that starts at an offset. -/
def pageOf (value : PyValue) (offset : ℕ) : Except String Page := do
  let body := utf8 (shownText value)
  need (offset ≤ body.length) "node_field_offset_out_of_bounds"
  need ((decodeStrict (body.take offset)).isSome = true) "node_field_offset_not_character_boundary"
  let piece := decodeWithin (body.drop offset) (min (offset + 8192) body.length - offset)
  let stop := offset + piece.2
  return ⟨formatOf value, offset, piece.1, if stop < body.length then some stop else none, body.length⟩

/-- The value that `safe_value` shows. -/
def shownValue : PyValue → Option PyValue
  | .dict projected => getKey "value" projected
  | _ => none

/-- `Engine.read_field` -/
def readField (out : Outside) (visit : Visit) (nodeId field offset expectedSha256 : PyValue) :
    Except String FieldAnswer := do
  let id ← orFail "node_field_scope_refused" (validId (some nodeId))
  let name ← orFail "node_field_scope_refused" ((str? field).filter isFieldName)
  let start ← orFail "node_field_scope_refused" ((int? offset).filter fun n => 0 ≤ n ∧ n ≤ 1048576)
  visit.policy
  let value ← visit.fetched
  let current ← snapshot value
  let node ← orFail "node_not_found" (nodeAt id current.flows)
  let identity := digestOf out (.dict node)
  need (eqv expectedSha256 .null = true ∨ eqv expectedSha256 (.str identity) = true) "node_snapshot_changed"
  let answer (state : FieldState) : FieldAnswer := ⟨visit.now, id, name, identity, current.rev, state⟩
  match getKey name node with
  | none => return answer .unknown
  | some value =>
    match shownValue (safeValue { out with projector := visit.projector } name value id) with
    | none => return answer (.withheld (digestOf out value))
    | some shown => do
      let page ← pageOf shown start.toNat
      return answer (.observed (digestOf out value) page)

end

/-! ## One page -/

theorem length_utf8_pos {t : List Char} (h : t ≠ []) : 0 < (utf8 t).length := by
  cases t with
  | nil => exact absurd rfl h
  | cons c t =>
    rw [length_utf8, byteLength_cons]
    exact Nat.add_pos_left c.utf8Size_pos _

/-- What is read within 8192 bytes. -/
def piece (b : List Char) : List Char := (decodeWithin (utf8 b) (min 8192 (utf8 b).length)).1

section
variable {a b : List Char}

theorem piece_start : piece b <+: b := (decodeWithin_start b (min_le_right 8192 _)).1

theorem length_piece : (utf8 (piece b)).length = (decodeWithin (utf8 b) (min 8192 (utf8 b).length)).2 :=
  (decodeWithin_start b (min_le_right 8192 _)).2.1

theorem length_piece_le : (utf8 (piece b)).length ≤ 8192 := by
  rw [length_piece]
  exact (decodeWithin_start b (min_le_right 8192 _)).2.2.trans (min_le_left _ _)

theorem piece_ne_nil (h : b ≠ []) : piece b ≠ [] := by
  intro hnil
  cases b with
  | nil => exact h rfl
  | cons c u =>
    -- a character has at most four bytes, and there are at least as many as it has
    have hc4 := c.utf8Size_le_four
    have hlength := length_utf8 (c :: u)
    rw [byteLength_cons] at hlength
    have hpos := decodeWithin_pos c u (n := min 8192 (utf8 (c :: u)).length) (by omega)
    rw [← length_piece, hnil, utf8_nil, List.length_nil] at hpos
    exact absurd hpos (lt_irrefl 0)

theorem piece_eq_iff : piece b = b ↔ (utf8 b).length ≤ (utf8 (piece b)).length := by
  constructor
  · intro h
    rw [h]
  · intro h
    obtain ⟨rest, hrest⟩ := piece_start (b := b)
    have hlength : (utf8 b).length = (utf8 (piece b)).length + (utf8 rest).length := by
      rw [← List.length_append, ← utf8_append, hrest]
    by_contra hne
    have hpos : rest ≠ [] := by
      rintro rfl
      exact hne (by rwa [List.append_nil] at hrest)
    have := length_utf8_pos hpos
    omega

/-- Where there is a next page, it starts further on. -/
theorem next_lt {next : ℕ} (h : (if piece b = b then none else some (utf8 (a ++ piece b)).length) = some next) :
    (utf8 a).length < next := by
  split_ifs at h with hb
  have hne : piece b ≠ [] := piece_ne_nil (by rintro rfl; exact hb (List.prefix_nil.1 piece_start))
  have hpos := length_utf8_pos hne
  rw [← Option.some.inj h, utf8_append, List.length_append]
  omega

variable [FloatText] {value : PyValue}

/-- **One page.**  At the end of a part of the text, the page is the next piece of it. -/
theorem pageOf_append (h : shownText value = a ++ b) : pageOf value (utf8 a).length = .ok
    ⟨formatOf value, (utf8 a).length, piece b,
      if piece b = b then none else some (utf8 (a ++ piece b)).length, (utf8 (a ++ b)).length⟩ := by
  have hlength : (utf8 (a ++ b)).length = (utf8 a).length + (utf8 b).length := by
    rw [utf8_append, List.length_append]
  have hsize : min ((utf8 a).length + 8192) (utf8 (a ++ b)).length - (utf8 a).length =
      min 8192 (utf8 b).length := by omega
  have hstop : (utf8 (a ++ piece b)).length = (utf8 a).length + (utf8 (piece b)).length := by
    rw [utf8_append, List.length_append]
  simp only [pageOf, bind_ok, need_eq_ok, exists_unit, pure_ok, h]
  refine ⟨by omega, by rw [utf8_append, List.take_left, decodeStrict_eq_some.2 rfl]; rfl, ?_⟩
  have hdrop : (utf8 (a ++ b)).drop (utf8 a).length = utf8 b := by rw [utf8_append, List.drop_left]
  rw [hsize, hdrop, ← length_piece, hstop, Page.mk.injEq]
  refine ⟨rfl, rfl, rfl, ?_, rfl⟩
  by_cases hb : piece b = b
  · rw [if_pos hb, if_neg]
    have := piece_eq_iff.1 hb
    omega
  · rw [if_neg hb, if_pos]
    have := Nat.lt_of_not_le fun hle => hb (piece_eq_iff.2 hle)
    omega

end

/-! ## All pages -/

section
variable [FloatText] {value : PyValue}

/-- The pages that are read from a call on, each from where the page before it stopped. -/
inductive Reading (read : ℕ → ℕ → Except String FieldAnswer) : ℕ → ℕ → List Page → Prop
  | last {call offset : ℕ} {answer : FieldAnswer} {sha256 : String} {page : Page} :
    read call offset = .ok answer → answer.state = .observed sha256 page → page.nextOffset = none →
    Reading read call offset [page]
  | more {call offset next : ℕ} {answer : FieldAnswer} {sha256 : String} {page : Page} {pages : List Page} :
    read call offset = .ok answer → answer.state = .observed sha256 page → page.nextOffset = some next →
    Reading read (call + 1) next pages → Reading read call offset (page :: pages)

/-- The pages of a text from a position on. -/
structure Pages (value : PyValue) (a : List Char) (pages : List Page) : Prop where
  text : a ++ pages.flatMap Page.fragment = shownText value
  size : ∀ p ∈ pages, (utf8 p.fragment).length ≤ 8192
  offset : ∀ before p after, pages = before ++ p :: after →
    p.offset = (utf8 (a ++ before.flatMap Page.fragment)).length
  progress : ∀ p ∈ pages, ∀ next ∈ p.nextOffset, p.offset < next
  all : ∀ p ∈ pages, p.format = formatOf value ∧ p.totalBytes = (utf8 (shownText value)).length

/-- A visit in which the field of the node is shown. -/
structure Shows (out : Outside) (nodeId field : String) (node : Node) (shown : PyValue) (visit : Visit) : Prop where
  policy : visit.policy = .ok ()
  snapshot : ∃ value current, visit.fetched = .ok value ∧ snapshot value = .ok current ∧
    nodeAt nodeId current.flows = some node
  value : ∃ v, getKey field node = some v ∧
    shownValue (safeValue { out with projector := visit.projector } field v nodeId) = some shown

variable {out : Outside} {nodeId field : String} {node : Node} {shown : PyValue} {visit : Visit}

theorem Shows.isNodeId (h : Shows out nodeId field node shown visit) : isNodeId nodeId = true := by
  obtain ⟨_, current, -, hcurrent, hnode⟩ := h.snapshot
  obtain ⟨hmem, rfl⟩ := (nodeAt_eq_some (snapshot_ok hcurrent).1.nodup).1 hnode
  exact ((snapshot_ok hcurrent).1.nodes node hmem).nodeId

theorem size_shownValue {key : String} {v : PyValue}
    (h : shownValue (safeValue out key v nodeId) = some shown) : size shown ≤ 65536 := by
  have hwithheld : ∀ reason, shownValue (.dict [("withheld", .bool true), ("reason", .str reason),
      ("sha256", .str (digestOf out v))]) = none := fun reason => by
    simp [shownValue, getKey_eq_none]
  unfold safeValue at h
  dsimp only at h
  split at h
  · rw [hwithheld] at h
    cases h
  · split at h
    · split at h
      · rename_i proof _ hproof
        obtain ⟨-, -, w, hw, -, hsize⟩ := hproof
        have hshown : (getKey "value" proof).getD .null = shown := Option.some.inj h
        rw [Option.mem_def.1 hw] at hshown
        exact hshown ▸ hsize
      · rw [hwithheld] at h
        cases h
    · rw [hwithheld] at h
      cases h

/-- A text is not longer than its JSON. -/
theorem length_shownText : (utf8 (shownText value)).length ≤ size value := by
  rw [length_utf8]
  cases value with
  | str s => exact Json.byteLength_quote s
  | _ => exact le_rfl

theorem Shows.length (h : Shows out nodeId field node shown visit) :
    (utf8 (shownText shown)).length ≤ 65536 := by
  obtain ⟨v, -, hv⟩ := h.value
  exact length_shownText.trans (size_shownValue hv)

/-- A call at a place that may be asked for answers the page there. -/
theorem Shows.readField (h : Shows out nodeId field node shown visit) (hfield : isFieldName field = true)
    {expected : PyValue} (hexpected : expected = .null ∨ expected = .str (digestOf out (.dict node)))
    {offset : ℕ} (hoffset : offset ≤ 65536) {page : Page} (hpage : pageOf shown offset = .ok page) :
    ∃ answer sha256, readField out visit (.str nodeId) (.str field) (.int offset) expected = .ok answer ∧
      answer.state = .observed sha256 page := by
  obtain ⟨value, current, hfetched, hcurrent, hnode⟩ := h.snapshot
  obtain ⟨v, hv, hshown⟩ := h.value
  have hid : validId (some (.str nodeId)) = some nodeId :=
    Option.filter_eq_some_iff.2 ⟨rfl, h.isNodeId⟩
  have hname : (str? (.str field)).filter isFieldName = some field := Option.filter_eq_some_iff.2 ⟨rfl, hfield⟩
  have hint : ((int? (.int offset)).filter fun n => 0 ≤ n ∧ n ≤ 1048576) = some (offset : ℤ) :=
    Option.filter_eq_some_iff.2 ⟨rfl, by simp; omega⟩
  have hsame : eqv expected .null = true ∨ eqv expected (.str (digestOf out (.dict node))) = true := by
    rcases hexpected with rfl | rfl
    · exact Or.inl rfl
    · exact Or.inr (by simp [eqv])
  refine ⟨⟨visit.now, nodeId, field, digestOf out (.dict node), current.rev, .observed (digestOf out v) page⟩,
    digestOf out v, ?_, rfl⟩
  simp only [Planning.readField, bind_ok, orFail_eq_ok, need_eq_ok, exists_unit]
  refine ⟨nodeId, hid, field, hname, offset, hint, h.policy, value, hfetched, current, hcurrent, node, hnode, hsame, ?_⟩
  rw [hv]
  dsimp only
  rw [hshown]
  simp only [bind_ok, pure_ok]
  exact ⟨page, hpage, rfl⟩

/-- The pages from a position on: a page, and the pages after it. -/
theorem Pages.cons {a b : List Char} {page : Page} {pages : List Page} (h : Pages value (a ++ page.fragment) pages)
    (hpage : pageOf value (utf8 a).length = .ok page) (htext : shownText value = a ++ b) :
    Pages value a (page :: pages) := by
  have hp := Except.ok.inj (hpage.symm.trans (pageOf_append htext))
  refine ⟨by rw [List.flatMap_cons, ← List.append_assoc, h.text], List.forall_mem_cons.2 ⟨?_, h.size⟩, ?_,
    List.forall_mem_cons.2 ⟨fun next hnext => ?_, h.progress⟩, List.forall_mem_cons.2 ⟨?_, h.all⟩⟩
  · rw [hp]
    exact length_piece_le
  · rintro before p after hsplit
    cases before with
    | nil =>
      obtain ⟨rfl, rfl⟩ := List.cons.inj hsplit
      rw [hp]
      simp
    | cons q before =>
      obtain ⟨rfl, hrest⟩ := List.cons.inj hsplit
      rw [h.offset before p after hrest, List.flatMap_cons, List.append_assoc]
  · rw [hp] at hnext ⊢
    exact next_lt hnext
  · rw [hp]
    exact ⟨rfl, by rw [htext]⟩

/-- A visit in which a call shows the field. -/
theorem shows_of_observed {offset : ℕ} {expectedSha256 : PyValue} {answer : FieldAnswer} {sha256 : String}
    {page : Page} (h : readField out visit (.str nodeId) (.str field) (.int offset) expectedSha256 = .ok answer)
    (hstate : answer.state = .observed sha256 page) : isFieldName field = true ∧ ∃ node shown,
      Shows out nodeId field node shown visit ∧ pageOf shown offset = .ok page := by
  simp only [Planning.readField, bind_ok, orFail_eq_ok, need_eq_ok, exists_unit, Option.filter_eq_some_iff] at h
  obtain ⟨id, hid, name, ⟨hname, hfield⟩, start, ⟨hstart, -⟩, hpolicy, value, hfetched, current, hcurrent, node,
    hnode, -, h⟩ := h
  obtain rfl : nodeId = id := Option.some.inj (Option.filter_eq_some_iff.1 hid).1
  obtain rfl : field = name := Option.some.inj hname
  obtain rfl : (offset : ℤ) = start := Option.some.inj hstart
  refine ⟨hfield, node, ?_⟩
  split at h
  · cases Except.ok.inj h
    cases hstate
  · rename_i v hv
    split at h
    · cases Except.ok.inj h
      cases hstate
    · rename_i shown hshown
      simp only [bind_ok, pure_ok] at h
      obtain ⟨page', hpage, rfl⟩ := h
      cases hstate
      exact ⟨shown, ⟨hpolicy, ⟨value, current, hfetched, hcurrent, hnode⟩, v, hv, hshown⟩, hpage⟩

variable {visits : ℕ → Visit} {expected : ℕ → PyValue}

/-- The pages from the end of a part of the text on. -/
theorem reading_append (hfield : isFieldName field = true)
    (hvisits : ∀ i, Shows out nodeId field node shown (visits i))
    (hexpected : ∀ i, expected i = .null ∨ expected i = .str (digestOf out (.dict node)))
    {a b : List Char} (htext : shownText shown = a ++ b) (call : ℕ) : ∃ pages,
    Reading (fun i offset => readField out (visits i) (.str nodeId) (.str field) (.int offset) (expected i)) call
      (utf8 a).length pages ∧ Pages shown a pages := by
  induction hn : b.length using Nat.strong_induction_on generalizing a b call with
  | _ n ih =>
    subst hn
    have hpage := pageOf_append htext
    have hoffset : (utf8 a).length ≤ 65536 := by
      have := (hvisits call).length
      rw [htext, utf8_append, List.length_append] at this
      omega
    obtain ⟨answer, sha256, hanswer, hstate⟩ := (hvisits call).readField hfield (hexpected call) hoffset hpage
    by_cases hb : piece b = b
    · have hend : Pages shown (a ++ piece b) [] := by
        refine ⟨by rw [List.flatMap_nil, List.append_nil, hb, htext], ?_, fun before p after h => ?_, ?_, ?_⟩
        · exact fun p hp => absurd hp List.not_mem_nil
        · exact absurd h.symm (by simp)
        · exact fun p hp => absurd hp List.not_mem_nil
        · exact fun p hp => absurd hp List.not_mem_nil
      exact ⟨_, .last hanswer hstate (if_pos hb), hend.cons hpage htext⟩
    · obtain ⟨rest, hrest⟩ := piece_start (b := b)
      have hlt : rest.length < b.length := by
        have hne : piece b ≠ [] := piece_ne_nil (by rintro rfl; exact hb (List.prefix_nil.1 piece_start))
        have hpos := List.length_pos_iff.2 hne
        rw [← hrest, List.length_append]
        omega
      obtain ⟨pages, hreading, hpages⟩ := ih rest.length hlt (a := a ++ piece b) (b := rest)
        (by rw [htext, List.append_assoc, hrest]) (call + 1) rfl
      exact ⟨_, .more hanswer hstate (if_neg hb) hreading, hpages.cons hpage htext⟩

/-- **The pages of a field are its whole text.** -/
theorem field_read_whole (hfield : isFieldName field = true)
    (hvisits : ∀ i, Shows out nodeId field node shown (visits i))
    (hexpected : ∀ i, expected i = .null ∨ expected i = .str (digestOf out (.dict node))) : ∃ pages,
    Reading (fun i offset => readField out (visits i) (.str nodeId) (.str field) (.int offset) (expected i)) 0 0
      pages ∧ Pages shown [] pages :=
  reading_append hfield hvisits hexpected (a := []) rfl 0

end

/-! ## The pages of a name -/

section

local instance : FloatText := wholeText

def nameSha256 : String := "d6d13014ef18d45030eec6ac0a66eab592e7f07e1feda93538935b3b434a8de8"

/-- The digest of the name is that of SHA-256, too. -/
def nameOutside : Outside :=
  { sampleOutside with
    sha256 := fun t => if String.ofList t = "\"old\"" then nameSha256 else sampleOutside.sha256 t }

/-- A visit of the live flows, with a projector that shows every value. -/
def nameVisit : Visit where
  policy := .ok ()
  fetched := .ok commentLive.1
  now := 0
  projector := some fun _ _ v => .dict [("source", .str "exact_reviewed_public_source"),
    ("value_sha256", .str (digestOf nameOutside v)), ("value", v)]

/-- The name of the comment is read. -/
theorem field_read_name : ∃ pages,
    Reading (fun _ offset => readField nameOutside nameVisit (.str "b") (.str "name") (.int offset) .null) 0 0
      pages ∧ Pages (.str "old") [] pages := by
  have hshows : Shows nameOutside "b" "name" [("id", .str "b"), ("type", .str "comment"), ("name", .str "old")]
      (.str "old") nameVisit := by
    refine ⟨rfl, ⟨commentLive.1, ⟨"2", commentFlows⟩, rfl, snapshot_commentLive, ?_⟩, .str "old", rfl, ?_⟩
    · exact (nodeAt_eq_some (by decide +kernel)).2 ⟨by simp [commentFlows], by decide +kernel⟩
    · unfold safeValue
      dsimp only [nameVisit, Option.map_some]
      rw [if_neg (by decide +kernel)]
      exact congrArg shownValue (if_pos ⟨by decide +kernel, rfl, _, rfl, rfl, by decide +kernel⟩)
  exact field_read_whole (by decide +kernel) (fun _ => hshows) (fun _ => Or.inl rfl)

end

end SmartHome.NodeRedAdmin.Planning
