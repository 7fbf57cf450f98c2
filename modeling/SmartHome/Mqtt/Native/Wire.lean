/-
  The frame that the plugin writes: its text is the JSON text of a value (`chunks_flatten`),
  it fits the buffer (`text_eq`), and the receiver's `decode` reads the plugin's counters
  back from it (`decode_json`).
-/
import SmartHome.Mqtt.Native.Sender
import Mathlib.Algebra.Order.BigOperators.Group.Finset

namespace SmartHome.Mqtt.Native

open Verif Json

/-! ## The text is JSON -/

theorem quote_name (k : Kind) : quote k.name = '"' :: (k.name.toList ++ ['"']) := by
  cases k <;> decide

theorem render_num (n : ℕ) : (num n).render = digits n := by
  rw [num, render, quote_plain fun c hc => plain_of_isDigit (decimal_isDigit c (by simpa using hc)),
    String.toList_ofList, digits]

theorem render_optNum (o : Option ℕ) : (optNum o).render = stamp o := by
  cases o with
  | none => rfl
  | some n => exact render_num n

/-- The value of a row. -/
def rowJson (r : EventRow) : Json :=
  .obj [("seq", num r.seq), ("kind", .str r.kind.name), ("at_ns", optNum r.atNs)]

/-- The value of a table of counters. -/
def tableJson (t : Kind → ℕ) : Json := .obj (kinds.map fun k => (k.name, num (t k)))

/-- The value of the frame of a plugin. -/
def Plugin.json (p : Plugin) (covered : Option ℕ) (now : ℕ) : Json :=
  .obj [("v", .int 3), ("final", .bool p.final), ("covered_before_ns", optNum covered),
    ("instance", .str p.source.1), ("started_ns", optNum p.started),
    ("frame_seq", num (p.frameSeq + 1)), ("event_seq", num p.eventSeq),
    ("totals", tableJson p.total), ("source_dropped", tableJson p.dropped),
    ("clock_faults", num p.clockFaults), ("send_failures", num p.sendFailures),
    ("emitted_ns", num now), ("events", .arr (p.pending.map rowJson))]

theorem rowChunks_flatten (first : Bool) (r : EventRow) : (rowChunks first r).flatten =
    (if first then [] else [',']) ++ (rowJson r).render := by
  have hseq : "\x7b\"seq\":".toList = '{' :: (quote "seq" ++ [':']) := by decide
  have hkind : ",\"kind\":\"".toList = ',' :: (quote "kind" ++ [':', '"']) := by decide
  have hat : "\",\"at_ns\":".toList = ['"', ','] ++ (quote "at_ns" ++ [':']) := by decide
  simp [rowChunks, rowJson, render, renderMembers, render_num, render_optNum, quote_name,
    String.toList_append, hseq, hkind, hat]

theorem counters_flatten (t : Kind → ℕ) : (counters t).flatten = (tableJson t).render := by
  simp [counters, tableJson, kinds, render, renderMembers, render_num, Kind.name, quote, escape]

theorem ringChunks_flatten : ∀ rs : List EventRow,
    (ringChunks rs).flatten = renderElems (rs.map rowJson)
  | [] => rfl
  | [r] => by simp [ringChunks, renderElems, rowChunks_flatten]
  | r :: r' :: rs => by
    have ih := ringChunks_flatten (r' :: rs)
    have hcomma : (rowChunks false r').flatten = ',' :: (rowChunks true r').flatten := by
      simp [rowChunks_flatten]
    simp only [ringChunks, List.flatten_append, List.flatMap_cons, List.map_cons, renderElems,
      hcomma, List.cons_append] at ih ⊢
    rw [ih, rowChunks_flatten]
    simp

namespace Plugin
variable {p : Plugin} {covered : Option ℕ} {now : ℕ}

/-- **What the plugin prints is the JSON text of the frame.** -/
theorem chunks_flatten (p : Plugin) (covered : Option ℕ) (now : ℕ) :
    (p.chunks covered now).flatten = (p.json covered now).render := by
  have hv : "\x7b\"v\":3,\"final\":".toList =
      '{' :: (quote "v" ++ [':', '3', ','] ++ quote "final" ++ [':']) := by decide
  have hcov : ",\"covered_before_ns\":".toList = ',' :: (quote "covered_before_ns" ++ [':']) := by
    decide
  have hinst : ",\"instance\":\"".toList = ',' :: (quote "instance" ++ [':', '"']) := by decide
  have hst : "\",\"started_ns\":".toList = ['"', ','] ++ (quote "started_ns" ++ [':']) := by decide
  have hfs : ",\"frame_seq\":".toList = ',' :: (quote "frame_seq" ++ [':']) := by decide
  have hes : ",\"event_seq\":".toList = ',' :: (quote "event_seq" ++ [':']) := by decide
  have htot : ",\"totals\":".toList = ',' :: (quote "totals" ++ [':']) := by decide
  have hdrop : ",\"source_dropped\":".toList = ',' :: (quote "source_dropped" ++ [':']) := by decide
  have hcf : ",\"clock_faults\":".toList = ',' :: (quote "clock_faults" ++ [':']) := by decide
  have hsf : ",\"send_failures\":".toList = ',' :: (quote "send_failures" ++ [':']) := by decide
  have hem : ",\"emitted_ns\":".toList = ',' :: (quote "emitted_ns" ++ [':']) := by decide
  have hev : ",\"events\":[".toList = ',' :: (quote "events" ++ [':', '[']) := by decide
  have hend : "]\x7d".toList = [']', '}'] := by decide
  have h3 : (Json.int 3).render = ['3'] := by decide
  have hfin : (Json.bool p.final).render = (if p.final then "true" else "false").toList := by
    cases p.final <;> decide
  have hobj : ∀ kvs, (Json.obj kvs).render = '{' :: (renderMembers kvs ++ ['}']) := fun kvs => by
    rw [render]
  have harr : ∀ xs, (Json.arr xs).render = '[' :: (renderElems xs ++ [']']) := fun xs => by
    rw [render]
  have hstr : ∀ s, (Json.str s).render = quote s := fun s => by rw [render]
  simp only [chunks, List.flatten_append, List.flatten_cons, List.flatten_nil, counters_flatten,
    ringChunks_flatten, String.toList_append, hv, hcov, hinst, hst, hfs, hes, htot, hdrop, hcf, hsf,
    hem, hev, hend, List.append_assoc, List.cons_append, List.nil_append]
  simp only [json, hobj, harr, hstr, renderMembers, h3, hfin, render_num, render_optNum,
    quote_plain (plain_hex p.source), List.append_assoc, List.cons_append, List.nil_append]

end Plugin

/-! ## The text fits the buffer -/

/-- Texts that fit together fit one after another. -/
theorem foldlM_append : ∀ {cs : List (List Char)} {buffer : List Char},
    (buffer ++ cs.flatten).length < frameLimit → cs.foldlM append buffer = some (buffer ++ cs.flatten)
  | [], buffer, _ => by simp
  | c :: cs, buffer, h => by
    rw [List.flatten_cons, ← List.append_assoc] at h ⊢
    have hc : ¬ frameLimit - buffer.length ≤ c.length := by
      simp only [List.length_append] at h; omega
    rw [List.foldlM_cons, append, if_neg hc]
    exact foldlM_append h

theorem length_digits {n : ℕ} (h : n ≤ uint64Max) : (digits n).length ≤ 22 := by
  have hlen : (decimal n).length ≤ 20 :=
    (Nat.length_toDigits_le_iff (by norm_num) (by omega)).2 (by unfold uint64Max at h; omega)
  simp [digits]; omega

theorem length_stamp {o : Option ℕ} (h : ∀ n ∈ o, n ≤ uint64Max) : (stamp o).length ≤ 22 := by
  cases o with
  | none => decide
  | some n => exact length_digits (h n rfl)

theorem length_row {r : EventRow} (hseq : r.seq ≤ uint64Max) (hat : ∀ t ∈ r.atNs, t ≤ uint64Max) :
    (rowJson r).render.length ≤ 100 := by
  have h1 := length_digits hseq
  have h2 := length_stamp hat
  have h3 : (quote r.kind.name).length ≤ 16 := by cases r.kind <;> decide
  have hstr : ∀ s, (Json.str s).render = quote s := fun s => by rw [render]
  refine (length_obj_le _).trans ?_
  simp [memberLen, render_num, render_optNum, hstr, quote, escape] at h3 ⊢
  omega

theorem length_table {t : Kind → ℕ} (h : ∀ k, t k ≤ uint64Max) :
    (tableJson t).render.length ≤ 340 := by
  have hk : ∀ k, memberLen (k.name, num (t k)) ≤ 40 := by
    intro k
    have h1 := length_digits (h k)
    have h2 : (quote k.name).length ≤ 16 := by cases k <;> decide
    simp only [memberLen, render_num]; omega
  refine (length_obj_le _).trans ?_
  have h1 := hk .publishIn
  have h2 := hk .publishOut
  have h3 := hk .connect
  have h4 := hk .disconnect
  have h5 := hk .subscribe
  have h6 := hk .unsubscribe
  have h7 := hk .clientOffline
  simp only [kinds, List.map_cons, List.map_nil, List.sum_cons, List.sum_nil]
  omega

theorem length_elems {n : ℕ} : ∀ {xs : List Json}, (∀ x ∈ xs, x.render.length ≤ n) →
    (renderElems xs).length ≤ xs.length * (n + 1)
  | [], _ => by simp [renderElems]
  | [x], h => by have := h x (by simp); simp [renderElems]; omega
  | x :: y :: xs, h => by
    have ih := length_elems fun z hz => h z (List.mem_cons_of_mem x hz)
    have hx := h x (by simp)
    simp only [renderElems, List.length_append, List.length_cons, Nat.add_mul] at ih ⊢
    omega

/-- What the counters of a live plugin satisfy on their own. -/
structure Plugin.Sound (p : Plugin) : Prop where
  sum : ∑ k, p.total k = p.eventSeq
  dropped : ∀ k, p.dropped k ≤ p.total k
  rows : p.pending.length ≤ capacity
  increasing : (p.pending.map EventRow.seq).Pairwise (· < ·)
  bounded : ∀ r ∈ p.pending, 0 < r.seq ∧ r.seq ≤ p.eventSeq
  eventSeq : p.eventSeq ≤ uint64Max
  frameSeq : p.frameSeq ≤ uint64Max
  clockFaults : p.clockFaults ≤ uint64Max
  sendFailures : p.sendFailures ≤ uint64Max
  started : ∀ b ∈ p.started, b ≤ uint64Max
  stamps : ∀ r ∈ p.pending, ∀ t ∈ r.atNs, t ≤ uint64Max

/-- The stamps of a frame that is about to be sent. -/
structure Plugin.Stamped (p : Plugin) (covered : Option ℕ) (now : ℕ) : Prop where
  room : p.frameSeq < uint64Max
  width : now ≤ uint64Max
  stamp : ∀ c ∈ covered, c ≤ now ∧ ∀ b ∈ p.started, b ≤ c

namespace Plugin
variable {p : Plugin} {covered : Option ℕ} {now : ℕ}

theorem Sound.total (h : p.Sound) (k : Kind) : p.total k ≤ uint64Max :=
  (Finset.single_le_sum (fun _ _ => Nat.zero_le _) (Finset.mem_univ k)).trans
    (h.sum.trans_le h.eventSeq)

theorem length_json (h : p.Sound) (hs : p.Stamped covered now) :
    (p.json covered now).render.length ≤ 28000 := by
  have hcov := length_stamp (fun c hc => (hs.stamp c hc).1.trans hs.width)
  have hst := length_stamp h.started
  have hframe := length_digits (n := p.frameSeq + 1) (Nat.succ_le_iff.2 hs.room)
  have hev := length_digits h.eventSeq
  have hcf := length_digits h.clockFaults
  have hsf := length_digits h.sendFailures
  have hnow := length_digits hs.width
  have htot := length_table h.total
  have hdrop := length_table fun k => (h.dropped k).trans (h.total k)
  have hsrc : (Json.str p.source.1).render.length = 34 := by
    rw [render, length_quote_plain (plain_hex p.source)]
    rw [length_toList_hex]
  have hrows : (Json.arr (p.pending.map rowJson)).render.length ≤ 26000 := by
    have hrow : ∀ x ∈ p.pending.map rowJson, x.render.length ≤ 100 := by
      intro x hx
      obtain ⟨r, hr, rfl⟩ := List.mem_map.1 hx
      exact length_row ((h.bounded r hr).2.trans h.eventSeq) (h.stamps r hr)
    have := length_elems hrow
    have hcap : p.pending.length ≤ 256 := h.rows
    rw [render]
    simp only [List.length_map, List.length_cons, List.length_append] at this ⊢
    simp only [List.length_nil]
    omega
  have h3 : (Json.int 3).render.length = 1 := by decide
  have hfin : (Json.bool p.final).render.length ≤ 5 := by cases p.final <;> decide
  refine (length_obj_le _).trans ?_
  simp only [List.map_cons, List.map_nil, List.sum_cons, List.sum_nil, memberLen, render_num,
    render_optNum, h3, hsrc]
  simp [quote, escape]
  omega

/-- The buffer holds the whole frame. -/
theorem text_eq (h : p.Sound) (hs : p.Stamped covered now) :
    p.text covered now = some (p.json covered now).render := by
  have hlen := length_json h hs
  rw [text, foldlM_append, List.nil_append, chunks_flatten]
  rw [List.nil_append, chunks_flatten]
  unfold frameLimit; omega

end Plugin

/-! ## The receiver reads the frame -/

theorem uint_num {n : ℕ} (h : n ≤ uint64Max) : uint (num n) = .ok n := by
  have hlt : n < 2 ^ 64 := by unfold uint64Max at h; omega
  simp only [uint, num, bind_ok, need_eq_ok, exists_unit, orFail_eq_ok, pure_ok]
  exact ⟨n, decimal?_decimal (by omega), hlt, rfl⟩

theorem optionalUint_optNum {o : Option ℕ} (h : ∀ n ∈ o, n ≤ uint64Max) :
    optionalUint (optNum o) = .ok o := by
  cases o with
  | none => rfl
  | some n =>
    have hn := uint_num (h n rfl)
    simp only [optNum, num, optionalUint] at hn ⊢
    rw [hn]; rfl

/-- A list of members lists its own keys. -/
theorem closed_obj {kvs : List (String × Json)} {keys : List String}
    (h : (kvs.map Prod.fst).Perm keys) : closed (.obj kvs) keys = .ok () := by
  rw [closed, need_eq_ok]
  exact ⟨_, rfl, h⟩

theorem kindTable_tableJson {t : Kind → ℕ} (h : ∀ k, t k ≤ uint64Max) :
    kindTable (tableJson t) = .ok t := by
  have hm : ∀ k, member (tableJson t) k.name = num (t k) := by intro k; cases k <;> rfl
  simp only [kindTable, bind_ok, pure_ok, hm, uint_num (h _), kinds, List.mapM_cons, List.mapM_nil]
  refine ⟨(), closed_obj (List.Perm.of_eq rfl), _, ⟨_, rfl, _, ⟨_, rfl, _, ⟨_, rfl, _, ⟨_, rfl, _,
    ⟨_, rfl, _, ⟨_, rfl, _, ⟨_, rfl, _, rfl, rfl⟩, rfl⟩, rfl⟩, rfl⟩, rfl⟩, rfl⟩, rfl⟩, ?_⟩
  funext k
  cases k <;> rfl

theorem decodeRows_rowJson {eventSeq : ℕ} (hw : eventSeq ≤ uint64Max) :
    ∀ {rs : List EventRow} {seq : ℕ}, (rs.map EventRow.seq).Pairwise (· < ·) →
      (∀ r ∈ rs, seq < r.seq ∧ r.seq ≤ eventSeq) → (∀ r ∈ rs, ∀ t ∈ r.atNs, t ≤ uint64Max) →
        decodeRows eventSeq seq (rs.map rowJson) = .ok rs
  | [], _, _, _, _ => rfl
  | r :: rs, seq, hp, hb, ht => by
    rw [List.map_cons, List.pairwise_cons] at hp
    obtain ⟨hseq, hle⟩ := hb r (by simp)
    have hrest : decodeRows eventSeq r.seq (rs.map rowJson) = .ok rs :=
      decodeRows_rowJson hw hp.2
        (fun r' hr' => ⟨hp.1 _ (List.mem_map_of_mem hr'), (hb r' (by simp [hr'])).2⟩)
        (fun r' hr' => ht r' (by simp [hr']))
    have hkind : kind? (member (rowJson r) "kind") = some r.kind := Kind.ofName_name r.kind
    simp only [List.map_cons, decodeRows, bind_ok, need_eq_ok, exists_unit, pure_ok, orFail_eq_ok]
    exact ⟨closed_obj (List.Perm.refl _), r.seq, uint_num (hle.trans hw), ⟨hseq, hle⟩, r.kind,
      hkind, r.atNs, optionalUint_optNum (ht r (by simp)), rs, hrest, rfl⟩

/-- The frame of a plugin, as the receiver reads it. -/
def Plugin.frame (p : Plugin) (covered : Option ℕ) (now : ℕ) : Frame where
  source := p.source
  wireVersion := 3
  final := p.final
  coveredBeforeNs := covered
  frameSeq := p.frameSeq + 1
  eventSeq := p.eventSeq
  clockFaults := p.clockFaults
  sendFailures := p.sendFailures
  startedNs := p.started
  emittedNs := some now
  totals := p.total
  sourceDropped := p.dropped
  events := p.pending

namespace Plugin
variable {p : Plugin} {covered : Option ℕ} {now : ℕ}

theorem uniqueKeys_json (p : Plugin) (covered : Option ℕ) (now : ℕ) :
    (p.json covered now).uniqueKeys = true := by
  have hopt : ∀ o, (optNum o).uniqueKeys = true := by intro o; cases o <;> rfl
  have hnum : ∀ n, (num n).uniqueKeys = true := fun _ => rfl
  have htab : ∀ t, (tableJson t).uniqueKeys = true := fun _ => rfl
  have hrows : ∀ rs : List EventRow, uniqueElems (rs.map rowJson) = true := by
    intro rs
    induction rs with
    | nil => rfl
    | cons r rs ih => simp [uniqueElems, uniqueKeys, uniqueMembers, rowJson, hopt, hnum, ih]
  simp [json, uniqueKeys, uniqueMembers, hopt, hnum, htab, hrows]

theorem decodeValue_json (h : p.Sound) (hs : p.Stamped covered now) :
    decodeValue (p.json covered now) = .ok (p.frame covered now) := by
  have hcov : ∀ c ∈ covered, c ≤ uint64Max := fun c hc => (hs.stamp c hc).1.trans hs.width
  simp only [decodeValue, bind_ok, need_eq_ok, exists_unit, pure_ok, orFail_eq_ok]
  refine ⟨3, rfl, closed_obj ?_, p.final, rfl, p.source, hex?_str _, covered, ?_, p.frameSeq + 1,
    uint_num (Nat.succ_le_iff.2 hs.room), p.eventSeq, uint_num h.eventSeq, p.clockFaults,
    uint_num h.clockFaults, p.sendFailures, uint_num h.sendFailures, Nat.succ_pos _, p.started,
    optionalUint_optNum h.started, some now, optionalUint_optNum (o := some now) ?_, ?_, p.total,
    kindTable_tableJson h.total, p.dropped, kindTable_tableJson fun k => (h.dropped k).trans (h.total k),
    h.sum, h.dropped, p.pending.map rowJson, rfl, ?_, p.pending,
    decodeRows_rowJson h.eventSeq h.increasing h.bounded h.stamps, rfl⟩
  · simp only [List.map_cons, List.map_nil]; decide
  · exact optionalUint_optNum hcov
  · rintro _ ⟨⟩; exact hs.width
  · exact fun c hc => ⟨⟨now, rfl, (hs.stamp c hc).1⟩, (hs.stamp c hc).2⟩
  · rw [List.length_map]; exact h.rows

theorem ascii_json (p : Plugin) (covered : Option ℕ) (now : ℕ) :
    Ascii (p.json covered now).render := by
  have hnum : ∀ n, Ascii (num n).render := fun n => (neat_num n).ascii
  have hopt : ∀ o, Ascii (optNum o).render := by
    intro o
    cases o with
    | none => decide
    | some n => exact hnum n
  have hkind : ∀ k : Kind, Ascii k.name.toList := by intro k; cases k <;> decide
  have hname : ∀ k : Kind, Ascii (Json.str k.name).render := fun k => ascii_quote (hkind k)
  have htab : ∀ t, Ascii (tableJson t).render := by
    intro t
    refine ascii_obj fun m hm => ?_
    obtain ⟨k, -, rfl⟩ := List.mem_map.1 hm
    exact ⟨hkind k, hnum _⟩
  have hrow : ∀ r, Ascii (rowJson r).render := fun r =>
    ascii_obj (by
      simp only [List.forall_mem_cons, hnum, hname, hopt]
      decide)
  have hrows : Ascii (Json.arr (p.pending.map rowJson)).render := by
    rw [render, ascii_cons, ascii_append]
    refine ⟨by decide, ascii_renderElems fun x hx => ?_, by decide⟩
    obtain ⟨r, -, rfl⟩ := List.mem_map.1 hx
    exact hrow r
  have hfin : Ascii (Json.bool p.final).render := by cases p.final <;> decide
  refine ascii_obj ?_
  simp only [List.forall_mem_cons, hnum, hopt, htab, hrows, hfin,
    (neat_hex_str p.source).ascii]
  decide

/-- **What the plugin writes, the receiver reads.** -/
theorem decode_json (h : p.Sound) (hs : p.Stamped covered now) :
    decode (ascii (p.json covered now).render) = .ok (p.frame covered now) := by
  have hascii := ascii_json p covered now
  have hpos : 0 < (p.json covered now).render.length := by simp [json, render]
  have hlen := length_json h hs
  have hback : (ascii (p.json covered now).render).map (fun b => Char.ofNat b.toNat) =
      (p.json covered now).render := by
    rw [ascii, List.map_map]
    refine (List.map_congr_left fun c hc => ?_).trans (List.map_id _)
    have hc := hascii c hc
    simp only [Function.comp_apply, UInt8.toNat_ofNat', id_eq]
    rw [Nat.mod_eq_of_lt (by omega), Char.ofNat_toNat]
  simp only [decode, loads, bind_ok, need_eq_ok, exists_unit, orFail_eq_ok, pure_ok]
  refine ⟨⟨by simpa [ascii] using hpos, by simp [ascii, maxFrameBytes]; omega⟩, _,
    ⟨?_, _, ?_, uniqueKeys_json p covered now, rfl⟩, decodeValue_json h hs⟩
  · simp only [ascii, List.all_map, List.all_eq_true, Function.comp_apply, decide_eq_true_eq]
    intro c hc
    have hc := hascii c hc
    rw [UInt8.lt_iff_toNat_lt, UInt8.toNat_ofNat', Nat.mod_eq_of_lt (by omega)]
    exact hc
  · rw [hback, parse_render]

end Plugin
end SmartHome.Mqtt.Native
