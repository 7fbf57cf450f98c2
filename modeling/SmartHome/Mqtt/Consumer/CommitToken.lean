/-
  The tokens of commits (`encodeCheckpointCommit` and `decodeCommit` in `canvas_checkpoint.mjs`): a
  bare hash, or `c1_` and the base64url text of the canonical JSON of a proposal and a checkpoint.

  Two JSON values are the same JavaScript value if they are equal up to the order of members, that is
  if they are equal when they are sorted.
-/
import SmartHome.Lib.Base64
import SmartHome.Lib.JsonBytes
import SmartHome.Mqtt.Consumer.CheckpointForm

namespace SmartHome.Mqtt.Consumer

open Verif

/-! ## Tokens -/

/-- `validateCheckpoint` -/
def validateCheckpoint (j : Json) : Option Checkpoint := (Checkpoint.read j).filter (·.Valid)

/-- A proposal and its checkpoint. -/
def commitJson (proposal checkpoint : Json) : Json :=
  .obj [("proposal_sha", proposal), ("checkpoint", checkpoint)]

/-- `encodeCheckpointCommit` -/
def encodeCheckpointCommit (proposal checkpoint : Json) : Option String := do
  let _ ← hex? 64 proposal
  let _ ← validateCheckpoint checkpoint
  let text := (commitJson proposal checkpoint).canonical
  guard (byteLength text ≤ maxCheckpointBytes + 128)
  return String.ofList ("c1_".toList ++ toBase64url (ascii text))

/-- `raw.toString('ascii')`, where all bytes are below 128. -/
def asciiText (raw : Bytes) : List Char := raw.map fun b => Char.ofNat b.toNat

/-- `decodeCommit` -/
def decodeCommit (value : String) : Option Json :=
  if isHex 64 value then some (commitJson (.str value) .null)
  else do
    let encoded := value.toList.drop 3
    guard (value.toList.take 3 = "c1_".toList ∧ encoded ≠ [] ∧ encoded.all (· ∈ alphabet64) ∧
      value.toList.length ≤ 90000)
    let raw := fromBase64url encoded
    guard (raw.length ≤ maxCheckpointBytes + 128 ∧ toBase64url raw = encoded ∧ raw.all (· < 128))
    let text := asciiText raw
    let v ← Json.parse text
    let m ← closed ["proposal_sha", "checkpoint"] v
    guard (v.canonical = text)
    let _ ← hex? 64 (m "proposal_sha")
    let _ ← validateCheckpoint (m "checkpoint")
    return v

/-! ## Texts -/

theorem toNat_ofNat_low : ∀ {n : ℕ}, n < 128 → (Char.ofNat n).toNat = n := by decide +kernel

theorem ascii_asciiText {raw : Bytes} (h : ∀ x ∈ raw, x < 128) : ascii (asciiText raw) = raw := by
  rw [ascii, asciiText, List.map_map]
  refine (List.map_congr_left fun x hx => ?_).trans (List.map_id raw)
  have hlow : x.toNat < 128 := UInt8.lt_iff_toNat_lt.1 (h x hx)
  rw [Function.comp_apply, toNat_ofNat_low hlow, UInt8.ofNat_toNat, id]

theorem asciiText_ascii {text : List Char} (h : Json.Ascii text) : asciiText (ascii text) = text := by
  rw [ascii, asciiText, List.map_map]
  refine (List.map_congr_left fun c hc => ?_).trans (List.map_id text)
  have hlow : c.toNat % 2 ^ 8 = c.toNat := Nat.mod_eq_of_lt ((h c hc).trans (by norm_num))
  rw [Function.comp_apply, UInt8.toNat_ofNat', hlow, Char.ofNat_toNat, id]

theorem ascii_of_bytes {raw : Bytes} (h : ∀ x ∈ raw, x < 128) : Json.Ascii (asciiText raw) := by
  intro c hc
  obtain ⟨x, hx, rfl⟩ := List.mem_map.1 hc
  have hlow : x.toNat < 128 := UInt8.lt_iff_toNat_lt.1 (h x hx)
  rwa [toNat_ofNat_low hlow]

theorem bytes_of_ascii {text : List Char} (h : Json.Ascii text) : ∀ x ∈ ascii text, x < 128 := by
  intro x hx
  obtain ⟨c, hc, rfl⟩ := List.mem_map.1 hx
  have hlow : c.toNat % 2 ^ 8 = c.toNat := Nat.mod_eq_of_lt ((h c hc).trans (by norm_num))
  rw [UInt8.lt_iff_toNat_lt, UInt8.toNat_ofNat', hlow]
  exact h c hc

/-! ## Checkpoints are neat -/

theorem neat_elim {α : Type} {g : α → Json} (o : Option α) (h : ∀ a, (g a).Neat) : (o.elim .null g).Neat := by
  cases o with
  | none => exact Json.neat_null
  | some a => exact h a

theorem neat_window (w : Window) : w.json.Neat := by
  have hcut : ∀ c : Cut, c.json.Neat := by
    intro c
    unfold Cut.json
    split_ifs
    · exact Json.neat_obj (by simp only [List.map_cons, List.map_nil]; decide)
        (by simp only [List.map_cons, List.map_nil]; decide) (by simp [neat_num])
    · exact Json.neat_obj (by simp only [List.map_cons, List.map_nil]; decide)
        (by simp only [List.map_cons, List.map_nil]; decide) (by simp [neat_num])
  have hpolicy : (Json.obj [("event_latency_ms", num w.eventLatencyMs),
      ("window_duration_ns", num w.windowDurationNs)]).Neat :=
    Json.neat_obj (by simp only [List.map_cons, List.map_nil]; decide)
      (by simp only [List.map_cons, List.map_nil]; decide) (by simp [neat_num])
  have hviolations : (violationJson w.violations).Neat :=
    Json.neat_obj (by simp only [List.map_cons, List.map_nil]; decide)
      (by simp only [List.map_cons, List.map_nil]; decide) (by simp [neat_num])
  have hkinds : (kindJson fun k => optNum (w.maxUpperNsByKind k)).Neat := neat_kinds fun k => neat_opt _
  have hphase : (Json.str w.phase.name).Neat := Json.neat_str (by cases w.phase <;> decide)
  have hreason : (Json.str w.reason.name).Neat := Json.neat_str (by cases w.reason <;> decide)
  refine Json.neat_obj (by simp only [List.map_cons, List.map_nil]; decide)
    (by simp only [List.map_cons, List.map_nil]; decide) ?_
  simp [neat_num, neat_totals, neat_hex, neat_elim _ hcut, hkinds, hpolicy, hviolations, hphase, hreason]

theorem neat_checkpoint (c : Checkpoint) : c.json.Neat := by
  have hseen : ∀ o : Observation, o.json.Neat := by
    intro o
    have hstate : (Json.str (if o.sourceExited then "verified_exited" else "verified_live")).Neat :=
      Json.neat_str (by split_ifs <;> decide)
    refine Json.neat_obj (by simp only [List.map_cons, List.map_nil]; decide)
      (by simp only [List.map_cons, List.map_nil]; decide) ?_
    simp [neat_num, neat_hex, Json.neat_bool, hstate]
  have hrequest : ∀ r : WindowRequest, r.json.Neat := by
    intro r
    have hstate : (Json.str r.state.name).Neat := Json.neat_str (by cases r.state <;> decide)
    refine Json.neat_obj (by simp only [List.map_cons, List.map_nil]; decide)
      (by simp only [List.map_cons, List.map_nil]; decide) ?_
    simp [neat_hex, hstate]
  have hhistory : (Json.arr (c.history.map Window.json)).Neat := by
    refine Json.neat_arr fun x hx => ?_
    obtain ⟨w, -, rfl⟩ := List.mem_map.1 hx
    exact neat_window w
  have hversion : (Json.int c.schemaVersion).Neat := by
    refine ⟨by simp [Json.Sorted], fun d hd => ?_⟩
    rw [Json.render, if_neg (by omega), Int.natAbs_natCast] at hd
    have hdigit := isDigit_toNat (Json.decimal_isDigit d hd)
    omega
  unfold Checkpoint.json
  split_ifs
  · refine Json.neat_obj (by simp only [List.map_cons, List.map_nil, List.cons_append, List.nil_append]; decide)
      (by simp only [List.map_cons, List.map_nil, List.cons_append, List.nil_append]; decide) ?_
    simp [neat_num, neat_hex, neat_optHex, neat_window, neat_elim _ hseen, neat_elim _ hrequest, hhistory, hversion]
  · refine Json.neat_obj (by simp only [List.map_cons, List.map_nil, List.cons_append, List.nil_append, List.append_nil]; decide)
      (by simp only [List.map_cons, List.map_nil, List.cons_append, List.nil_append, List.append_nil]; decide) ?_
    simp [neat_num, neat_hex, neat_optHex, neat_window, hhistory, hversion]

/-! ## Values -/

theorem validate_iff {j : Json} {c : Checkpoint} : validateCheckpoint j = some c ↔ Checkpoint.read j = some c ∧ c.Valid := by
  rw [validateCheckpoint, Option.filter_eq_some_iff, decide_eq_true_eq]

/-- The size that is checked is that of the value's own text. -/
theorem canonical_of_read {j : Json} {c : Checkpoint} (h : Checkpoint.read j = some c) :
    j.canonical = c.json.canonical := by
  rw [Json.canonical, reads_checkpoint j c h, Json.canonical, Json.sort_of_sorted (neat_checkpoint c).sorted]

/-- A commit with its members in order. -/
def sortedCommit (proposal : Hex 64) (checkpoint : Checkpoint) : Json :=
  .obj [("checkpoint", checkpoint.json), ("proposal_sha", hexJson proposal)]

theorem neat_commit (proposal : Hex 64) (checkpoint : Checkpoint) : (sortedCommit proposal checkpoint).Neat := by
  refine Json.neat_obj (by simp only [List.map_cons, List.map_nil]; decide)
    (by simp only [List.map_cons, List.map_nil]; decide) ?_
  simp [neat_checkpoint, neat_hex]

theorem sort_commitJson (proposal checkpoint : Json) : (commitJson proposal checkpoint).sort =
    .obj [("checkpoint", checkpoint.sort), ("proposal_sha", proposal.sort)] := by
  have hkeys : ([("proposal_sha", proposal), ("checkpoint", checkpoint)].map Prod.fst).Perm
      ["checkpoint", "proposal_sha"] := by
    simp only [List.map_cons, List.map_nil]
    decide
  rw [commitJson, Json.sort_obj (by decide) hkeys]
  rfl

theorem sort_commit {proposal checkpoint : Json} {p : Hex 64} {c : Checkpoint} (hp : hex? 64 proposal = some p)
    (hc : Checkpoint.read checkpoint = some c) : (commitJson proposal checkpoint).sort = sortedCommit p c := by
  rw [sort_commitJson, reads_checkpoint _ _ hc, reads_hex 64 _ _ hp, sortedCommit]

theorem canonical_commit {proposal checkpoint : Json} {p : Hex 64} {c : Checkpoint} (hp : hex? 64 proposal = some p)
    (hc : Checkpoint.read checkpoint = some c) :
    (commitJson proposal checkpoint).canonical = (sortedCommit p c).render := by
  rw [Json.canonical, sort_commit hp hc]

/-- The text of a commit is hardly longer than that of its checkpoint. -/
theorem length_commit {p : Hex 64} {c : Checkpoint} (h : c.Valid) :
    (sortedCommit p c).render.length ≤ maxCheckpointBytes + 128 := by
  have hsize : c.json.canonical.length ≤ maxCheckpointBytes := h.2.2.2.2.2.2.2.2.2.2
  rw [Json.length_canonical] at hsize
  have hhex := length_hex p
  refine (Json.length_obj_le _).trans ?_
  simp only [List.map_cons, List.map_nil, List.sum_cons, List.sum_nil, Json.memberLen]
  simp [Json.quote, Json.escape]
  omega

/-! ## Round trips -/

theorem isHex_token (cs : List Char) : isHex 64 (String.ofList ("c1_".toList ++ cs)) = false := by
  rw [← Bool.not_eq_true]
  intro h
  simp only [isHex, String.toList_ofList, Bool.and_eq_true, List.all_append] at h
  exact absurd h.2.1 (by decide)

theorem encode_eq_some {proposal checkpoint : Json} {t : String} :
    encodeCheckpointCommit proposal checkpoint = some t ↔ ∃ p c, hex? 64 proposal = some p ∧
      validateCheckpoint checkpoint = some c ∧
        t = String.ofList ("c1_".toList ++ toBase64url (ascii (sortedCommit p c).render)) := by
  simp only [encodeCheckpointCommit, bind_some, guard_some, exists_unit, pure_some]
  constructor
  · rintro ⟨p, hp, c, hc, -, rfl⟩
    exact ⟨p, c, hp, hc, by rw [canonical_commit hp (validate_iff.1 hc).1]⟩
  · rintro ⟨p, c, hp, hc, rfl⟩
    obtain ⟨hread, hvalid⟩ := validate_iff.1 hc
    rw [canonical_commit hp hread, byteLength_ascii (neat_commit p c).ascii]
    exact ⟨p, hp, c, hc, length_commit hvalid, rfl⟩

/-- **A token is decoded to what was encoded.** -/
theorem decode_encode {proposal checkpoint : Json} {t : String} (h : encodeCheckpointCommit proposal checkpoint = some t) :
    decodeCommit t = some (commitJson proposal checkpoint).sort := by
  obtain ⟨p, c, hp, hc, rfl⟩ := encode_eq_some.1 h
  obtain ⟨hread, hvalid⟩ := validate_iff.1 hc
  have hneat := neat_commit p c
  have hsize := length_commit (p := p) hvalid
  rw [sort_commit hp hread]
  generalize htext : (sortedCommit p c).render = text at hsize
  have hascii : Json.Ascii text := htext ▸ hneat.ascii
  have hbytes : (ascii text).length = text.length := List.length_map _
  have hlength := length_toBase64url (ascii text)
  have hnonempty : toBase64url (ascii text) ≠ [] := by
    obtain ⟨d, ds, hd, -⟩ := Json.render_head (sortedCommit p c)
    intro hnil
    rw [hnil, List.length_nil, hbytes, ← htext, hd, List.length_cons] at hlength
    omega
  have hparse : Json.parse text = some (sortedCommit p c) := htext ▸ Json.parse_render _
  have hcanonical : (sortedCommit p c).canonical = text := by
    rw [Json.canonical_of_sorted hneat.sorted, htext]
  have htoken : (String.ofList ("c1_".toList ++ toBase64url (ascii text))).toList =
      'c' :: '1' :: '_' :: toBase64url (ascii text) := String.toList_ofList
  rw [decodeCommit, if_neg (by rw [isHex_token]; decide)]
  simp only [htoken, List.drop_succ_cons, List.drop_zero, List.take_succ_cons, List.take_zero, bind_some, guard_some,
    exists_unit, pure_some, List.all_eq_true, decide_eq_true_eq, fromBase64url_toBase64url, asciiText_ascii hascii]
  refine ⟨⟨rfl, hnonempty, mem_toBase64url _, ?_⟩, ⟨by omega, trivial, bytes_of_ascii hascii⟩, _, hparse, _,
    closed_obj (by simp only [List.map_cons, List.map_nil]; decide), hcanonical, p, hex?_str p, c, ?_, rfl⟩
  · rw [List.length_cons, List.length_cons, List.length_cons, hlength, hbytes]
    unfold maxCheckpointBytes at hsize
    omega
  · exact validate_iff.2 ⟨Checkpoint.read_json hvalid, hvalid⟩

/-- **A token that is accepted is the encoding of what it is decoded to.** -/
theorem encode_decode {t : String} {v : Json} (h : decodeCommit t = some v) (hbare : isHex 64 t = false) :
    v.sort = v ∧ ∃ proposal checkpoint, v = (commitJson proposal checkpoint).sort ∧
      encodeCheckpointCommit proposal checkpoint = some t := by
  rw [decodeCommit, if_neg (by rw [hbare]; decide)] at h
  simp only [bind_some, guard_some, exists_unit, pure_some, List.all_eq_true, decide_eq_true_eq] at h
  obtain ⟨⟨hstart, -, -, -⟩, ⟨hsize, hsame, hlow⟩, v', hparse, m, hm, hcanonical, p, hp, c, hc, rfl⟩ := h
  obtain ⟨hsorted, hrender⟩ := Json.of_canonical hparse hcanonical
  obtain ⟨hread, hvalid⟩ := validate_iff.1 hc
  have hsort : v'.sort = (commitJson (m "proposal_sha") (m "checkpoint")).sort := by
    rw [closed_sort ["checkpoint", "proposal_sha"] hm (by decide) (by decide), sort_commitJson]
    rfl
  refine ⟨hsorted, m "proposal_sha", m "checkpoint", hsorted.symm.trans hsort, ?_⟩
  refine encode_eq_some.2 ⟨p, c, hp, hc, ?_⟩
  have htext : (sortedCommit p c).render = asciiText (fromBase64url (t.toList.drop 3)) := by
    rw [← sort_commit hp hread, ← hsort, hsorted, hrender]
  rw [htext, ascii_asciiText hlow, hsame, ← hstart, List.take_append_drop, String.ofList_toList]

/-- **Tokens are a faithful encoding.**  Every valid checkpoint has a token with each proposal, which is
    decoded to the two; every token that is accepted is the encoding of what it is decoded to.  So no
    token stands for two commits and no two texts are decoded to one commit, and no token is a bare
    hash. -/
theorem commit_tokens :
    (∀ proposal checkpoint, (hex? 64 proposal).isSome → (validateCheckpoint checkpoint).isSome →
      ∃ t, encodeCheckpointCommit proposal checkpoint = some t ∧
        decodeCommit t = some (commitJson proposal checkpoint).sort) ∧
    (∀ t v, decodeCommit t = some v → isHex 64 t = false → ∃ proposal checkpoint,
      v = (commitJson proposal checkpoint).sort ∧ encodeCheckpointCommit proposal checkpoint = some t) ∧
    (∀ proposal checkpoint proposal' checkpoint' t, encodeCheckpointCommit proposal checkpoint = some t →
      encodeCheckpointCommit proposal' checkpoint' = some t →
        (commitJson proposal checkpoint).sort = (commitJson proposal' checkpoint').sort) ∧
    (∀ t t' v v', decodeCommit t = some v → decodeCommit t' = some v' → v.sort = v'.sort → t = t') ∧
    (∀ proposal checkpoint t, encodeCheckpointCommit proposal checkpoint = some t → isHex 64 t = false) ∧
    ∀ t, isHex 64 t = true → decodeCommit t = some (commitJson (.str t) .null) := by
  have hbare : ∀ t, isHex 64 t = true → decodeCommit t = some (commitJson (.str t) .null) := fun t ht => by
    rw [decodeCommit, if_pos ht]
  -- a commit of a token has a checkpoint, that of a bare hash has none
  have hapart : ∀ t t' v v', isHex 64 t = true → isHex 64 t' = false → decodeCommit t = some v →
      decodeCommit t' = some v' → v.sort ≠ v'.sort := by
    intro t t' v v' ht ht' hv hv' heq
    rw [hbare t ht] at hv
    obtain rfl := Option.some.inj hv
    obtain ⟨hsorted, proposal, checkpoint, hcommit, hencode⟩ := encode_decode hv' ht'
    obtain ⟨p, c, hp, hc, -⟩ := encode_eq_some.1 hencode
    rw [hsorted, hcommit, sort_commit hp (validate_iff.1 hc).1, sort_commitJson, sortedCommit, Json.sort_null] at heq
    have hnull : c.json = .null := by
      injection heq with heq
      injection heq with heq
      injection heq with _ heq
      exact heq.symm
    exact absurd hnull (by unfold Checkpoint.json; split_ifs <;> simp)
  refine ⟨fun proposal checkpoint hp hc => ?_, fun t v hv ht => ?_, ?_, ?_, ?_, hbare⟩
  · obtain ⟨p, hp⟩ := Option.isSome_iff_exists.1 hp
    obtain ⟨c, hc⟩ := Option.isSome_iff_exists.1 hc
    have hencode := encode_eq_some.2 ⟨p, c, hp, hc, rfl⟩
    exact ⟨_, hencode, decode_encode hencode⟩
  · exact (encode_decode hv ht).2
  · intro proposal checkpoint proposal' checkpoint' t h h'
    exact Option.some.inj ((decode_encode h).symm.trans (decode_encode h'))
  · intro t t' v v' hv hv' heq
    cases ht : isHex 64 t with
    | true =>
      cases ht' : isHex 64 t' with
      | true =>
        rw [hbare t ht] at hv
        rw [hbare t' ht'] at hv'
        obtain rfl := Option.some.inj hv
        obtain rfl := Option.some.inj hv'
        simp only [sort_commitJson, Json.sort_str] at heq
        simpa using heq
      | false => exact absurd heq (hapart t t' v v' ht ht' hv hv')
    | false =>
      cases ht' : isHex 64 t' with
      | true => exact absurd heq.symm (hapart t' t v' v ht' ht hv' hv)
      | false =>
        obtain ⟨hsorted, proposal, checkpoint, hcommit, hencode⟩ := encode_decode hv ht
        obtain ⟨hsorted', proposal', checkpoint', hcommit', hencode'⟩ := encode_decode hv' ht'
        obtain ⟨p, c, hp, hc, rfl⟩ := encode_eq_some.1 hencode
        obtain ⟨p', c', hp', hc', rfl⟩ := encode_eq_some.1 hencode'
        have hsame : sortedCommit p c = sortedCommit p' c' := by
          rw [← sort_commit hp (validate_iff.1 hc).1, ← sort_commit hp' (validate_iff.1 hc').1, ← hcommit, ← hcommit',
            ← hsorted, heq, hsorted']
        rw [hsame]
  · intro proposal checkpoint t h
    obtain ⟨p, c, -, -, rfl⟩ := encode_eq_some.1 h
    exact isHex_token _

/-! ## A token -/

theorem isHex_zeros : isHex 64 "0000000000000000000000000000000000000000000000000000000000000000" = true := by
  decide

def sampleHash : Hex 64 := ⟨"0000000000000000000000000000000000000000000000000000000000000000", isHex_zeros⟩

/-- The first checkpoint of a window that waits. -/
def sampleCheckpoint : Checkpoint where
  schemaVersion := 1
  sequence := 1
  previousSha256 := none
  proposalSha := sampleHash
  receiptId := 0
  acknowledgedCountsSha256 := sampleHash
  window := {
    idSha256 := sampleHash
    phase := .waiting
    reason := .notStarted
    clockDomainSha256 := sampleHash
    startedAtNs := 0
    observedAtNs := 5
    firstReceiptId := 0
    lastReceiptId := 0
    baselineCounts := 0
    acknowledgedCounts := 0
    maxUpperNsByKind := fun _ => none
    violations := fun _ => 0
    eventLatencyMs := 30000
    windowDurationNs := 86400000000000
    cut := none }
  history := []
  readerObservation := none
  windowRequest := none

theorem commit_tokens_sample : ∃ t, encodeCheckpointCommit (hexJson sampleHash) sampleCheckpoint.json = some t ∧
    decodeCommit t = some (commitJson (hexJson sampleHash) sampleCheckpoint.json).sort := by
  have hwindow : sampleCheckpoint.window.Valid := by decide +kernel
  have hlength : sampleCheckpoint.json.canonical.length ≤ maxCheckpointBytes := by
    have hopening : sampleCheckpoint.json.render.length ≤ 17000 := Checkpoint.length_opening rfl rfl (by norm_num [sampleCheckpoint])
      (by norm_num [sampleCheckpoint]) hwindow
    rw [Json.length_canonical]
    exact hopening.trans (by norm_num [maxCheckpointBytes])
  have hvalid : sampleCheckpoint.Valid := by
    refine ⟨.inl ⟨rfl, rfl, rfl⟩, ?_, ?_, ?_, ?_, hwindow, ?_, ?_, ?_, ?_, hlength⟩
    all_goals simp [sampleCheckpoint, maxWindowHistory]
  have hcheckpoint : validateCheckpoint sampleCheckpoint.json = some sampleCheckpoint :=
    validate_iff.2 ⟨Checkpoint.read_json hvalid, hvalid⟩
  exact commit_tokens.1 _ _ (by rw [hexJson, hex?_str]; rfl) (by rw [hcheckpoint]; rfl)

end SmartHome.Mqtt.Consumer
