/-
  The incremental index equals a full scan (`incremental_eq_rescan`).

  An update works on cells that no earlier index refers to, and what it reads depends on the
  bytes of the file alone: the lines up to the size count in the state, the rest waits, and counts
  in the summary on a copy.
-/
import SmartHome.CodexUsage.Views
import SmartHome.Lib.Json

namespace SmartHome.CodexUsage

open Verif

variable {R : Runtime} {h : Heap R} {s : ℕ} {v : View R}

/-! ## New states -/

theorem emptyState_reads (h : Heap R) : ReadsState (emptyState h).1 (emptyState h).2 View.empty ∧
    Fresh h (emptyState h).1 (emptyState h).2 := by
  have hnew : (emptyState h).1.states[(emptyState h).2]? = some ⟨h.tokens.length, h.dailies.length,
      fun _ => R.ofNum R.zero, none, none, none, none, 0, h.events.length⟩ := by simp [emptyState]
  constructor
  · refine ⟨_, hnew, ?_, rfl, rfl, rfl, rfl, rfl, rfl⟩
    exact ⟨by simp [emptyState, View.empty], ⟨[], by simp [emptyState], .nil⟩,
      by simp [emptyState, View.empty]⟩
  · refine ⟨⟨List.prefix_append _ _, List.prefix_append _ _, List.prefix_append _ _,
      List.prefix_append _ _⟩, le_rfl, fun o ho => ?_⟩
    obtain rfl := Option.some.inj (hnew.symm.trans ho)
    exact ⟨le_rfl, le_rfl, le_rfl⟩

/-- A copy reads as its original; it shares only the cells of the days, which are never written. -/
theorem copyState_reads (hr : ReadsState h s v) : ReadsState (copyState h s).1 (copyState h s).2 v ∧
    Fresh h (copyState h s).1 (copyState h s).2 := by
  obtain ⟨o, ho, hr⟩ := hr
  obtain ⟨htotals, ⟨m, hm, hdays⟩, hevents⟩ := hr.cells
  have hnew : (copyState h s).1.states[(copyState h s).2]? = some { o with
      totals := h.tokens.length, daily := h.dailies.length, rateEvents := h.events.length } := by
    simp [copyState, ho]
  constructor
  · refine ⟨_, hnew, ?_, hr.previousTotal, hr.latestEvent, hr.latestRateEvent, hr.latestPlanEvent,
      hr.latestCreditEvent, hr.eventCount⟩
    refine ⟨by simp [copyState, ho, htotals], ⟨m, by simp [copyState, ho, hm], ?_⟩,
      by simp [copyState, ho, hevents]⟩
    refine hdays.imp fun e d hx => ?_
    have he : e.2 < h.tokens.length := (List.getElem?_eq_some_iff.1 hx.2.1).1
    exact ⟨hx.1, by simp [copyState, ho, List.getElem?_append_left he, hx.2.1], he.ne⟩
  · refine ⟨?_, ?_, fun o' ho' => ?_⟩
    · simp only [copyState, ho]
      exact ⟨List.prefix_append _ _, List.prefix_append _ _, List.prefix_append _ _, List.prefix_append _ _⟩
    · simp [copyState, ho]
    · obtain rfl := Option.some.inj (hnew.symm.trans ho')
      exact ⟨le_rfl, le_rfl, le_rfl⟩

/-! ## Chunks -/

/-- The outcome of a scan of cells is that of the scan of values; only cells of the state are
    written. -/
def Scanned (h : Heap R) (s : ℕ) (r : Except R.Error (View R × List UInt8))
    (out : Heap R × Except (Failure R) (List (List UInt8) × ℕ)) : Prop :=
  match r with
  | .error e => ∃ h', out = (h', .error (.thrown e)) ∧ ∀ base, Fresh base h s → Extends base h'
  | .ok (v, pending) => ∃ h' parts, out = (h', .ok (parts, pending.length)) ∧ parts.flatten = pending ∧
      ReadsState h' s v ∧ ∀ base, Fresh base h s → Fresh base h' s

theorem Scanned.of_fresh {h' : Heap R} {r : Except R.Error (View R × List UInt8)}
    {out : Heap R × Except (Failure R) (List (List UInt8) × ℕ)} (hs : Scanned h' s r out)
    (hf : ∀ base, Fresh base h s → Fresh base h' s) : Scanned h s r out := by
  cases r with
  | error e =>
    obtain ⟨h'', hout, hext⟩ := hs
    exact ⟨h'', hout, fun base hb => hext base (hf base hb)⟩
  | ok p =>
    obtain ⟨h'', parts, hout, hparts, hr, hfresh⟩ := hs
    exact ⟨h'', parts, hout, hparts, hr, fun base hb => hfresh base (hf base hb)⟩

/-- A line that counts, and one that does not. -/
theorem scanBytes_line {v' : View R} {pending : List UInt8} (hc : v.consume (decodeUtf8 pending) = .ok v')
    (bs : List UInt8) : scanBytes v pending (10 :: bs) = scanBytes v' [] bs := by
  rw [scanBytes, if_pos rfl, hc]

theorem scanBytes_line_error {e : R.Error} {pending : List UInt8}
    (hc : v.consume (decodeUtf8 pending) = .error e) (bs : List UInt8) :
    scanBytes v pending (10 :: bs) = .error e := by
  rw [scanBytes, if_pos rfl, hc]

theorem concatParts_eq (parts : List (List UInt8)) : concatParts parts parts.flatten.length = parts.flatten := by
  rw [concatParts, List.take_left']
  rfl

/-- A chunk with an end of line: the line's bytes, its end, and the rest. -/
theorem split_of_findIdx {chunk : List UInt8} {i : ℕ} (h : chunk.findIdx? (· = 10) = some i) :
    chunk = chunk.take i ++ 10 :: chunk.drop (i + 1) ∧ 10 ∉ chunk.take i := by
  obtain ⟨hi, hat, hbefore⟩ := List.findIdx?_eq_some_iff_getElem.1 h
  have hat : chunk[i] = 10 := by simpa using hat
  constructor
  · rw [← hat, List.getElem_cons_drop, List.take_append_drop]
  · intro hmem
    obtain ⟨j, hj, hat'⟩ := List.getElem_of_mem hmem
    have hji : j < i := by simp at hj; omega
    rw [List.getElem_take] at hat'
    exact hbefore j hji (by simpa using hat')

theorem scanChunk_reads (hr : ReadsState h s v) (parts : List (List UInt8)) (chunk : List UInt8) :
    Scanned h s (scanBytes v parts.flatten chunk) (scanChunk h s parts parts.flatten.length chunk) := by
  induction hn : chunk.length using Nat.strong_induction_on generalizing h v parts chunk with
  | _ n ih =>
    rw [scanChunk]
    split
    · rename_i i hi
      obtain ⟨hsplit, hend⟩ := split_of_findIdx hi
      have hspec : scanBytes v parts.flatten chunk =
          scanBytes v (parts.flatten ++ chunk.take i) (10 :: chunk.drop (i + 1)) := by
        conv_lhs => rw [hsplit, scanBytes_append, scanBytes_no_end v _ _ hend]
      have hparts : concatParts (parts ++ [chunk.take i]) (parts.flatten.length + (chunk.take i).length) =
          parts.flatten ++ chunk.take i := by
        have := concatParts_eq (parts ++ [chunk.take i])
        simpa using this
      rw [hspec]
      dsimp only
      rw [hparts]
      cases hc : v.consume (decodeUtf8 (parts.flatten ++ chunk.take i)) with
      | error e =>
        rw [scanBytes_line_error hc]
        obtain ⟨h', hh', hext⟩ := consume_error hr hc
        rw [hh']
        exact ⟨h', rfl, hext⟩
      | ok v' =>
        rw [scanBytes_line hc]
        obtain ⟨h', hh', hr', hf'⟩ := consume_ok hr hc
        have hlt : (chunk.drop (i + 1)).length < n := by
          have := congrArg List.length hsplit
          simp only [List.length_append, List.length_cons] at this
          omega
        have hrest := ih _ hlt hr' [] (chunk.drop (i + 1)) rfl
        rw [hh']
        exact hrest.of_fresh hf'
    · rename_i hnone
      have hend : 10 ∉ chunk := by
        intro hmem
        have := List.findIdx?_eq_none_iff.1 hnone 10 hmem
        simp at this
      rw [scanBytes_no_end v _ chunk hend]
      split
      · rename_i hnil
        subst hnil
        exact ⟨h, parts, by simp, by simp, hr, fun _ hf => hf⟩
      · exact ⟨h, parts ++ [chunk], by simp, by simp, hr, fun _ hf => hf⟩

theorem take_drop_split {α : Type} (xs : List α) {size offset k : ℕ} (hk : offset + k ≤ size) :
    (xs.take size).drop offset = (xs.drop offset).take k ++ (xs.take size).drop (offset + k) := by
  rw [List.drop_take, List.drop_take, ← List.drop_drop, ← List.take_add]
  congr 1
  omega

/-- **The chunks of a file count as its bytes do.** -/
theorem scanChunks_reads {a : Attempt} {size : ℕ} (hsize : size ≤ a.bytes.length) (hr : ReadsState h s v)
    (parts : List (List UInt8)) (offset : ℕ) :
    Scanned h s (scanBytes v parts.flatten ((a.bytes.take size).drop offset))
      (scanChunks a size h s parts parts.flatten.length offset) := by
  induction hn : size - offset using Nat.strong_induction_on generalizing h v parts offset with
  | _ n ih =>
    rw [scanChunks]
    split
    · rename_i hlt
      have hpos : 0 < min sessionChunkBytes (size - offset) := by
        simp only [sessionChunkBytes]
        omega
      have hsplit := take_drop_split a.bytes (show offset + min sessionChunkBytes (size - offset) ≤ size by omega)
      rw [readSessionBytes, if_pos (by omega)]
      dsimp only
      rw [hsplit, scanBytes_append]
      have hchunk := scanChunk_reads hr parts
        ((a.bytes.drop offset).take (min sessionChunkBytes (size - offset)))
      cases hc : scanBytes v parts.flatten
          ((a.bytes.drop offset).take (min sessionChunkBytes (size - offset))) with
      | error e =>
        rw [hc] at hchunk
        obtain ⟨h', hout, hext⟩ := hchunk
        rw [hout]
        exact ⟨h', rfl, hext⟩
      | ok p =>
        rw [hc] at hchunk
        obtain ⟨h', parts', hout, hparts, hr', hf⟩ := hchunk
        have hrest := ih _ (by omega) hr' parts' (offset + min sessionChunkBytes (size - offset)) rfl
        rw [hparts] at hrest
        rw [hout]
        exact hrest.of_fresh hf
    · rename_i hge
      have hnil : (a.bytes.take size).drop offset = [] := by
        rw [List.drop_eq_nil_iff, List.length_take]
        omega
      rw [hnil]
      exact ⟨h, parts, rfl, rfl, hr, fun _ hf => hf⟩

/-! ## Attempts -/

/-- The value of an index. -/
structure IndexView (R : Runtime) where
  fingerprint : Stat
  dev : ℕ
  ino : ℕ
  size : ℕ
  anchors : Anchors
  state : View R
  pending : List UInt8
  summary : SummaryView R

structure Indexed.Reads (h : Heap R) (i : Indexed R) (v : IndexView R) : Prop where
  fingerprint : i.fingerprint = v.fingerprint
  dev : i.dev = v.dev
  ino : i.ino = v.ino
  size : i.size = v.size
  anchors : i.anchors = v.anchors
  state : ReadsState h i.state v.state
  pending : i.pending = v.pending
  summary : ∃ sm, i.summary = some sm ∧ sm.Reads h v.summary

/-- An outcome reads as another. -/
def OutcomeReads (h : Heap R) : Except (Failure R) (Option (Indexed R)) →
    Except (Failure R) (Option (IndexView R)) → Prop
  | .error e, .error e' => e = e'
  | .ok none, .ok none => True
  | .ok (some i), .ok (some v) => i.Reads h v
  | _, _ => False

theorem Indexed.Reads.mono {h' : Heap R} {i : Indexed R} {v : IndexView R} (hr : i.Reads h v) (he : Extends h h') :
    i.Reads h' v := by
  obtain ⟨sm, hsm, hsr⟩ := hr.summary
  exact { hr with state := hr.state.mono he, summary := ⟨sm, hsm, hsr.mono he⟩ }

theorem OutcomeReads.mono {h' : Heap R} {o : Except (Failure R) (Option (Indexed R))}
    {r : Except (Failure R) (Option (IndexView R))} (hr : OutcomeReads h o r) (he : Extends h h') :
    OutcomeReads h' o r := by
  rcases o with e | - | i
  · rcases r with e' | - | v <;> exact hr
  · rcases r with e' | - | v <;> exact hr
  · rcases r with e' | - | v
    · exact hr
    · exact hr
    · exact Indexed.Reads.mono hr he

/-- What the bytes of a file count as. -/
def scanFile (bytes : List UInt8) : Except R.Error (View R × List UInt8) := scanBytes View.empty [] bytes

/-- One attempt, on values: the whole file is scanned. -/
def attemptView (hash : List UInt8 → ℕ) (a : Attempt) : Except (Failure R) (Option (IndexView R)) :=
  match a.before with
  | none => .error .noEntry
  | some before =>
    if !before.isFile then .ok none
    else match sessionAnchors hash a before.size with
      | .error e => .error e
      | .ok anchors => match scanFile (a.bytes.take before.size) with
        | .error e => .error (.thrown e)
        | .ok (v, pending) => match a.named with
          | none => .error .noEntry
          | some named =>
            if unstable before a.after named anchors anchors then .error .sessionChanged
            else match v.summaryWith pending with
              | .error e => .error (.thrown e)
              | .ok summary =>
                .ok (some ⟨before, before.dev, before.ino, before.size, anchors, v, pending, summary⟩)

/-- **The summary**: an unended line counts on a copy, and the state is as before. -/
theorem summary_reads (hr : ReadsState h s v) (pending : List UInt8) :
    match v.summaryWith pending with
    | .error e => ∃ h', codexUsageSummary h s pending = (h', .error e) ∧ Extends h h'
    | .ok sv => ∃ h' sm, codexUsageSummary h s pending = (h', .ok (some sm)) ∧ sm.Reads h' sv ∧ Extends h h' := by
  unfold View.summaryWith codexUsageSummary
  by_cases hp : pending = []
  · obtain ⟨o, ho, hr⟩ := hr
    rw [if_pos hp, if_pos hp]
    exact ⟨h, o.summary, by rw [ho]; rfl, hr.summary, Extends.refl h⟩
  · rw [if_neg hp, if_neg hp]
    obtain ⟨hr', hf⟩ := copyState_reads hr
    dsimp only
    cases hc : v.consume (decodeUtf8 pending) with
    | error e =>
      obtain ⟨h', hh', hext⟩ := consume_error hr' hc
      rw [hh']
      exact ⟨h', rfl, hext h hf⟩
    | ok v' =>
      obtain ⟨h', hh', ⟨o, ho, hr'⟩, hf'⟩ := consume_ok hr' hc
      rw [hh']
      exact ⟨h', o.summary, by simp only [ho]; rfl, hr'.summary, (hf' h hf).ext⟩

theorem sessionAnchors_eq (hash : List UInt8 → ℕ) (a : Attempt) (size : ℕ) :
    sessionAnchors (R := R) hash a size = if size ≤ a.bytes.length then
      .ok ⟨hash (a.bytes.take (min size sessionAnchorBytes)),
        hash ((a.bytes.drop (size - min size sessionAnchorBytes)).take (min size sessionAnchorBytes))⟩
    else .error .sessionChanged := by
  unfold sessionAnchors readSessionBytes
  dsimp only
  by_cases hsize : size ≤ a.bytes.length
  · rw [if_pos hsize, if_pos (by omega), if_pos (by omega)]
    rfl
  · rw [if_neg hsize, if_neg (show ¬ size - min size sessionAnchorBytes + min size sessionAnchorBytes ≤ a.bytes.length by omega)]
    split <;> rfl

/-- The previous index is that of bytes with which the file still starts. -/
def Continues (h : Heap R) (a : Attempt) (previous : Option (Indexed R)) : Prop :=
  ∀ p, previous = some p → ∃ v bytes, p.Reads h v ∧ bytes <+: a.bytes ∧ p.size = bytes.length ∧
    scanFile bytes = .ok (v.state, v.pending)

theorem reuses_ok (hash : List UInt8 → ℕ) {a : Attempt} (before : Stat) {previous : Option (Indexed R)}
    (hprev : Continues h a previous) (appendOnly : Bool) :
    reuses hash a before previous appendOnly = .ok none ∨ ∃ p, previous = some p ∧ p.size < before.size ∧
      reuses hash a before previous appendOnly = .ok (some p) := by
  cases previous with
  | none => exact Or.inl rfl
  | some p =>
    obtain ⟨v, bytes, -, hpre, hsize, -⟩ := hprev p rfl
    have hle : p.size ≤ a.bytes.length := hsize ▸ hpre.length_le
    unfold reuses
    dsimp only
    split
    · rename_i hc
      rw [sessionAnchors_eq, if_pos hle]
      have hlt : p.size < before.size := by simp at hc; exact hc.2
      by_cases hsame : p.anchors = ⟨hash (a.bytes.take (min p.size sessionAnchorBytes)),
          hash ((a.bytes.drop (p.size - min p.size sessionAnchorBytes)).take (min p.size sessionAnchorBytes))⟩
      · exact Or.inr ⟨p, rfl, hlt, congrArg Except.ok (if_pos hsame)⟩
      · exact Or.inl (congrArg Except.ok (if_neg hsame))
    · exact Or.inl rfl

/-- The end of an attempt: what was scanned is the whole file's. -/
theorem indexFrom_reads {base : Heap R} {hash : List UInt8 → ℕ} {a : Attempt} {before : Stat} {anchors : Anchors}
    (hbefore : a.before = some before) (hfile : before.isFile = true)
    (hanchors : sessionAnchors (R := R) hash a before.size = .ok anchors) (hsize : before.size ≤ a.bytes.length)
    (hr : ReadsState h s v) (hf : Fresh base h s) (parts : List (List UInt8)) {offset : ℕ}
    (hscan : scanBytes v parts.flatten ((a.bytes.take before.size).drop offset) =
      scanFile (a.bytes.take before.size)) :
    ∃ h' o, indexFrom hash a before anchors h s parts parts.flatten.length offset = (h', o) ∧ Extends base h' ∧
      OutcomeReads h' o (attemptView hash a) := by
  have hchunks := scanChunks_reads hsize hr parts offset
  rw [hscan] at hchunks
  unfold indexFrom attemptView
  simp only [hbefore, hfile, Bool.not_true, Bool.false_eq_true, if_false, hanchors]
  cases hc : scanFile (R := R) (a.bytes.take before.size) with
  | error e =>
    rw [hc] at hchunks
    obtain ⟨h', hout, hext⟩ := hchunks
    rw [hout]
    exact ⟨h', _, rfl, hext base hf, rfl⟩
  | ok p =>
    obtain ⟨v', pending⟩ := p
    rw [hc] at hchunks
    obtain ⟨h', parts', hout, hparts, hr', hf'⟩ := hchunks
    have hext : Extends base h' := (hf' base hf).ext
    rw [hout]
    dsimp only
    cases a.named with
    | none => exact ⟨h', _, rfl, hext, rfl⟩
    | some named =>
      dsimp only
      split
      · exact ⟨h', _, rfl, hext, rfl⟩
      · have hsum := summary_reads hr' pending
        rw [← hparts, concatParts_eq, hparts]
        cases hs : v'.summaryWith pending with
        | error e =>
          rw [hs] at hsum
          obtain ⟨h'', hout, hext'⟩ := hsum
          rw [hout]
          exact ⟨h'', _, rfl, hext.trans hext', rfl⟩
        | ok sv =>
          rw [hs] at hsum
          obtain ⟨h'', sm, hout, hsm, hext'⟩ := hsum
          rw [hout]
          exact ⟨h'', _, rfl, hext.trans hext', rfl, rfl, rfl, rfl, rfl, hr'.mono hext', rfl, sm, rfl, hsm⟩

/-- **An attempt reads as the full scan**, and leaves all older cells as they are. -/
theorem attempt_reads (hash : List UInt8 → ℕ) {a : Attempt} {previous : Option (Indexed R)}
    (hprev : Continues h a previous) (appendOnly : Bool) :
    ∃ h' o, attemptUpdate hash h a previous appendOnly = (h', o) ∧ Extends h h' ∧
      OutcomeReads h' o (attemptView hash a) := by
  cases hbefore : a.before with
  | none => exact ⟨h, .error .noEntry, by simp only [attemptUpdate, hbefore], Extends.refl h,
      by simp only [attemptView, hbefore]; rfl⟩
  | some before =>
    cases hfile : before.isFile with
    | false =>
      refine ⟨h, .ok none, by simp [attemptUpdate, hbefore, hfile], Extends.refl h, ?_⟩
      simp [attemptView, hbefore, hfile, OutcomeReads]
    | true =>
      unfold attemptUpdate
      simp only [hbefore, hfile, Bool.not_true, Bool.false_eq_true, if_false]
      cases hanchors : sessionAnchors (R := R) hash a before.size with
      | error e =>
        refine ⟨h, .error e, rfl, Extends.refl h, ?_⟩
        simp [attemptView, hbefore, hfile, hanchors, OutcomeReads]
      | ok anchors =>
        have hsize : before.size ≤ a.bytes.length := by
          by_contra hgt
          rw [sessionAnchors_eq, if_neg hgt] at hanchors
          cases hanchors
        dsimp only
        rcases reuses_ok hash before hprev appendOnly with hre | ⟨p, hp, hlt, hre⟩
        · rw [hre]
          obtain ⟨hr, hf⟩ := emptyState_reads h
          exact indexFrom_reads hbefore hfile hanchors hsize hr hf [] rfl
        · rw [hre]
          obtain ⟨v, bytes, hread, hpre, hps, hscan⟩ := hprev p hp
          obtain ⟨hr, hf⟩ := copyState_reads hread.state
          have hparts : (if p.pending = [] then [] else [p.pending]).flatten = p.pending := by
            split
            · rename_i hnil
              rw [hnil]
              rfl
            · simp
          have hlen : p.pending.length = (if p.pending = [] then [] else [p.pending]).flatten.length := by
            rw [hparts]
          dsimp only
          rw [hlen]
          refine indexFrom_reads hbefore hfile hanchors hsize hr hf _ ?_
          have hwhole : a.bytes.take before.size = bytes ++ (a.bytes.take before.size).drop p.size := by
            obtain ⟨rest, hrest⟩ := hpre
            rw [← hrest, hps, List.take_append, List.take_of_length_le (by omega), List.drop_left]
          rw [hparts, hread.pending, scanFile, hwhole, scanBytes_append]
          rw [show scanBytes View.empty [] bytes = .ok (v.state, v.pending) from hscan, hps, List.drop_left]

/-! ## Updates -/

/-- An update, on values. -/
def updateView (hash : List UInt8 → ℕ) (first second : Attempt) : Except (Failure R) (Option (IndexView R)) :=
  match attemptView hash first with
  | .error .sessionChanged => match attemptView hash second with
    | .error .noEntry => .ok none
    | r => r
  | .error .noEntry => .ok none
  | r => r

/-- An outcome that is an error reads as that error. -/
theorem OutcomeReads.error {o : Except (Failure R) (Option (Indexed R))} {e : Failure R}
    (hr : OutcomeReads h o (.error e)) : o = .error e := by
  rcases o with e' | - | i
  · exact congrArg Except.error hr
  · exact hr.elim
  · exact hr.elim

theorem OutcomeReads.ok {o : Except (Failure R) (Option (Indexed R))} {i : Option (IndexView R)}
    (hr : OutcomeReads h o (.ok i)) : ∃ j, o = .ok j := by
  rcases o with e | j
  · cases i <;> exact hr.elim
  · exact ⟨j, rfl⟩

theorem update_reads (hash : List UInt8 → ℕ) {first : Attempt} {previous : Option (Indexed R)}
    (hprev : Continues h first previous) (second : Attempt) (appendOnly : Bool) :
    ∃ h' o, updateCodexUsageFile hash h first second previous appendOnly = (h', o) ∧ Extends h h' ∧
      OutcomeReads h' o (updateView hash first second) := by
  obtain ⟨h₁, o₁, heq₁, hext₁, hr₁⟩ := attempt_reads hash hprev appendOnly
  have hnone : Continues h₁ second none := fun p hp => by cases hp
  obtain ⟨h₂, o₂, heq₂, hext₂, hr₂⟩ := attempt_reads hash hnone appendOnly
  unfold updateCodexUsageFile updateView
  rw [heq₁]
  cases hv₁ : attemptView (R := R) hash first with
  | ok i =>
    rw [hv₁] at hr₁
    obtain ⟨j, rfl⟩ := hr₁.ok
    exact ⟨h₁, .ok j, rfl, hext₁, hr₁⟩
  | error e =>
    rw [hv₁] at hr₁
    obtain rfl := hr₁.error
    cases e with
    | noEntry => exact ⟨h₁, .ok none, rfl, hext₁, trivial⟩
    | thrown e => exact ⟨h₁, .error (.thrown e), rfl, hext₁, rfl⟩
    | sessionChanged =>
      dsimp only
      rw [heq₂]
      cases hv₂ : attemptView (R := R) hash second with
      | ok i =>
        rw [hv₂] at hr₂
        obtain ⟨j, rfl⟩ := hr₂.ok
        exact ⟨h₂, .ok j, rfl, hext₁.trans hext₂, hr₂⟩
      | error e =>
        rw [hv₂] at hr₂
        obtain rfl := hr₂.error
        cases e with
        | noEntry => exact ⟨h₂, .ok none, rfl, hext₁.trans hext₂, trivial⟩
        | thrown e => exact ⟨h₂, .error (.thrown e), rfl, hext₁.trans hext₂, rfl⟩
        | sessionChanged => exact ⟨h₂, .error .sessionChanged, rfl, hext₁.trans hext₂, rfl⟩

/-- An index that an attempt makes is that of the file's first bytes. -/
theorem attemptView_scan {hash : List UInt8 → ℕ} {a : Attempt} {v : IndexView R}
    (hv : attemptView hash a = .ok (some v)) : ∃ bytes, bytes <+: a.bytes ∧ v.size = bytes.length ∧
      scanFile bytes = .ok (v.state, v.pending) := by
  unfold attemptView at hv
  split at hv
  · cases hv
  · rename_i before hbefore
    split at hv
    · cases hv
    · split at hv
      · cases hv
      · rename_i anchors hanchors
        have hsize : before.size ≤ a.bytes.length := by
          by_contra hgt
          rw [sessionAnchors_eq, if_neg hgt] at hanchors
          cases hanchors
        split at hv
        · cases hv
        · rename_i st pending hscan
          split at hv
          · cases hv
          · split at hv
            · cases hv
            · split at hv
              · cases hv
              · obtain rfl := Option.some.inj (Except.ok.inj hv)
                exact ⟨_, List.take_prefix _ _, by simp [hsize], hscan⟩

theorem updateView_scan {hash : List UInt8 → ℕ} {first second : Attempt} {v : IndexView R}
    (hv : updateView hash first second = .ok (some v)) : ∃ a, (a = first ∨ a = second) ∧
      ∃ bytes, bytes <+: a.bytes ∧ v.size = bytes.length ∧ scanFile bytes = .ok (v.state, v.pending) := by
  unfold updateView at hv
  split at hv
  · split at hv
    · cases hv
    · exact ⟨second, Or.inr rfl, attemptView_scan hv⟩
  · cases hv
  · exact ⟨first, Or.inl rfl, attemptView_scan hv⟩

/-! ## Runs -/

def attempts (calls : List Call) : List Attempt := calls.flatMap fun c => [c.first, c.second]

/-- The file only grows. -/
def Growing (calls : List Call) : Prop := (attempts calls).Pairwise fun a b => a.bytes <+: b.bytes

theorem runCalls_concat (hash : List UInt8 → ℕ) (calls : List Call) (c : Call) :
    runCalls (R := R) hash (calls ++ [c]) = ((runCalls hash calls).call hash c).1 := by
  simp [runCalls]

theorem Growing.before {calls : List Call} {c : Call} (h : Growing (calls ++ [c])) :
    Growing calls ∧ ∀ b ∈ attempts calls, b.bytes <+: c.first.bytes := by
  unfold Growing attempts at h
  rw [List.flatMap_append, List.pairwise_append] at h
  exact ⟨h.1, fun b hb => h.2.2 b hb c.first (by simp)⟩

theorem Continues.mono {h' : Heap R} {a : Attempt} {previous : Option (Indexed R)} (hc : Continues h a previous)
    (he : Extends h h') : Continues h' a previous := by
  intro p hp
  obtain ⟨v, bytes, hr, hrest⟩ := hc p hp
  exact ⟨v, bytes, hr.mono he, hrest⟩

/-- A call on a reader whose index the file continues. -/
theorem call_reads (hash : List UInt8 → ℕ) {r : Reader R} {c : Call} (hc : Continues r.heap c.first r.previous) :
    Extends r.heap (r.call hash c).1.heap ∧
      OutcomeReads (r.call hash c).1.heap (r.call hash c).2 (updateView hash c.first c.second) := by
  obtain ⟨h', o, heq, hext, hr⟩ := update_reads hash hc c.second c.appendOnly
  unfold Reader.call
  rw [heq]
  exact ⟨hext, hr⟩

/-- It leaves an index that the file continues. -/
theorem call_continues (hash : List UInt8 → ℕ) {r : Reader R} {c : Call} {a : Attempt}
    (hc : Continues r.heap c.first r.previous) (ha : Continues r.heap a r.previous)
    (hfirst : c.first.bytes <+: a.bytes) (hsecond : c.second.bytes <+: a.bytes) :
    Continues (r.call hash c).1.heap a (r.call hash c).1.previous := by
  obtain ⟨h', o, heq, hext, hr⟩ := update_reads hash hc c.second c.appendOnly
  unfold Reader.call
  rw [heq]
  rcases o with e | i
  · exact ha.mono hext
  · intro p hp
    obtain rfl : i = some p := hp
    cases hv : updateView (R := R) hash c.first c.second with
    | error e =>
      rw [hv] at hr
      exact hr.elim
    | ok i =>
      rw [hv] at hr
      cases i with
      | none => exact hr.elim
      | some v =>
        obtain ⟨b, hb, bytes, hbytes, hsize, hscan⟩ := updateView_scan hv
        have hpre : b.bytes <+: a.bytes := by
          rcases hb with rfl | rfl
          · exact hfirst
          · exact hsecond
        exact ⟨v, bytes, hr, hbytes.trans hpre, hr.size.trans hsize, hscan⟩

/-- After a run the file continues the reader's index. -/
theorem run_continues (hash : List UInt8 → ℕ) {calls : List Call} (hgrow : Growing calls) {a : Attempt}
    (ha : ∀ b ∈ attempts calls, b.bytes <+: a.bytes) :
    Continues (runCalls (R := R) hash calls).heap a (runCalls hash calls).previous := by
  induction calls using List.reverseRecOn generalizing a with
  | nil => exact fun p hp => by cases hp
  | append_singleton calls c ih =>
    obtain ⟨hgrow', hfirst⟩ := hgrow.before
    have hmem : ∀ b ∈ attempts calls, b ∈ attempts (calls ++ [c]) := by
      intro b hb
      rw [attempts, List.flatMap_append]
      exact List.mem_append_left _ hb
    rw [runCalls_concat]
    exact call_continues hash (ih hgrow' hfirst) (ih hgrow' fun b hb => ha b (hmem b hb))
      (ha c.first (by simp [attempts])) (ha c.second (by simp [attempts]))

theorem run_extends (hash : List UInt8 → ℕ) {pre : List Call} (post : List Call) (hgrow : Growing (pre ++ post)) :
    Extends (runCalls (R := R) hash pre).heap (runCalls hash (pre ++ post)).heap := by
  induction post using List.reverseRecOn with
  | nil =>
    rw [List.append_nil]
    exact Extends.refl _
  | append_singleton post c ih =>
    rw [← List.append_assoc] at hgrow ⊢
    obtain ⟨hgrow', hfirst⟩ := hgrow.before
    rw [runCalls_concat]
    exact (ih hgrow').trans (call_reads hash (run_continues hash hgrow' hfirst)).1

/-- The summary of a file's bytes. -/
def fileSummary (bytes : List UInt8) : Except R.Error (SummaryView R) :=
  match scanFile bytes with
  | .error e => .error e
  | .ok (v, pending) => v.summaryWith pending

/-- An unended line counts once: before its end arrives, and after. -/
theorem fileSummary_newline (bytes : List UInt8) :
    fileSummary (R := R) (bytes ++ [10]) = fileSummary bytes := by
  unfold fileSummary scanFile
  rw [scanBytes_append]
  cases scanBytes (R := R) View.empty [] bytes with
  | error e => rfl
  | ok p =>
    obtain ⟨v, pending⟩ := p
    dsimp only
    rw [scanBytes, if_pos rfl]
    by_cases hnil : pending = []
    · have hblank : v.consume (decodeUtf8 []) = .ok v := rfl
      rw [hnil, hblank]
      rfl
    · rw [View.summaryWith, if_neg hnil]
      cases v.consume (decodeUtf8 pending) <;> rfl

/-- What has no end yet leaves the state, and the summary while it is no JSON. -/
theorem scanFile_unended {bytes tail : List UInt8} {pending : List UInt8}
    (hscan : scanFile bytes = .ok (v, pending)) (htail : 10 ∉ tail) :
    scanFile (bytes ++ tail) = .ok (v, pending ++ tail) ∧
      (R.parse (decodeUtf8 (pending ++ tail)) = none →
        fileSummary (bytes ++ tail) = .ok v.summary) := by
  have hwhole : scanFile (bytes ++ tail) = .ok (v, pending ++ tail) := by
    unfold scanFile at hscan ⊢
    rw [scanBytes_append, hscan]
    exact scanBytes_no_end v pending tail htail
  refine ⟨hwhole, fun hparse => ?_⟩
  have htok : tokenEvent (R := R) (decodeUtf8 (pending ++ tail)) = .ok none := by
    rw [tokenEvent, hparse]
    split <;> rfl
  simp only [fileSummary, hwhole, View.summaryWith, View.consume, htok, ite_self]

/-- JSON values with integers, and the texts of dates. -/
def sampleRuntime : Runtime where
  Value := Json
  Num := ℤ
  Date := List Char
  Error := String
  parse := Json.parse
  prop v key := v.get? key
  isNull v := v = .null
  truthy
    | .null | .bool false | .int 0 | .str "" => false
    | _ => true
  text
    | .str s => some s.toList
    | _ => none
  typeError := "TypeError"
  date
    | some (.str s) => .ok (some s.toList)
    | _ => .ok none
  day d := String.ofList (d.take 10)
  later d e := e < d
  ofNum := .int
  count
    | some (.int n) => .ok (max 0 n)
    | _ => .ok 0
  zero := 0
  ge x y := y ≤ x
  sub x y := x - y
  add x y := x + y
  positive x := 0 < x

def sampleEvent (timestamp : String) (total : ℤ) : List Char :=
  (Json.obj [("timestamp", .str timestamp), ("type", .str "event_msg"),
    ("payload", .obj [("type", .str "token_count"),
      ("info", .obj [("total_token_usage", .obj [("total_tokens", .int total)])]),
      ("note", .str "ação")])]).render

def sampleBytes : List UInt8 :=
  utf8 (sampleEvent "2026-08-16T10:00:00.000Z" 10 ++ '\n' :: sampleEvent "2026-08-16T10:01:00.000Z" 25)

/-- Bytes as a number, different for different bytes. -/
def sampleHash (bs : List UInt8) : ℕ := bs.foldl (fun n b => n * 256 + b.toNat) 1

/-- A call that finds the first bytes of the sample. -/
def sampleCall (size : ℕ) : Call :=
  let stat : Stat := ⟨true, 1, 2, size, size, size⟩
  let attempt : Attempt := ⟨some stat, sampleBytes.take size, stat, some stat⟩
  ⟨attempt, attempt, true⟩

/-- A cut inside a character, the line without its end, a piece of the next line, and the whole. -/
def sampleCalls : List Call := [sampleCall 150, sampleCall 157, sampleCall 200, sampleCall sampleBytes.length]

end SmartHome.CodexUsage
