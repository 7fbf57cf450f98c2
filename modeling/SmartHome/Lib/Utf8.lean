/-
  UTF-8: the bytes of a text, and a decoder that puts the replacement character for bytes
  that are no character.
-/
import Mathlib.Data.List.Induction
import Mathlib.Tactic.NormNum

namespace Verif

/-- The bytes of a text. -/
def utf8 (t : List Char) : List UInt8 := t.flatMap String.utf8EncodeChar

@[simp] theorem utf8_nil : utf8 [] = [] := rfl

@[simp] theorem utf8_cons (c : Char) (t : List Char) :
    utf8 (c :: t) = String.utf8EncodeChar c ++ utf8 t := by
  simp [utf8]

@[simp] theorem utf8_append (s t : List Char) : utf8 (s ++ t) = utf8 s ++ utf8 t := by
  simp [utf8]

/-- A character of which some bytes are read: the code so far, how many bytes follow the next
    one, and the bounds of the next one. -/
structure Partial where
  code : ℕ
  owed : ℕ
  low : ℕ
  high : ℕ
  deriving DecidableEq, Repr

/-- `U+FFFD` -/
def replacement : Char := '\uFFFD'

/-- The first byte of a character. -/
def leadByte (b : ℕ) : List Char × Option Partial :=
  if b < 0x80 then ([Char.ofNat b], none)
  else if b < 0xC2 then ([replacement], none)
  else if b < 0xE0 then ([], some ⟨b - 0xC0, 0, 0x80, 0xBF⟩)
  else if b < 0xF0 then
    ([], some ⟨b - 0xE0, 1, if b = 0xE0 then 0xA0 else 0x80, if b = 0xED then 0x9F else 0xBF⟩)
  else if b < 0xF5 then
    ([], some ⟨b - 0xF0, 2, if b = 0xF0 then 0x90 else 0x80, if b = 0xF4 then 0x8F else 0xBF⟩)
  else ([replacement], none)

/-- A further byte of a character; a byte out of bounds ends it and starts the next one. -/
def nextByte (p : Partial) (b : ℕ) : List Char × Option Partial :=
  if p.low ≤ b ∧ b ≤ p.high then
    match p.owed with
    | 0 => ([Char.ofNat (p.code * 64 + (b - 0x80))], none)
    | n + 1 => ([], some ⟨p.code * 64 + (b - 0x80), n, 0x80, 0xBF⟩)
  else (replacement :: (leadByte b).1, (leadByte b).2)

def decodeByte : Option Partial → UInt8 → List Char × Option Partial
  | none, b => leadByte b.toNat
  | some p, b => nextByte p b.toNat

/-- Decode the bytes from a position in a character. -/
def decodeFrom : Option Partial → List UInt8 → List Char
  | none, [] => []
  | some _, [] => [replacement]
  | p, b :: bs => (decodeByte p b).1 ++ decodeFrom (decodeByte p b).2 bs

/-- The text of the bytes. -/
def decodeUtf8 (bs : List UInt8) : List Char := decodeFrom none bs

@[simp] theorem decodeUtf8_nil : decodeUtf8 [] = [] := rfl

theorem decodeFrom_cons (p : Option Partial) (b : UInt8) (bs : List UInt8) :
    decodeFrom p (b :: bs) = (decodeByte p b).1 ++ decodeFrom (decodeByte p b).2 bs := by
  cases p <;> rfl

/-! ## Whole and cut characters -/

theorem toNat_ofNat {v : ℕ} (h : v < 256) : (UInt8.ofNat v).toNat = v := by
  simpa using Nat.mod_eq_of_lt h

/-- The bytes of a character by its range. -/
theorem encodeChar_eq (c : Char) : String.utf8EncodeChar c =
    if c.toNat ≤ 0x7f then [UInt8.ofNat c.toNat]
    else if c.toNat ≤ 0x7ff then
      [UInt8.ofNat (c.toNat / 64 % 32 + 0xc0), UInt8.ofNat (c.toNat % 64 + 0x80)]
    else if c.toNat ≤ 0xffff then
      [UInt8.ofNat (c.toNat / 4096 % 16 + 0xe0), UInt8.ofNat (c.toNat / 64 % 64 + 0x80),
        UInt8.ofNat (c.toNat % 64 + 0x80)]
    else
      [UInt8.ofNat (c.toNat / 262144 % 8 + 0xf0), UInt8.ofNat (c.toNat / 4096 % 64 + 0x80),
        UInt8.ofNat (c.toNat / 64 % 64 + 0x80), UInt8.ofNat (c.toNat % 64 + 0x80)] := rfl

theorem decodeByte_ascii {v : ℕ} (h : v < 0x80) :
    decodeByte none (UInt8.ofNat v) = ([Char.ofNat v], none) := by
  rw [decodeByte, toNat_ofNat (by omega), leadByte, if_pos h]

theorem decodeByte_two {v : ℕ} (h2 : 2 ≤ v) (h : v < 32) :
    decodeByte none (UInt8.ofNat (v + 0xc0)) = ([], some ⟨v, 0, 0x80, 0xBF⟩) := by
  rw [decodeByte, toNat_ofNat (by omega), leadByte, if_neg (by omega), if_neg (by omega),
    if_pos (by omega), Nat.add_sub_cancel]

theorem decodeByte_three {v : ℕ} (h : v < 16) : decodeByte none (UInt8.ofNat (v + 0xe0)) =
    ([], some ⟨v, 1, if v = 0 then 0xA0 else 0x80, if v = 13 then 0x9F else 0xBF⟩) := by
  have h0 : v + 0xe0 = 0xE0 ↔ v = 0 := by omega
  have h13 : v + 0xe0 = 0xED ↔ v = 13 := by omega
  rw [decodeByte, toNat_ofNat (by omega), leadByte, if_neg (by omega), if_neg (by omega),
    if_neg (by omega), if_pos (by omega), Nat.add_sub_cancel]
  simp only [h0, h13]

theorem decodeByte_four {v : ℕ} (h : v < 5) : decodeByte none (UInt8.ofNat (v + 0xf0)) =
    ([], some ⟨v, 2, if v = 0 then 0x90 else 0x80, if v = 4 then 0x8F else 0xBF⟩) := by
  have h0 : v + 0xf0 = 0xF0 ↔ v = 0 := by omega
  have h4 : v + 0xf0 = 0xF4 ↔ v = 4 := by omega
  rw [decodeByte, toNat_ofNat (by omega), leadByte, if_neg (by omega), if_neg (by omega),
    if_neg (by omega), if_neg (by omega), if_pos (by omega), Nat.add_sub_cancel]
  simp only [h0, h4]

theorem decodeByte_last {code low high x : ℕ} (hx : x < 64) (hlow : low ≤ x + 0x80)
    (hhigh : x + 0x80 ≤ high) : decodeByte (some ⟨code, 0, low, high⟩) (UInt8.ofNat (x + 0x80)) =
      ([Char.ofNat (code * 64 + x)], none) := by
  rw [decodeByte, toNat_ofNat (by omega), nextByte, if_pos ⟨hlow, hhigh⟩, Nat.add_sub_cancel]

theorem decodeByte_more {code n low high x : ℕ} (hx : x < 64) (hlow : low ≤ x + 0x80)
    (hhigh : x + 0x80 ≤ high) : decodeByte (some ⟨code, n + 1, low, high⟩) (UInt8.ofNat (x + 0x80)) =
      ([], some ⟨code * 64 + x, n, 0x80, 0xBF⟩) := by
  rw [decodeByte, toNat_ofNat (by omega), nextByte, if_pos ⟨hlow, hhigh⟩, Nat.add_sub_cancel]

/-- The bytes of a character, read one by one: each but the last leaves a part of it. -/
inductive Reads : Option Partial → List UInt8 → Char → Prop
  | last {p : Option Partial} {b : UInt8} {c : Char} :
    decodeByte p b = ([c], none) → Reads p [b] c
  | more {p : Option Partial} {q : Partial} {b : UInt8} {bs : List UInt8} {c : Char} :
    decodeByte p b = ([], some q) → Reads (some q) bs c → Reads p (b :: bs) c

theorem reads_encodeChar (c : Char) : Reads none (String.utf8EncodeChar c) c := by
  have hc : Char.ofNat c.toNat = c := Char.ofNat_toNat c
  have hvalid : c.toNat < 0xD800 ∨ 0xDFFF < c.toNat ∧ c.toNat < 0x110000 := c.valid
  rw [encodeChar_eq]
  generalize c.toNat = v at *
  split_ifs with h1 h2 h3
  · exact .last (hc ▸ decodeByte_ascii (by omega))
  · refine .more (decodeByte_two (by omega) (by omega)) (.last ?_)
    rw [decodeByte_last (by omega) (by omega) (by omega), ← hc]
    congr 3
    omega
  · refine .more (decodeByte_three (by omega)) (.more (decodeByte_more (by omega) ?_ ?_) (.last ?_))
    · split_ifs <;> omega
    · split_ifs <;> omega
    · rw [decodeByte_last (by omega) (by omega) (by omega), ← hc]
      congr 3
      omega
  · refine .more (decodeByte_four (by omega)) (.more (decodeByte_more (by omega) ?_ ?_)
      (.more (decodeByte_more (by omega) (by omega) (by omega)) (.last ?_)))
    · split_ifs <;> omega
    · split_ifs <;> omega
    · rw [decodeByte_last (by omega) (by omega) (by omega), ← hc]
      congr 3
      omega

theorem Reads.decode {p : Option Partial} {bs : List UInt8} {c : Char} (h : Reads p bs c)
    (rest : List UInt8) : decodeFrom p (bs ++ rest) = c :: decodeFrom none rest := by
  induction h with
  | last h => rw [List.singleton_append, decodeFrom_cons, h, List.singleton_append]
  | more h _ ih => rw [List.cons_append, decodeFrom_cons, h, ih, List.nil_append]

theorem Reads.cut {p : Option Partial} {bs : List UInt8} {c : Char} (h : Reads p bs c) {n : ℕ}
    (hn : n < bs.length) (hp : p.isSome ∨ 0 < n) : decodeFrom p (bs.take n) = [replacement] := by
  induction h generalizing n with
  | last h =>
    rw [List.length_singleton] at hn
    obtain rfl : n = 0 := by omega
    obtain ⟨q, rfl⟩ := Option.isSome_iff_exists.1 (hp.resolve_right (by omega))
    rfl
  | @more p q b bs c h _ ih =>
    cases n with
    | zero =>
      obtain ⟨q, rfl⟩ := Option.isSome_iff_exists.1 (hp.resolve_right (by omega))
      rfl
    | succ n =>
      rw [List.length_cons] at hn
      rw [List.take_succ_cons, decodeFrom_cons, h, List.nil_append]
      exact ih (by omega) (Or.inl rfl)

/-- **Decoding reads a text back, whatever follows it.** -/
theorem decodeUtf8_append (t : List Char) (bs : List UInt8) :
    decodeUtf8 (utf8 t ++ bs) = t ++ decodeUtf8 bs := by
  induction t with
  | nil => rfl
  | cons c t ih =>
    rw [utf8_cons, List.append_assoc, decodeUtf8, (reads_encodeChar c).decode, List.cons_append, ← ih]
    rfl

theorem decodeUtf8_utf8 (t : List Char) : decodeUtf8 (utf8 t) = t := by
  simpa using decodeUtf8_append t []

/-- **A text that is cut short** decodes to its first characters, with the replacement character
    where one is cut. -/
theorem decodeUtf8_take {t : List Char} {n : ℕ} (h : n < (utf8 t).length) : ∃ k < t.length,
    decodeUtf8 ((utf8 t).take n) = t.take k ∨
      decodeUtf8 ((utf8 t).take n) = t.take k ++ [replacement] := by
  induction t generalizing n with
  | nil => simp at h
  | cons c t ih =>
    rw [utf8_cons, List.length_append] at h
    rw [utf8_cons, List.take_append]
    rcases Nat.lt_or_ge n (String.utf8EncodeChar c).length with hn | hn
    · refine ⟨0, by simp, ?_⟩
      rw [Nat.sub_eq_zero_of_le hn.le, List.take_zero, List.append_nil]
      rcases Nat.eq_zero_or_pos n with rfl | hpos
      · exact Or.inl (by simp)
      · exact Or.inr ((reads_encodeChar c).cut hn (Or.inr hpos))
    · obtain ⟨k, hk, hcut⟩ := ih (n := n - (String.utf8EncodeChar c).length) (by omega)
      refine ⟨k + 1, by simpa using hk, ?_⟩
      have hread : decodeUtf8 ((String.utf8EncodeChar c).take n ++
          (utf8 t).take (n - (String.utf8EncodeChar c).length)) =
          c :: decodeUtf8 ((utf8 t).take (n - (String.utf8EncodeChar c).length)) := by
        rw [List.take_of_length_le hn]
        exact (reads_encodeChar c).decode _
      rw [hread, List.take_succ_cons, List.cons_append]
      exact hcut.imp (congrArg _) (congrArg _)

/-- A byte below `0x80` stands for its own character. -/
theorem mem_utf8 {b : UInt8} {t : List Char} (hb : b.toNat < 0x80) (h : b ∈ utf8 t) :
    Char.ofNat b.toNat ∈ t := by
  obtain ⟨c, hc, hbc⟩ := List.mem_flatMap.1 h
  have hout : ∀ v : ℕ, 0x80 ≤ v → v < 256 → b ≠ UInt8.ofNat v := by
    rintro v h1 h2 rfl
    rw [toNat_ofNat h2] at hb
    omega
  rw [encodeChar_eq] at hbc
  split_ifs at hbc with h1 h2 h3
  · rw [List.mem_singleton.1 hbc, toNat_ofNat (by omega), Char.ofNat_toNat]
    exact hc
  all_goals
    simp only [List.mem_cons, List.not_mem_nil, or_false] at hbc
    exfalso
  · rcases hbc with h | h <;> exact hout _ (by omega) (by omega) h
  · rcases hbc with h | h | h <;> exact hout _ (by omega) (by omega) h
  · rcases hbc with h | h | h | h <;> exact hout _ (by omega) (by omega) h

/-! ## Strict decoding -/

/-- The text whose bytes these are, if there is one. -/
def decodeStrict (bs : List UInt8) : Option (List Char) :=
  if utf8 (decodeUtf8 bs) = bs then some (decodeUtf8 bs) else none

theorem decodeStrict_eq_some {bs : List UInt8} {t : List Char} : decodeStrict bs = some t ↔ utf8 t = bs := by
  unfold decodeStrict
  constructor
  · intro h
    split_ifs at h with hs
    rw [← Option.some.inj h, hs]
  · rintro rfl
    rw [decodeUtf8_utf8, if_pos rfl]

theorem prefix_of_utf8 {t u : List Char} (h : utf8 t <+: utf8 u) : t <+: u := by
  obtain ⟨rest, hrest⟩ := h
  refine ⟨decodeUtf8 rest, ?_⟩
  rw [← decodeUtf8_append, hrest, decodeUtf8_utf8]

/-- The longest text within the first `n` bytes, and how many of them it takes. -/
def decodeWithin (bs : List UInt8) : ℕ → List Char × ℕ
  | 0 => ([], 0)
  | n + 1 => match decodeStrict (bs.take (n + 1)) with
    | some t => (t, n + 1)
    | none => decodeWithin bs n

/-- It is the start of the whole text. -/
theorem decodeWithin_start (u : List Char) {n : ℕ} (hn : n ≤ (utf8 u).length) :
    (decodeWithin (utf8 u) n).1 <+: u ∧
      (utf8 (decodeWithin (utf8 u) n).1).length = (decodeWithin (utf8 u) n).2 ∧ (decodeWithin (utf8 u) n).2 ≤ n := by
  induction n with
  | zero => exact ⟨List.nil_prefix, rfl, le_rfl⟩
  | succ n ih =>
    rw [decodeWithin]
    cases h : decodeStrict ((utf8 u).take (n + 1)) with
    | none =>
      obtain ⟨hstarts, hlength, hle⟩ := ih (by omega)
      exact ⟨hstarts, hlength, by dsimp only; omega⟩
    | some t =>
      have ht := decodeStrict_eq_some.1 h
      refine ⟨prefix_of_utf8 (ht ▸ List.take_prefix _ _), ?_, le_rfl⟩
      dsimp only
      rw [ht, List.length_take]
      omega

/-- Where a character fits, so does the text take it. -/
theorem decodeWithin_pos (c : Char) (u : List Char) {n : ℕ} (hn : c.utf8Size ≤ n) :
    0 < (decodeWithin (utf8 (c :: u)) n).2 := by
  have hc := String.length_utf8EncodeChar c
  have hpos := c.utf8Size_pos
  induction n with
  | zero => omega
  | succ n ih =>
    rw [decodeWithin]
    cases h : decodeStrict ((utf8 (c :: u)).take (n + 1)) with
    | some t => exact Nat.succ_pos n
    | none =>
      rcases Nat.lt_or_ge n c.utf8Size with hlt | hge
      · have hexact : (utf8 (c :: u)).take (n + 1) = utf8 [c] := by
          rw [utf8_cons, List.take_append_of_le_length (by omega), List.take_of_length_le (by omega)]
          simp
        rw [hexact, decodeStrict_eq_some.2 rfl] at h
        cases h
      · exact ih hge

end Verif
