/-
  Dates: the time values of `Date` and their ISO text.
-/
import SmartHome.Lib.JsonBytes

namespace SmartHome.HaNotices

open Verif

/-- A time value: the milliseconds of a representable date. -/
structure Time where
  ms : ℤ
  first : -8640000000000000 ≤ ms
  last : ms ≤ 8640000000000000
  deriving DecidableEq

/-- A character of the text of a date. -/
def Digital (c : Char) : Prop := Json.Plain c ∧ c.toNat < 128

/-- The text of a date, which is no longer than the text of the last one. -/
structure Stamp where
  text : String
  digital : ∀ c ∈ text.toList, Digital c
  length : text.toList.length ≤ 27
  deriving DecidableEq

def Stamp.json (s : Stamp) : Json := .str s.text

theorem Stamp.bytes_json_le (s : Stamp) : s.json.bytes ≤ 29 := by
  rw [Stamp.json, Json.bytes_str_plain (fun c hc => (s.digital c hc).1) fun c hc => (s.digital c hc).2]
  exact Nat.add_le_add_right s.length 2

/-! ## The parts of a date -/

/-- A date and a time of day, in UTC. -/
structure Parts where
  year : ℤ
  month : ℕ
  day : ℕ
  hour : ℕ
  minute : ℕ
  second : ℕ
  millisecond : ℕ
  deriving DecidableEq

/-- The parts of a time value.  Years start in March, so that a leap day is the last one. -/
def Time.parts (t : Time) : Parts :=
  let days := t.ms / 86400000 + 719468
  let ms := (t.ms % 86400000).toNat
  let doe := (days % 146097).toNat
  let yoe := (doe - doe / 1460 + doe / 36524 - doe / 146096) / 365
  let doy := doe - (365 * yoe + yoe / 4 - yoe / 100)
  let mp := (5 * doy + 2) / 153
  let month := if mp < 10 then mp + 3 else mp - 9
  { year := yoe + days / 146097 * 400 + if month ≤ 2 then 1 else 0
    month := month
    day := doy - (153 * mp + 2) / 5 + 1
    hour := ms / 3600000
    minute := ms / 60000 % 60
    second := ms / 1000 % 60
    millisecond := ms % 1000 }

/-- Parts whose texts have the right width. -/
structure Parts.Fits (p : Parts) : Prop where
  year : p.year.natAbs < 10 ^ 6
  month : p.month < 10 ^ 2
  day : p.day < 10 ^ 2
  hour : p.hour < 10 ^ 2
  minute : p.minute < 10 ^ 2
  second : p.second < 10 ^ 2
  millisecond : p.millisecond < 10 ^ 3

theorem Time.fits_parts (t : Time) : t.parts.Fits := by
  obtain ⟨t, hlow, hhigh⟩ := t
  constructor
  all_goals simp only [parts]
  all_goals norm_num
  · split_ifs <;> omega
  · split_ifs <;> omega
  · omega
  · omega
  · omega
  · omega
  · omega

/-! ## The text of a date -/

/-- A number with leading zeros. -/
def padded (w n : ℕ) : List Char := List.replicate (w - (Json.decimal n).length) '0' ++ Json.decimal n

theorem length_padded {w n : ℕ} (hw : 0 < w) (h : n < 10 ^ w) : (padded w n).length = w := by
  have hlength : (Json.decimal n).length ≤ w := (Nat.length_toDigits_le_iff (by norm_num) hw).2 h
  rw [padded, List.length_append, List.length_replicate]
  omega

theorem digital_digit {c : Char} (h : c.isDigit = true) : Digital c := by
  simp only [Char.isDigit, Bool.and_eq_true, decide_eq_true_eq, UInt32.le_iff_toNat_le] at h
  obtain ⟨hlow, hhigh⟩ := h
  have hlow : 48 ≤ c.toNat := hlow
  have hhigh : c.toNat ≤ 57 := hhigh
  refine ⟨⟨by omega, ?_, ?_⟩, by omega⟩
  · rintro rfl
    exact absurd hlow (by decide)
  · rintro rfl
    exact absurd hhigh (by decide)

theorem digital_padded {w n : ℕ} : ∀ c ∈ padded w n, Digital c := by
  intro c hc
  rcases List.mem_append.1 hc with hc | hc
  · rw [List.eq_of_mem_replicate hc]
    exact digital_digit (by decide)
  · have hdigit := Json.decimal_isDigit c hc
    exact digital_digit hdigit

/-- A year: four digits, or six with a sign. -/
def yearText (y : ℤ) : List Char :=
  if 0 ≤ y ∧ y ≤ 9999 then padded 4 y.natAbs
  else (if y < 0 then '-' else '+') :: padded 6 y.natAbs

theorem length_yearText {y : ℤ} (h : y.natAbs < 10 ^ 6) : (yearText y).length ≤ 7 := by
  unfold yearText
  split_ifs with hfour
  · rw [length_padded (by norm_num) (by omega)]
    norm_num
  · rw [List.length_cons, length_padded (by norm_num) h]
  · rw [List.length_cons, length_padded (by norm_num) h]

theorem digital_sign {c : Char} (h : c ∈ ['-', '+', 'T', ':', '.', 'Z']) : Digital c := by
  simp only [List.mem_cons, List.not_mem_nil, or_false] at h
  rcases h with rfl | rfl | rfl | rfl | rfl | rfl <;>
    exact ⟨⟨by decide, by decide, by decide⟩, by decide⟩

theorem digital_yearText {y : ℤ} : ∀ c ∈ yearText y, Digital c := by
  intro c hc
  unfold yearText at hc
  split_ifs at hc
  · exact digital_padded c hc
  · rcases List.mem_cons.1 hc with rfl | hc
    · exact digital_sign (by decide)
    · exact digital_padded c hc
  · rcases List.mem_cons.1 hc with rfl | hc
    · exact digital_sign (by decide)
    · exact digital_padded c hc

def Parts.text (p : Parts) : List Char :=
  yearText p.year ++ ['-'] ++ padded 2 p.month ++ ['-'] ++ padded 2 p.day ++ ['T'] ++ padded 2 p.hour ++
    [':'] ++ padded 2 p.minute ++ [':'] ++ padded 2 p.second ++ ['.'] ++ padded 3 p.millisecond ++ ['Z']

theorem Parts.Fits.length {p : Parts} (h : p.Fits) : p.text.length ≤ 27 := by
  have hyear := length_yearText h.year
  simp only [text, List.length_append, length_padded (by norm_num) h.month, length_padded (by norm_num) h.day,
    length_padded (by norm_num) h.hour, length_padded (by norm_num) h.minute,
    length_padded (by norm_num) h.second, length_padded (by norm_num) h.millisecond, List.length_singleton]
  omega

theorem Parts.digital_text {p : Parts} : ∀ c ∈ p.text, Digital c := by
  simp only [text, List.forall_mem_append, List.forall_mem_singleton]
  have hdash : Digital '-' := digital_sign (by decide)
  have hcolon : Digital ':' := digital_sign (by decide)
  exact ⟨⟨⟨⟨⟨⟨⟨⟨⟨⟨⟨⟨⟨digital_yearText, hdash⟩, digital_padded⟩, hdash⟩, digital_padded⟩,
    digital_sign (by decide)⟩, digital_padded⟩, hcolon⟩, digital_padded⟩, hcolon⟩, digital_padded⟩,
    digital_sign (by decide)⟩, digital_padded⟩, digital_sign (by decide)⟩

/-- `toISOString` -/
def Time.toISOString (t : Time) : Stamp where
  text := String.ofList t.parts.text
  digital := by rw [String.toList_ofList]; exact Parts.digital_text
  length := by rw [String.toList_ofList]; exact t.fits_parts.length

example : (Time.toISOString ⟨1709210096789, by decide, by decide⟩).text = "2024-02-29T12:34:56.789Z" := by
  decide

example : (Time.toISOString ⟨8640000000000000, by decide, by decide⟩).text = "+275760-09-13T00:00:00.000Z" := by
  decide

end SmartHome.HaNotices
