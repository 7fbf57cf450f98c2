/-
  The vocabulary of the source protocol: event classes, statistics columns, lower-case
  hexadecimal texts, the hash function and decimal counters.
-/
import SmartHome.Lib.Json
import SmartHome.Lib.Guard
import Mathlib.Algebra.BigOperators.Fin
import Mathlib.Data.Fintype.Pi

namespace SmartHome.Mqtt

open Verif

abbrev Bytes := List UInt8

/-- `KINDS`: the seven native event classes. -/
inductive Kind where
  | publishIn | publishOut | connect | disconnect | subscribe | unsubscribe | clientOffline
  deriving DecidableEq, Repr

def Kind.name : Kind → String
  | publishIn => "publish_in"
  | publishOut => "publish_out"
  | connect => "connect"
  | disconnect => "disconnect"
  | subscribe => "subscribe"
  | unsubscribe => "unsubscribe"
  | clientOffline => "client_offline"

/-- `KINDS` in source order. -/
def kinds : List Kind :=
  [.publishIn, .publishOut, .connect, .disconnect, .subscribe, .unsubscribe, .clientOffline]

theorem mem_kinds (k : Kind) : k ∈ kinds := by cases k <;> decide

instance : Fintype Kind := ⟨⟨kinds, by decide⟩, mem_kinds⟩

theorem sum_kinds {M : Type*} [AddCommMonoid M] (f : Kind → M) :
    ∑ k, f k = (kinds.map f).sum := rfl

/-- The kind with a given name. -/
def Kind.ofName (s : String) : Option Kind := kinds.find? fun k => k.name = s

theorem Kind.ofName_name (k : Kind) : Kind.ofName k.name = some k := by cases k <;> decide

/-- `STAT_COLUMNS` -/
inductive Column where
  | expected | observed | missing | sourceDropped | transportMissing | timed | timingUnknown
  deriving DecidableEq, Repr

def Column.name : Column → String
  | expected => "expected"
  | observed => "observed"
  | missing => "missing"
  | sourceDropped => "source_dropped"
  | transportMissing => "transport_missing"
  | timed => "timed"
  | timingUnknown => "timing_unknown"

/-- `STAT_COLUMNS` in source order. -/
def columns : List Column :=
  [.expected, .observed, .missing, .sourceDropped, .transportMissing, .timed, .timingUnknown]

theorem mem_columns (c : Column) : c ∈ columns := by cases c <;> decide

instance : Fintype Column := ⟨⟨columns, by decide⟩, mem_columns⟩

/-! ## Hexadecimal texts and the hash -/

/-- `re.fullmatch('[a-f0-9]{n}', s)` -/
def isHex (n : ℕ) (s : String) : Bool :=
  s.toList.length = n && s.toList.all fun c => c.isDigit || ('a' ≤ c && c ≤ 'f')

/-- A lower-case hexadecimal text of `n` digits. -/
abbrev Hex (n : ℕ) := {s : String // isHex n s = true}

/-- Read a hexadecimal text. -/
def hex? (n : ℕ) : Json → Option (Hex n)
  | .str s => if h : isHex n s = true then some ⟨s, h⟩ else none
  | _ => none

@[simp] theorem hex?_str {n : ℕ} (h : Hex n) : hex? n (.str h.1) = some h := by
  simp [hex?, h.2]

theorem hex?_eq_some {n : ℕ} {j : Json} {h : Hex n} : hex? n j = some h ↔ j = .str h.1 := by
  constructor
  · intro e
    cases j with
    | str s =>
      simp only [hex?] at e
      split_ifs at e
      cases e; rfl
    | _ => simp [hex?] at e
  · rintro rfl; simp

theorem isDigit_toNat {c : Char} (h : c.isDigit = true) : 48 ≤ c.toNat ∧ c.toNat ≤ 57 := by
  simpa [Char.isDigit, UInt32.le_iff_toNat_le] using h

theorem plain_of_isDigit {c : Char} (h : c.isDigit = true) : Json.Plain c := by
  obtain ⟨h1, h2⟩ := isDigit_toNat h
  refine ⟨by omega, ?_, ?_⟩ <;> rintro rfl <;> revert h1 h2 <;> decide

theorem length_toList_hex {n : ℕ} (h : Hex n) : h.1.toList.length = n := by
  have := h.2
  simp only [isHex, Bool.and_eq_true, decide_eq_true_eq] at this
  exact this.1

theorem toNat_of_mem_hex {n : ℕ} (h : Hex n) : ∀ c ∈ h.1.toList, 48 ≤ c.toNat ∧ c.toNat ≤ 102 := by
  obtain ⟨s, hs⟩ := h
  simp only [isHex, Bool.and_eq_true, decide_eq_true_eq, List.all_eq_true, Bool.or_eq_true] at hs
  intro c hc
  rcases hs.2 c hc with hd | ⟨ha, hf⟩
  · have := isDigit_toNat hd
    omega
  · have h97 : 97 ≤ c.toNat := ha
    have h102 : c.toNat ≤ 102 := hf
    omega

theorem plain_hex {n : ℕ} (h : Hex n) : ∀ c ∈ h.1.toList, Json.Plain c := by
  intro c hc
  have hall : ∀ d : Char, 48 ≤ d.toNat ∧ d.toNat ≤ 102 → d ≠ '\\' → Json.Plain d := by
    intro d hd hne
    refine ⟨by omega, ?_, hne⟩
    rintro rfl; revert hd; decide
  have hs := h.2
  simp only [isHex, Bool.and_eq_true, decide_eq_true_eq, List.all_eq_true, Bool.or_eq_true] at hs
  refine hall c (toNat_of_mem_hex h c hc) ?_
  rintro rfl
  have := hs.2 _ hc
  revert this; decide

theorem neat_hex_str {n : ℕ} (h : Hex n) : (Json.str h.1).Neat :=
  Json.neat_str fun c hc => by have := toNat_of_mem_hex h c hc; omega

/-- The hash function of `hashlib` and `node:crypto`: any function from bytes to 64
    hexadecimal digits. -/
class Sha256 where
  sha256 : Bytes → Hex 64

export Sha256 (sha256)

/-- A hash function for examples. -/
abbrev zeroHash : Sha256 :=
  ⟨fun _ => ⟨"0000000000000000000000000000000000000000000000000000000000000000", by decide⟩⟩

/-- The ASCII bytes of a text. -/
def ascii (t : List Char) : Bytes := t.map fun c => UInt8.ofNat c.toNat

/-! ## Counters -/

/-- `re.fullmatch('(?:0|[1-9][0-9]{0,m})', s)` as a number. -/
def decimal? (m : ℕ) (s : String) : Option ℕ :=
  match s.toList with
  | [] => none
  | '0' :: _ :: _ => none
  | ds => if ds.all Char.isDigit && ds.length ≤ m + 1 then some (Nat.ofDigitChars 10 ds 0) else none

theorem decimal?_decimal {m n : ℕ} (h : n < 10 ^ (m + 1)) :
    decimal? m (String.ofList (Json.decimal n)) = some n := by
  have hlen : (Json.decimal n).length ≤ m + 1 :=
    (Nat.length_toDigits_le_iff (by norm_num) (by omega)).2 h
  have hall : (Json.decimal n).all Char.isDigit = true :=
    List.all_eq_true.2 fun c hc => Json.decimal_isDigit c hc
  have hv : Nat.ofDigitChars 10 (Json.decimal n) 0 = n := Nat.ofDigitChars_ten_toDigits
  obtain ⟨d, ds, hd⟩ := List.exists_cons_of_ne_nil (Json.decimal_ne_nil n)
  have hz : ∀ e es, Json.decimal n ≠ '0' :: e :: es := by
    intro e es he
    rcases Nat.eq_zero_or_pos n with rfl | hn
    · simp [Json.decimal] at he
    · exact Json.head_decimal_ne_zero n hn (by rw [he]; rfl)
  unfold decimal?
  rw [String.toList_ofList]
  split
  · rename_i h0; exact absurd h0 (by rw [hd]; simp)
  · rename_i e es he; exact absurd he (hz _ _)
  · rw [if_pos (by simp [hall, hlen]), hv]

/-- A counter as its decimal text. -/
def num (n : ℕ) : Json := .str (String.ofList (Json.decimal n))

theorem neat_num (n : ℕ) : (num n).Neat := by
  refine Json.neat_str fun c hc => ?_
  rw [String.toList_ofList] at hc
  have := isDigit_toNat (Json.decimal_isDigit c hc)
  omega

/-- A counter or null. -/
def optNum : Option ℕ → Json
  | none => .null
  | some n => num n

end SmartHome.Mqtt
