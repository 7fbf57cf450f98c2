/-
  JSON values, their compact text, and a parser that reads the text back.

  * `Json.render` writes a value without blanks, object members in the given order;
  * `Json.parse` accepts every JSON text (blanks, escapes, any member order);
  * `Json.parse_render`: parsing a rendered value gives the value back;
  * `Json.canonical` sorts object members by key before writing, and a text that
    equals the canonical text of its own parse is the rendering of a sorted value
    (`Json.of_canonical`).
-/
import Mathlib.Data.List.Sort
import Mathlib.Tactic.FinCases
import Mathlib.Tactic.IntervalCases
import Mathlib.Tactic.NormNum

namespace Verif

/-- A JSON value.  All numbers with a fraction or an exponent are one value `real`. -/
inductive Json where
  | null
  | bool (b : Bool)
  | int (n : ℤ)
  | real
  | str (s : String)
  | arr (xs : List Json)
  | obj (kvs : List (String × Json))
  deriving Repr, Inhabited

namespace Json

/-! ## Text -/

/-- The decimal text of a natural number. -/
def decimal (n : ℕ) : List Char := Nat.toDigits 10 n

/-- The lower-case hexadecimal digit of `d < 16`. -/
def hexDigit (d : ℕ) : Char := Nat.digitChar d

/-- A character inside a quoted string. -/
def escape (c : Char) : List Char :=
  if c = '"' then ['\\', '"']
  else if c = '\\' then ['\\', '\\']
  else if c = '\n' then ['\\', 'n']
  else if c = '\r' then ['\\', 'r']
  else if c = '\t' then ['\\', 't']
  else if c = '\x08' then ['\\', 'b']
  else if c = '\x0c' then ['\\', 'f']
  else if c.toNat < 32 then ['\\', 'u', '0', '0', hexDigit (c.toNat / 16), hexDigit (c.toNat % 16)]
  else [c]

/-- A quoted string. -/
def quote (s : String) : List Char := '"' :: (s.toList.flatMap escape ++ ['"'])

mutual
/-- The compact text of a value. -/
def render : Json → List Char
  | null => ['n', 'u', 'l', 'l']
  | bool true => ['t', 'r', 'u', 'e']
  | bool false => ['f', 'a', 'l', 's', 'e']
  | int n => if n < 0 then '-' :: decimal n.natAbs else decimal n.natAbs
  | real => ['0', '.', '5']
  | str s => quote s
  | arr xs => '[' :: (renderElems xs ++ [']'])
  | obj kvs => '{' :: (renderMembers kvs ++ ['}'])

/-- Array elements, separated by commas. -/
def renderElems : List Json → List Char
  | [] => []
  | [x] => x.render
  | x :: y :: xs => x.render ++ ',' :: renderElems (y :: xs)

/-- Object members, separated by commas. -/
def renderMembers : List (String × Json) → List Char
  | [] => []
  | [(k, v)] => quote k ++ ':' :: v.render
  | (k, v) :: m :: kvs => quote k ++ ':' :: (v.render ++ ',' :: renderMembers (m :: kvs))
end

/-! ## Parser -/

/-- Drop leading blanks. -/
def skipWs : List Char → List Char
  | [] => []
  | c :: cs => if c = ' ' ∨ c = '\t' ∨ c = '\n' ∨ c = '\r' then skipWs cs else c :: cs

/-- The value of a hexadecimal digit. -/
def hexVal (c : Char) : Option ℕ :=
  if c.isDigit then some (c.toNat - 48)
  else if 'a' ≤ c ∧ c ≤ 'f' then some (c.toNat - 87)
  else if 'A' ≤ c ∧ c ≤ 'F' then some (c.toNat - 55)
  else none

/-- The character a short escape stands for. -/
def unescape (c : Char) : Option ℕ :=
  if c = '"' then some 34
  else if c = '\\' then some 92
  else if c = '/' then some 47
  else if c = 'b' then some 8
  else if c = 'f' then some 12
  else if c = 'n' then some 10
  else if c = 'r' then some 13
  else if c = 't' then some 9
  else none

/-- Read a string body up to its closing quote, as code points; a `\u` escape is one
    UTF-16 unit. -/
def readStr : List Char → Option (List ℕ × List Char)
  | [] => none
  | '"' :: cs => some ([], cs)
  | '\\' :: 'u' :: a :: b :: c :: d :: cs => do
    let n := (← hexVal a) * 4096 + (← hexVal b) * 256 + (← hexVal c) * 16 + (← hexVal d)
    let (us, r) ← readStr cs
    return (n :: us, r)
  | '\\' :: c :: cs => do
    let n ← unescape c
    let (us, r) ← readStr cs
    return (n :: us, r)
  | c :: cs => do
    guard (32 ≤ c.toNat)
    let (us, r) ← readStr cs
    return (c.toNat :: us, r)

/-- Join surrogate pairs; a lone surrogate becomes the replacement character. -/
def joinUnits : List ℕ → List Char
  | [] => []
  | [u] => [Char.ofNat (if 0xD800 ≤ u ∧ u < 0xE000 then 0xFFFD else u)]
  | u :: v :: us =>
    if 0xD800 ≤ u ∧ u < 0xDC00 ∧ 0xDC00 ≤ v ∧ v < 0xE000 then
      Char.ofNat (0x10000 + (u - 0xD800) * 0x400 + (v - 0xDC00)) :: joinUnits us
    else
      Char.ofNat (if 0xD800 ≤ u ∧ u < 0xE000 then 0xFFFD else u) :: joinUnits (v :: us)

/-- Read a string after its opening quote. -/
def parseStr (cs : List Char) : Option (String × List Char) :=
  (readStr cs).map fun p => (String.ofList (joinUnits p.1), p.2)

/-- Drop an exponent; `none` if there is no exponent at the head. -/
def dropExp : List Char → Option (List Char)
  | c :: cs =>
    if c = 'e' ∨ c = 'E' then
      let ds := match cs with
        | '+' :: ds => ds
        | '-' :: ds => ds
        | ds => ds
      if (ds.takeWhile Char.isDigit).isEmpty then none else some (ds.dropWhile Char.isDigit)
    else none
  | [] => none

/-- What follows the integer part of a number. -/
def numberTail (n : ℤ) : List Char → Json × List Char
  | '.' :: cs =>
    if (cs.takeWhile Char.isDigit).isEmpty then (int n, '.' :: cs)
    else (real, (dropExp (cs.dropWhile Char.isDigit)).getD (cs.dropWhile Char.isDigit))
  | cs => match dropExp cs with
    | some r => (real, r)
    | none => (int n, cs)

/-- Read an unsigned integer without leading zeros. -/
def parseNat (cs : List Char) : Option (ℕ × List Char) :=
  match cs.takeWhile Char.isDigit with
  | [] => none
  | '0' :: _ :: _ => none
  | ds => some (Nat.ofDigitChars 10 ds 0, cs.dropWhile Char.isDigit)

/-- Read a number. -/
def parseNumber : List Char → Option (Json × List Char)
  | '-' :: cs => (parseNat cs).map fun p => numberTail (-p.1) p.2
  | cs => (parseNat cs).map fun p => numberTail p.1 p.2

mutual
/-- Read one value, with at most the given nesting of calls. -/
def parseValue : ℕ → List Char → Option (Json × List Char)
  | 0, _ => none
  | n + 1, cs => match skipWs cs with
    | '{' :: cs => match skipWs cs with
      | '}' :: cs => some (obj [], cs)
      | cs => (parseMembers n cs).map fun p => (obj p.1, p.2)
    | '[' :: cs => match skipWs cs with
      | ']' :: cs => some (arr [], cs)
      | cs => (parseElems n cs).map fun p => (arr p.1, p.2)
    | '"' :: cs => (parseStr cs).map fun p => (str p.1, p.2)
    | 't' :: 'r' :: 'u' :: 'e' :: cs => some (bool true, cs)
    | 'f' :: 'a' :: 'l' :: 's' :: 'e' :: cs => some (bool false, cs)
    | 'n' :: 'u' :: 'l' :: 'l' :: cs => some (null, cs)
    | cs => parseNumber cs

/-- Read array elements up to the closing bracket. -/
def parseElems : ℕ → List Char → Option (List Json × List Char)
  | 0, _ => none
  | n + 1, cs => do
    let (x, cs) ← parseValue n cs
    match skipWs cs with
    | ',' :: cs => do
      let (xs, cs) ← parseElems n cs
      return (x :: xs, cs)
    | ']' :: cs => return ([x], cs)
    | _ => none

/-- Read object members up to the closing brace. -/
def parseMembers : ℕ → List Char → Option (List (String × Json) × List Char)
  | 0, _ => none
  | n + 1, cs => match skipWs cs with
    | '"' :: cs => do
      let (k, cs) ← parseStr cs
      match skipWs cs with
      | ':' :: cs => do
        let (v, cs) ← parseValue n cs
        match skipWs cs with
        | ',' :: cs => do
          let (kvs, cs) ← parseMembers n cs
          return ((k, v) :: kvs, cs)
        | '}' :: cs => return ([(k, v)], cs)
        | _ => none
      | _ => none
    | _ => none
end

/-- Parse a whole text. -/
def parse (cs : List Char) : Option Json :=
  match parseValue (2 * cs.length + 2) cs with
  | some (j, r) => if skipWs r = [] then some j else none
  | none => none


/-! ## Reading back numbers and strings -/

/-- The text after a value: it ends there or goes on with a delimiter. -/
def Stops (r : List Char) : Prop := ∀ c ∈ r.head?, c = ',' ∨ c = ']' ∨ c = '}'

theorem stops_nil : Stops [] := by simp [Stops]

theorem stops_cons {c : Char} {r : List Char} (h : c = ',' ∨ c = ']' ∨ c = '}') :
    Stops (c :: r) := by simpa [Stops] using h

theorem decimal_isDigit {n : ℕ} : ∀ c ∈ decimal n, c.isDigit :=
  fun _ hc => Nat.isDigit_of_mem_toDigits (by norm_num) (by norm_num) hc

theorem decimal_ne_nil (n : ℕ) : decimal n ≠ [] := Nat.toDigits_ne_nil

theorem head_decimal_ne_zero (n : ℕ) : 0 < n → (decimal n).head? ≠ some '0' := by
  induction n using Nat.strong_induction_on with
  | _ n ih =>
    intro hn
    by_cases hlt : n < 10
    · rw [decimal, Nat.toDigits_of_lt_base hlt]
      interval_cases n <;> simp
    · have h10 : 10 ≤ n := by omega
      have hrec := ih (n / 10) (by omega) (by omega)
      rw [decimal, Nat.toDigits_of_base_le (by norm_num) h10]
      obtain ⟨d, ds, hd⟩ := List.exists_cons_of_ne_nil (decimal_ne_nil (n / 10))
      rw [decimal] at hd hrec
      rw [hd] at hrec ⊢
      simpa using hrec

theorem decimal_injective : Function.Injective decimal := by
  intro a b h
  have := congrArg (fun ds => Nat.ofDigitChars 10 ds 0) h
  simpa [decimal, Nat.ofDigitChars_ten_toDigits] using this

theorem takeWhile_digits {ds r : List Char} (hd : ∀ c ∈ ds, c.isDigit)
    (hr : ∀ c ∈ r.head?, ¬ c.isDigit) :
    (ds ++ r).takeWhile Char.isDigit = ds ∧ (ds ++ r).dropWhile Char.isDigit = r := by
  have h1 : r.takeWhile Char.isDigit = [] := by
    cases r with
    | nil => rfl
    | cons c r => simpa [List.takeWhile_cons] using hr c rfl
  have h2 : r.dropWhile Char.isDigit = r := by
    cases r with
    | nil => rfl
    | cons c r =>
      have := hr c rfl
      simp [this]
  constructor
  · rw [List.takeWhile_append_of_pos (by simpa using hd), h1, List.append_nil]
  · rw [List.dropWhile_append_of_pos (by simpa using hd), h2]

theorem parseNat_decimal (n : ℕ) {r : List Char} (hr : ∀ c ∈ r.head?, ¬ c.isDigit) :
    parseNat (decimal n ++ r) = some (n, r) := by
  obtain ⟨h1, h2⟩ := takeWhile_digits (@decimal_isDigit n) hr
  have hv : Nat.ofDigitChars 10 (decimal n) 0 = n := Nat.ofDigitChars_ten_toDigits
  unfold parseNat
  rw [h1, h2]
  obtain ⟨d, ds, hd⟩ := List.exists_cons_of_ne_nil (decimal_ne_nil n)
  have hz : ∀ e es, decimal n ≠ '0' :: e :: es := by
    intro e es he
    rcases Nat.eq_zero_or_pos n with rfl | hn
    · simp [decimal] at he
    · exact head_decimal_ne_zero n hn (by rw [he]; rfl)
  rw [hd] at hv hz ⊢
  split
  · contradiction
  · rename_i e es he
    exact absurd he (hz _ _)
  · rw [hv]

theorem Stops.not_digit {r : List Char} (h : Stops r) : ∀ c ∈ r.head?, ¬ c.isDigit := by
  intro c hc
  rcases h c hc with rfl | rfl | rfl <;> decide

theorem numberTail_stops (n : ℤ) {r : List Char} (h : Stops r) : numberTail n r = (int n, r) := by
  cases r with
  | nil => simp [numberTail, dropExp]
  | cons c r =>
    have hc := h c rfl
    have : c ≠ '.' ∧ c ≠ 'e' ∧ c ≠ 'E' := by rcases hc with rfl | rfl | rfl <;> decide
    simp [numberTail, dropExp, this]

theorem hexVal_hexDigit {d : ℕ} (h : d < 16) : hexVal (hexDigit d) = some d := by
  interval_cases d <;> decide

theorem readStr_escape (c : Char) (cs : List Char) :
    readStr (escape c ++ cs) = (readStr cs).map fun p => (c.toNat :: p.1, p.2) := by
  unfold escape
  split_ifs with h1 h2 h3 h4 h5 h6 h7 h8
  · subst h1; cases h : readStr cs <;> simp [readStr, unescape, h]
  · subst h2; cases h : readStr cs <;> simp [readStr, unescape, h]
  · subst h3; cases h : readStr cs <;> simp [readStr, unescape, h]
  · subst h4; cases h : readStr cs <;> simp [readStr, unescape, h]
  · subst h5; cases h : readStr cs <;> simp [readStr, unescape, h]
  · subst h6; cases h : readStr cs <;> simp [readStr, unescape, h]
  · subst h7; cases h : readStr cs <;> simp [readStr, unescape, h]
  · have ha : hexVal (hexDigit (c.toNat / 16)) = some (c.toNat / 16) := hexVal_hexDigit (by omega)
    have hb : hexVal (hexDigit (c.toNat % 16)) = some (c.toNat % 16) := hexVal_hexDigit (by omega)
    have h0 : hexVal '0' = some 0 := by decide
    have hn : c.toNat / 16 * 16 + c.toNat % 16 = c.toNat := by omega
    cases h : readStr cs <;> simp [readStr, ha, hb, h0, h, hn]
  · have h32 : 32 ≤ c.toNat := by omega
    cases h : readStr cs <;> simp [readStr, h2, h32, h]

theorem readStr_quote (s : List Char) (r : List Char) :
    readStr (s.flatMap escape ++ '"' :: r) = some (s.map Char.toNat, r) := by
  induction s with
  | nil => rfl
  | cons c s ih => rw [List.flatMap_cons, List.append_assoc, readStr_escape, ih]; rfl

theorem joinUnits_toNat (s : List Char) : joinUnits (s.map Char.toNat) = s := by
  have hs : ∀ c : Char, ¬ (0xD800 ≤ c.toNat ∧ c.toNat < 0xE000) := by
    intro c hc
    have := c.valid
    simp only [UInt32.isValidChar, Nat.isValidChar] at this
    have e : c.val.toNat = c.toNat := rfl
    omega
  induction s with
  | nil => rfl
  | cons c s ih =>
    cases s with
    | nil => simp [joinUnits, hs c]
    | cons d s =>
      have hc := hs c
      have : ¬ (0xD800 ≤ c.toNat ∧ c.toNat < 0xDC00 ∧ 0xDC00 ≤ d.toNat ∧ d.toNat < 0xE000) := by
        omega
      simp only [List.map_cons] at ih ⊢
      simp [joinUnits, hc, this, ih]

theorem parseStr_quote (s : String) (r : List Char) :
    parseStr (s.toList.flatMap escape ++ '"' :: r) = some (s, r) := by
  simp [parseStr, readStr_quote, joinUnits_toNat]

/-! ## Parsing a rendered value -/

mutual
/-- Nesting of parser calls that a value needs. -/
def need : Json → ℕ
  | arr xs => 1 + needElems xs
  | obj kvs => 1 + needMembers kvs
  | _ => 1

def needElems : List Json → ℕ
  | [] => 0
  | x :: xs => 1 + x.need + needElems xs

def needMembers : List (String × Json) → ℕ
  | [] => 0
  | (_, v) :: kvs => 1 + v.need + needMembers kvs
end

theorem length_quote (s : String) : 2 ≤ (quote s).length := by simp [quote]

theorem length_decimal_pos (n : ℕ) : 0 < (decimal n).length :=
  List.length_pos_iff.2 (decimal_ne_nil n)

mutual
theorem need_le : ∀ j : Json, j.need ≤ 2 * j.render.length
  | null | bool true | bool false | real => by simp [need, render]
  | int n => by
    have := length_decimal_pos n.natAbs
    simp only [need, render]; split_ifs
    · simp only [List.length_cons]; omega
    · omega
  | str s => by have := length_quote s; simp only [need, render]; omega
  | arr xs => by
    have := needElems_le xs
    simp only [need, render, List.length_cons, List.length_append, List.length_nil]; omega
  | obj kvs => by
    have := needMembers_le kvs
    simp only [need, render, List.length_cons, List.length_append, List.length_nil]; omega

theorem needElems_le : ∀ xs : List Json, needElems xs ≤ 2 * (renderElems xs).length + 1
  | [] => by simp [needElems]
  | [x] => by have := need_le x; simp only [needElems, renderElems]; omega
  | x :: y :: xs => by
    have := need_le x
    have := needElems_le (y :: xs)
    rw [needElems, renderElems]
    simp only [List.length_cons, List.length_append]; omega

theorem needMembers_le : ∀ kvs : List (String × Json),
    needMembers kvs ≤ 2 * (renderMembers kvs).length
  | [] => by simp [needMembers]
  | [(k, v)] => by
    have := need_le v
    simp only [needMembers, renderMembers, List.length_cons, List.length_append]; omega
  | (k, v) :: m :: kvs => by
    have := need_le v
    have := needMembers_le (m :: kvs)
    rw [needMembers, renderMembers]
    simp only [List.length_cons, List.length_append]; omega
end

@[simp] theorem skipWs_cons {c : Char} {cs : List Char}
    (h : c ≠ ' ' ∧ c ≠ '\t' ∧ c ≠ '\n' ∧ c ≠ '\r') : skipWs (c :: cs) = c :: cs := by
  simp [skipWs, h]

/-- The first character of a rendered value. -/
theorem render_head (j : Json) : ∃ c cs, j.render = c :: cs ∧
    (c ≠ ' ' ∧ c ≠ '\t' ∧ c ≠ '\n' ∧ c ≠ '\r') ∧ c ≠ ']' := by
  match j with
  | null | bool true | bool false | real | str _ | arr _ | obj _ =>
    exact ⟨_, _, rfl, by decide, by decide⟩
  | int n =>
    obtain ⟨d, ds, hd⟩ := List.exists_cons_of_ne_nil (decimal_ne_nil n.natAbs)
    by_cases hn : n < 0
    · exact ⟨'-', decimal n.natAbs, by simp [render, hn], by decide, by decide⟩
    · refine ⟨d, ds, by simp [render, hn, hd], ?_⟩
      have hdig := decimal_isDigit (n := n.natAbs) d (by simp [hd])
      refine ⟨⟨?_, ?_, ?_, ?_⟩, ?_⟩ <;> rintro rfl <;> revert hdig <;> decide

theorem parseNumber_int (n : ℤ) {r : List Char} (hr : Stops r) :
    parseNumber ((int n).render ++ r) = some (int n, r) := by
  have hp := parseNat_decimal n.natAbs hr.not_digit
  by_cases hn : n < 0
  · have : -(n.natAbs : ℤ) = n := by omega
    simp only [render, hn, if_true, List.cons_append, parseNumber, hp, Option.map_some,
      numberTail_stops _ hr, this]
  · have : (n.natAbs : ℤ) = n := by omega
    simp only [render, hn, if_false]
    obtain ⟨d, ds, hd⟩ := List.exists_cons_of_ne_nil (decimal_ne_nil n.natAbs)
    have hdig : d.isDigit := decimal_isDigit (n := n.natAbs) d (by simp [hd])
    have hminus : d ≠ '-' := by rintro rfl; revert hdig; decide
    rw [hd] at hp ⊢
    unfold parseNumber
    split
    · rename_i cs hcs
      simp only [List.cons_append, List.cons.injEq] at hcs
      exact absurd hcs.1 hminus
    · rw [hp, Option.map_some, numberTail_stops _ hr, this]

theorem parseValue_number {n : ℕ} {c : Char} {cs : List Char} (h : c = '-' ∨ c.isDigit) :
    parseValue (n + 1) (c :: cs) = parseNumber (c :: cs) := by
  have hc : ∀ x ∈ [' ', '\t', '\n', '\r', '{', '[', '"', 't', 'f', 'n'], c ≠ x := by
    rintro x hx rfl
    revert hx
    rcases h with rfl | h
    · decide
    · intro hx
      fin_cases hx <;> revert h <;> decide
  simp only [List.forall_mem_cons] at hc
  rw [parseValue, skipWs_cons ⟨hc.1, hc.2.1, hc.2.2.1, hc.2.2.2.1⟩]
  split <;> simp_all

theorem need_pos (j : Json) : 0 < j.need := by cases j <;> simp [need]

theorem renderElems_head (x : Json) (xs : List Json) : ∃ c cs, renderElems (x :: xs) = c :: cs ∧
    (c ≠ ' ' ∧ c ≠ '\t' ∧ c ≠ '\n' ∧ c ≠ '\r') ∧ c ≠ ']' := by
  obtain ⟨c, cs, hc, hws, hb⟩ := render_head x
  cases xs with
  | nil => exact ⟨c, cs, by simp [renderElems, hc], hws, hb⟩
  | cons y xs => exact ⟨c, cs ++ ',' :: renderElems (y :: xs), by simp [renderElems, hc], hws, hb⟩

theorem renderMembers_head (k : String) (v : Json) (kvs : List (String × Json)) :
    ∃ cs, renderMembers ((k, v) :: kvs) = '"' :: cs := by
  cases kvs with
  | nil => exact ⟨_, by simp only [renderMembers, quote, List.cons_append]; rfl⟩
  | cons m kvs => exact ⟨_, by simp only [renderMembers, quote, List.cons_append]; rfl⟩

/-- A member is read as its key, its value and what follows. -/
theorem parseMembers_step {k : String} {v : Json} {n : ℕ} {r : List Char}
    (hv : parseValue n (v.render ++ r) = some (v, r)) :
    parseMembers (n + 1) (quote k ++ ':' :: (v.render ++ r)) = (match skipWs r with
      | ',' :: cs => (parseMembers n cs).map fun p => ((k, v) :: p.1, p.2)
      | '}' :: cs => some ([(k, v)], cs)
      | _ => none) := by
  rw [parseMembers, quote, List.cons_append, skipWs_cons (by decide), List.append_assoc]
  simp only [List.cons_append, List.nil_append, parseStr_quote, Option.bind_eq_bind,
    Option.bind_some, skipWs_cons (c := ':') (by decide), hv]
  split
  · rename_i cs _
    cases parseMembers n cs <;> rfl
  · rfl
  · rfl

mutual
theorem parseValue_render : ∀ (j : Json) (n : ℕ) (r : List Char), j.need ≤ n → Stops r →
    parseValue n (j.render ++ r) = some (j, r)
  | j, 0, _, h, _ => absurd j.need_pos (by omega)
  | null, n + 1, r, _, _ => by simp [render, parseValue]
  | bool true, n + 1, r, _, _ => by simp [render, parseValue]
  | bool false, n + 1, r, _, _ => by simp [render, parseValue]
  | real, n + 1, r, _, hr => by
    have h5 : ∀ c ∈ ['5'], c.isDigit := by simp
    have hd := takeWhile_digits h5 hr.not_digit
    rw [List.singleton_append] at hd
    have he : dropExp r = none := by
      cases r with
      | nil => rfl
      | cons c r => rcases hr c rfl with rfl | rfl | rfl <;> simp [dropExp]
    rw [render, List.cons_append, parseValue_number (Or.inr (by decide))]
    simp [parseNumber, parseNat, numberTail, hd, he]
  | int m, n + 1, r, _, hr => by
    have hp := parseNumber_int m hr
    obtain ⟨c, cs, hc⟩ : ∃ c cs, (int m).render = c :: cs ∧ (c = '-' ∨ c.isDigit) := by
      obtain ⟨d, ds, hd⟩ := List.exists_cons_of_ne_nil (decimal_ne_nil m.natAbs)
      by_cases hm : m < 0
      · exact ⟨'-', _, by simp only [render, hm, if_true]; rfl, Or.inl rfl⟩
      · exact ⟨d, ds, by simp [render, hm, hd],
          Or.inr (decimal_isDigit (n := m.natAbs) d (by simp [hd]))⟩
    rw [hc.1] at hp ⊢
    rw [List.cons_append, parseValue_number hc.2, ← List.cons_append, hp]
  | str s, n + 1, r, _, _ => by
    simp [render, quote, parseValue, parseStr_quote]
  | arr [], n + 1, r, _, _ => by simp [render, renderElems, parseValue]
  | arr (x :: xs), n + 1, r, h, hr => by
    have ih := parseElems_render x xs n r (by simp only [need] at h; omega) hr
    obtain ⟨c, cs, hc, hws, hb⟩ := renderElems_head x xs
    rw [hc] at ih
    rw [render, hc]
    simp only [List.cons_append, List.append_assoc, List.nil_append] at ih ⊢
    rw [parseValue, skipWs_cons (by decide)]
    simp only [skipWs_cons hws]
    split
    · rename_i heq; exact absurd (List.cons.inj heq).1 hb
    · rw [ih]; rfl
  | obj [], n + 1, r, _, _ => by simp [render, renderMembers, parseValue]
  | obj ((k, v) :: kvs), n + 1, r, h, hr => by
    have ih := parseMembers_render k v kvs n r (by simp only [need] at h; omega) hr
    obtain ⟨cs, hc⟩ := renderMembers_head k v kvs
    rw [hc] at ih
    rw [render, hc]
    simp only [List.cons_append, List.append_assoc, List.nil_append] at ih ⊢
    rw [parseValue, skipWs_cons (by decide)]
    simp [skipWs_cons (c := '"') (by decide), ih]

theorem parseElems_render : ∀ (x : Json) (xs : List Json) (n : ℕ) (r : List Char),
    needElems (x :: xs) ≤ n → Stops r →
    parseElems n (renderElems (x :: xs) ++ ']' :: r) = some (x :: xs, r)
  | x, _, 0, _, h, _ => absurd h (by simp only [needElems]; omega)
  | x, [], n + 1, r, h, _ => by
    have hx := parseValue_render x n (']' :: r) (by simp only [needElems] at h; omega)
      (stops_cons (by simp))
    simp only [renderElems, parseElems, hx, Option.bind_eq_bind, Option.bind_some,
      skipWs_cons (c := ']') (by decide)]
    rfl
  | x, y :: xs, n + 1, r, h, hr => by
    have hn : needElems (x :: y :: xs) = 1 + x.need + needElems (y :: xs) := by rw [needElems]
    have hx := parseValue_render x n (',' :: (renderElems (y :: xs) ++ ']' :: r)) (by omega)
      (stops_cons (by simp))
    have ih := parseElems_render y xs n r (by omega) hr
    rw [renderElems, parseElems, List.append_assoc, List.cons_append, hx]
    simp only [Option.bind_eq_bind, Option.bind_some, skipWs_cons (c := ',') (by decide), ih]
    rfl

theorem parseMembers_render : ∀ (k : String) (v : Json) (kvs : List (String × Json)) (n : ℕ)
    (r : List Char), needMembers ((k, v) :: kvs) ≤ n → Stops r →
    parseMembers n (renderMembers ((k, v) :: kvs) ++ '}' :: r) = some ((k, v) :: kvs, r)
  | k, v, _, 0, _, h, _ => absurd h (by simp only [needMembers]; omega)
  | k, v, [], n + 1, r, h, _ => by
    have hv := parseValue_render v n ('}' :: r) (by simp only [needMembers] at h; omega)
      (stops_cons (by simp))
    rw [renderMembers, List.append_assoc, List.cons_append, parseMembers_step hv,
      skipWs_cons (by decide)]
    rfl
  | k, v, (k', v') :: kvs, n + 1, r, h, hr => by
    have hn : needMembers ((k, v) :: (k', v') :: kvs) =
        1 + v.need + needMembers ((k', v') :: kvs) := by rw [needMembers]
    have hv := parseValue_render v n (',' :: (renderMembers ((k', v') :: kvs) ++ '}' :: r))
      (by omega) (stops_cons (by simp))
    have ih := parseMembers_render k' v' kvs n r (by omega) hr
    rw [renderMembers, List.append_assoc, List.cons_append, List.append_assoc, List.cons_append,
      parseMembers_step hv, skipWs_cons (by decide)]
    simp only [ih]
    rfl
end

/-- **Parsing a rendered value gives the value back.** -/
theorem parse_render (j : Json) : parse j.render = some j := by
  have h := parseValue_render j (2 * j.render.length + 2) [] (by have := need_le j; omega) stops_nil
  rw [List.append_nil] at h
  simp [parse, h, skipWs]

theorem render_injective : Function.Injective render := by
  intro a b h
  have := parse_render a
  rw [h, parse_render b] at this
  exact (Option.some.inj this).symm

instance : DecidableEq Json := fun a b =>
  decidable_of_iff (a.render = b.render) render_injective.eq_iff

/-! ## Sorted members -/

/-- Insert a member before the first larger key. -/
def insertKey (k : String) (v : Json) : List (String × Json) → List (String × Json)
  | [] => [(k, v)]
  | (k', v') :: kvs => if k < k' then (k, v) :: (k', v') :: kvs else (k', v') :: insertKey k v kvs

mutual
/-- Sort the members of all objects by key. -/
def sort : Json → Json
  | arr xs => arr (sortElems xs)
  | obj kvs => obj (sortMembers kvs)
  | j => j

def sortElems : List Json → List Json
  | [] => []
  | x :: xs => x.sort :: sortElems xs

def sortMembers : List (String × Json) → List (String × Json)
  | [] => []
  | (k, v) :: kvs => insertKey k v.sort (sortMembers kvs)
end

/-- The text with members in key order. -/
def canonical (j : Json) : List Char := j.sort.render

mutual
/-- All objects list their keys in strictly increasing order. -/
def Sorted : Json → Prop
  | arr xs => SortedElems xs
  | obj kvs => (kvs.map Prod.fst).Pairwise (· < ·) ∧ SortedMembers kvs
  | _ => True

def SortedElems : List Json → Prop
  | [] => True
  | x :: xs => x.Sorted ∧ SortedElems xs

def SortedMembers : List (String × Json) → Prop
  | [] => True
  | (_, v) :: kvs => v.Sorted ∧ SortedMembers kvs
end

mutual
theorem sort_of_sorted : ∀ {j : Json}, j.Sorted → j.sort = j
  | null, _ | bool _, _ | int _, _ | real, _ | str _, _ => by simp [sort]
  | arr xs, h => by rw [sort, sortElems_of_sorted (by simpa [Sorted] using h)]
  | obj kvs, h => by
    rw [Sorted] at h
    rw [sort, sortMembers_of_sorted h.1 h.2]

theorem sortElems_of_sorted : ∀ {xs : List Json}, SortedElems xs → sortElems xs = xs
  | [], _ => by simp [sortElems]
  | x :: xs, h => by
    rw [SortedElems] at h
    rw [sortElems, sort_of_sorted h.1, sortElems_of_sorted h.2]

theorem sortMembers_of_sorted : ∀ {kvs : List (String × Json)},
    (kvs.map Prod.fst).Pairwise (· < ·) → SortedMembers kvs → sortMembers kvs = kvs
  | [], _, _ => by simp [sortMembers]
  | (k, v) :: kvs, hk, h => by
    rw [SortedMembers] at h
    rw [List.map_cons, List.pairwise_cons] at hk
    rw [sortMembers, sort_of_sorted h.1, sortMembers_of_sorted hk.2 h.2]
    cases kvs with
    | nil => rfl
    | cons m kvs => simp [insertKey, hk.1 m.1 (by simp)]
end

theorem canonical_of_sorted {j : Json} (h : j.Sorted) : j.canonical = j.render := by
  rw [canonical, sort_of_sorted h]

/-- **A text that equals the canonical text of its parse is the rendering of that parse.** -/
theorem of_canonical {t : List Char} {j : Json} (hp : parse t = some j) (hc : j.canonical = t) :
    j.sort = j ∧ j.render = t := by
  have h : parse t = some j.sort := by rw [← hc]; exact parse_render _
  have hs : j.sort = j := Option.some.inj (h.symm.trans hp)
  exact ⟨hs, by rw [← hc, canonical, hs]⟩

/-! ## Lengths -/

/-- Characters that are quoted as they are. -/
def Plain (c : Char) : Prop := 32 ≤ c.toNat ∧ c ≠ '"' ∧ c ≠ '\\'

theorem escape_plain {c : Char} (h : Plain c) : escape c = [c] := by
  obtain ⟨h32, hq, hb⟩ := h
  have hctl : ∀ d : Char, d.toNat < 32 → c ≠ d := by rintro d hd rfl; omega
  rw [escape, if_neg hq, if_neg hb, if_neg (hctl _ (by decide)), if_neg (hctl _ (by decide)),
    if_neg (hctl _ (by decide)), if_neg (hctl _ (by decide)), if_neg (hctl _ (by decide)),
    if_neg (by omega)]

theorem quote_plain {s : String} (h : ∀ c ∈ s.toList, Plain c) :
    quote s = '"' :: (s.toList ++ ['"']) := by
  rw [quote, List.flatMap_congr fun c hc => escape_plain (h c hc), List.flatMap_singleton']

theorem length_quote_plain {s : String} (h : ∀ c ∈ s.toList, Plain c) :
    (quote s).length = s.toList.length + 2 := by
  simp [quote_plain h]

/-- The length of a member with its colon and a comma. -/
def memberLen (m : String × Json) : ℕ := (quote m.1).length + m.2.render.length + 2

theorem length_renderMembers : ∀ kvs : List (String × Json),
    (renderMembers kvs).length = (kvs.map memberLen).sum - 1
  | [] => rfl
  | [(k, v)] => by simp [renderMembers, memberLen]; omega
  | (k, v) :: m :: kvs => by
    have ih := length_renderMembers (m :: kvs)
    have hpos : 1 ≤ ((m :: kvs).map memberLen).sum := by simp [memberLen]; omega
    simp only [renderMembers, List.length_append, List.length_cons, ih, List.map_cons (l := m :: kvs),
      List.sum_cons (l := (m :: kvs).map memberLen), memberLen]
    omega

theorem length_obj (kvs : List (String × Json)) :
    (obj kvs).render.length = (kvs.map memberLen).sum - 1 + 2 := by
  simp [render, length_renderMembers]

theorem length_obj_le (kvs : List (String × Json)) :
    (obj kvs).render.length ≤ (kvs.map memberLen).sum + 2 := by
  rw [length_obj]; omega

theorem length_renderElems_congr : ∀ {xs ys : List Json},
    List.Forall₂ (fun x y => x.render.length = y.render.length) xs ys →
      (renderElems xs).length = (renderElems ys).length
  | _, _, .nil => rfl
  | _, _, .cons h .nil => by simpa [renderElems] using h
  | _, _, .cons h (.cons h' hs) => by
    have ih := length_renderElems_congr (.cons h' hs)
    simp only [renderElems, List.length_append, List.length_cons, h, ih]

theorem sum_insertKey (k : String) (v : Json) : ∀ kvs : List (String × Json),
    ((insertKey k v kvs).map memberLen).sum = memberLen (k, v) + (kvs.map memberLen).sum
  | [] => by simp [insertKey]
  | (k', v') :: kvs => by
    rw [insertKey]
    split_ifs
    · simp
    · simp only [List.map_cons, List.sum_cons, sum_insertKey k v kvs]; omega

mutual
theorem length_sort : ∀ j : Json, j.sort.render.length = j.render.length
  | null | bool _ | int _ | real | str _ => by simp [sort]
  | arr xs => by simp [sort, render, length_renderElems_congr (forall₂_sortElems xs)]
  | obj kvs => by rw [sort, length_obj, length_obj, sum_sortMembers kvs]

theorem forall₂_sortElems : ∀ xs : List Json,
    List.Forall₂ (fun x y => x.render.length = y.render.length) (sortElems xs) xs
  | [] => .nil
  | x :: xs => .cons (length_sort x) (forall₂_sortElems xs)

theorem sum_sortMembers : ∀ kvs : List (String × Json),
    ((sortMembers kvs).map memberLen).sum = (kvs.map memberLen).sum
  | [] => rfl
  | (k, v) :: kvs => by
    rw [sortMembers, sum_insertKey, sum_sortMembers kvs, List.map_cons, List.sum_cons, memberLen,
      memberLen, length_sort v]
end

/-- Sorting does not change the length of the text. -/
theorem length_canonical (j : Json) : j.canonical.length = j.render.length := length_sort j

/-! ## ASCII texts -/

/-- Only ASCII characters. -/
def Ascii (t : List Char) : Prop := ∀ c ∈ t, c.toNat < 128

instance (t : List Char) : Decidable (Ascii t) :=
  List.decidableBAll (fun c : Char => c.toNat < 128) t

theorem ascii_append {s t : List Char} : Ascii (s ++ t) ↔ Ascii s ∧ Ascii t := by
  simp only [Ascii, List.mem_append, or_imp, forall_and]

theorem ascii_cons {c : Char} {t : List Char} : Ascii (c :: t) ↔ c.toNat < 128 ∧ Ascii t := by
  simp only [Ascii, List.forall_mem_cons]

theorem ascii_hexDigit {d : ℕ} (h : d < 16) : (hexDigit d).toNat < 128 := by
  interval_cases d <;> decide

theorem ascii_escape {c : Char} (h : c.toNat < 128) : Ascii (escape c) := by
  have hnil : Ascii [] := nofun
  unfold escape
  split_ifs
  iterate 7 decide
  · simp only [ascii_cons]
    exact ⟨by decide, by decide, by decide, by decide, ascii_hexDigit (by omega),
      ascii_hexDigit (by omega), hnil⟩
  · exact ascii_cons.2 ⟨h, hnil⟩

theorem ascii_quote {s : String} (h : Ascii s.toList) : Ascii (quote s) := by
  rw [quote, ascii_cons, ascii_append]
  refine ⟨by decide, fun c hc => ?_, by decide⟩
  obtain ⟨d, hd, hc⟩ := List.mem_flatMap.1 hc
  exact ascii_escape (h d hd) c hc

theorem ascii_renderMembers : ∀ {kvs : List (String × Json)},
    (∀ m ∈ kvs, Ascii m.1.toList ∧ Ascii m.2.render) → Ascii (renderMembers kvs)
  | [], _ => by simp [renderMembers, Ascii]
  | [(k, v)], h => by
    obtain ⟨hk, hv⟩ := h (k, v) List.mem_cons_self
    rw [renderMembers, ascii_append, ascii_cons]
    exact ⟨ascii_quote hk, by decide, hv⟩
  | (k, v) :: m :: kvs, h => by
    obtain ⟨hk, hv⟩ := h (k, v) List.mem_cons_self
    rw [renderMembers, ascii_append, ascii_cons, ascii_append, ascii_cons]
    exact ⟨ascii_quote hk, by decide, hv, by decide,
      ascii_renderMembers fun m' hm => h m' (List.mem_cons_of_mem _ hm)⟩

theorem ascii_renderElems : ∀ {xs : List Json}, (∀ x ∈ xs, Ascii x.render) → Ascii (renderElems xs)
  | [], _ => by simp [renderElems, Ascii]
  | [x], h => h x List.mem_cons_self
  | x :: y :: xs, h => by
    rw [renderElems, ascii_append, ascii_cons]
    exact ⟨h x List.mem_cons_self, by decide,
      ascii_renderElems fun z hz => h z (List.mem_cons_of_mem _ hz)⟩

theorem ascii_obj {kvs : List (String × Json)}
    (h : ∀ m ∈ kvs, Ascii m.1.toList ∧ Ascii m.2.render) : Ascii (obj kvs).render := by
  rw [render, ascii_cons, ascii_append]
  exact ⟨by decide, ascii_renderMembers h, by decide⟩

/-- Members in key order and an ASCII text. -/
structure Neat (j : Json) : Prop where
  sorted : j.Sorted
  ascii : Ascii j.render

theorem neat_null : null.Neat := ⟨by simp [Sorted], by decide⟩

theorem neat_bool (b : Bool) : (bool b).Neat := ⟨by simp [Sorted], by cases b <;> decide⟩

theorem neat_str {s : String} (h : Ascii s.toList) : (str s).Neat := ⟨by simp [Sorted], ascii_quote h⟩

theorem sortedMembers_iff : ∀ {kvs : List (String × Json)},
    SortedMembers kvs ↔ ∀ m ∈ kvs, m.2.Sorted
  | [] => by simp [SortedMembers]
  | (k, v) :: kvs => by rw [SortedMembers, sortedMembers_iff, List.forall_mem_cons]

theorem neat_obj {kvs : List (String × Json)} (hk : (kvs.map Prod.fst).Pairwise (· < ·))
    (ha : ∀ k ∈ kvs.map Prod.fst, Ascii k.toList) (hv : ∀ m ∈ kvs, m.2.Neat) : (obj kvs).Neat where
  sorted := by
    rw [Sorted, sortedMembers_iff]
    exact ⟨hk, fun m hm => (hv m hm).sorted⟩
  ascii := ascii_obj fun m hm => ⟨ha _ (List.mem_map_of_mem hm), (hv m hm).ascii⟩

/-- The canonical text of a neat value: ASCII, and parsed it is the value again. -/
theorem Neat.canonical {j : Json} (h : j.Neat) :
    Ascii j.canonical ∧ parse j.canonical = some j := by
  rw [canonical_of_sorted h.sorted]
  exact ⟨h.ascii, parse_render j⟩

/-! ## Members -/

/-- The member with a key, the last one as a reader's table would keep it. -/
def get? (k : String) : Json → Option Json
  | obj kvs => (kvs.reverse.find? fun p => p.1 = k).map Prod.snd
  | _ => none

/-- The keys of an object, in text order. -/
def keys : Json → Option (List String)
  | obj kvs => some (kvs.map Prod.fst)
  | _ => none

mutual
/-- No object lists a key twice. -/
def uniqueKeys : Json → Bool
  | arr xs => uniqueElems xs
  | obj kvs => (kvs.map Prod.fst).Nodup && uniqueMembers kvs
  | _ => true

def uniqueElems : List Json → Bool
  | [] => true
  | x :: xs => x.uniqueKeys && uniqueElems xs

def uniqueMembers : List (String × Json) → Bool
  | [] => true
  | (_, v) :: kvs => v.uniqueKeys && uniqueMembers kvs
end

end Json
end Verif
