/-
  Values that JavaScript code reads as numbers, and the blanks of its texts.
-/
import Mathlib.Algebra.Order.Ring.Rat

namespace Verif

/-- A value that is read as a number: nothing (`null` or `undefined`), something that is not a
    finite number, or a number. -/
inductive JsNumber where
  | absent | invalid
  | num (q : ℚ)
  deriving DecidableEq, Repr

namespace JsNumber

/-- `Number(x)`, if `x` is a finite number. -/
def finite : JsNumber → Option ℚ
  | num q => some q
  | _ => none

/-- `Number(x ?? 0)`, if it is finite. -/
def orZero : JsNumber → Option ℚ
  | absent => some 0
  | invalid => none
  | num q => some q

/-- `x ?? y` -/
def orElse : JsNumber → JsNumber → JsNumber
  | absent, y => y
  | x, _ => x

end JsNumber

/-- `===` of a value that is a number with one that may be. -/
def sameNumber (x y : Option ℚ) : Bool := x.isSome && decide (x = y)

/-- What `trim` removes. -/
def isJsSpace (c : Char) : Bool :=
  c.toNat ∈ [0x09, 0x0a, 0x0b, 0x0c, 0x0d, 0x20, 0xa0, 0x1680, 0x2028, 0x2029, 0x202f, 0x205f, 0x3000, 0xfeff] ||
    decide (0x2000 ≤ c.toNat ∧ c.toNat ≤ 0x200a)

/-- `!text.trim()` -/
def isBlank (text : List Char) : Bool := text.all isJsSpace

end Verif
