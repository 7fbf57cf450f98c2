/-
  Floating point numbers as programs compare them: "not a number", the infinities, and finite
  values, which are exact.  Comparisons with "not a number" are false, equality included.
-/
import Mathlib.Algebra.Order.Monoid.WithTop
import Mathlib.Algebra.Order.Ring.Rat

namespace Verif

/-- A finite value or an infinity. -/
abbrev Extended := WithBot (WithTop ℚ)

/-- A floating point number. -/
inductive Number where
  | nan
  | real (x : Extended)
  deriving DecidableEq

namespace Number

/-- A finite number. -/
def fin (q : ℚ) : Number := real ((q : WithTop ℚ) : Extended)

/-- `<` -/
def lt : Number → Number → Prop
  | real x, real y => x < y
  | _, _ => False

/-- `<=` -/
def le : Number → Number → Prop
  | real x, real y => x ≤ y
  | _, _ => False

/-- `===` -/
def same : Number → Number → Prop
  | real x, real y => x = y
  | _, _ => False

/-- A number as a condition: neither zero nor "not a number". -/
def truthy : Number → Prop
  | real x => x ≠ 0
  | nan => False

instance : ∀ x y, Decidable (lt x y)
  | real x, real y => inferInstanceAs (Decidable (x < y))
  | nan, _ => inferInstanceAs (Decidable False)
  | real _, nan => inferInstanceAs (Decidable False)

instance : ∀ x y, Decidable (le x y)
  | real x, real y => inferInstanceAs (Decidable (x ≤ y))
  | nan, _ => inferInstanceAs (Decidable False)
  | real _, nan => inferInstanceAs (Decidable False)

instance : ∀ x y, Decidable (same x y)
  | real x, real y => inferInstanceAs (Decidable (x = y))
  | nan, _ => inferInstanceAs (Decidable False)
  | real _, nan => inferInstanceAs (Decidable False)

instance : ∀ x, Decidable (truthy x)
  | real x => inferInstanceAs (Decidable (x ≠ 0))
  | nan => inferInstanceAs (Decidable False)

/-- A number and a finite number are added. -/
def plus (q : ℚ) : Number → Number
  | real x => real (x.map fun y => y.map (q + ·))
  | nan => nan

/-- A number is multiplied by a positive finite number. -/
def times (q : ℚ) : Number → Number
  | real x => real (x.map fun y => y.map (· * q))
  | nan => nan

/-- The finite value, if it is one. -/
def finite : Number → Option ℚ
  | real (some (some q)) => some q
  | _ => none

@[simp] theorem lt_real {x y : Extended} : (real x).lt (real y) ↔ x < y := Iff.rfl

@[simp] theorem same_real {x y : Extended} : (real x).same (real y) ↔ x = y := Iff.rfl

@[simp] theorem truthy_real {x : Extended} : (real x).truthy ↔ x ≠ 0 := Iff.rfl

end Number

end Verif
