/-!
# Double-precision numbers

A finite double is a sign, a significand and a power of two, kept in the one standard form that
the 64-bit format gives it. Rounding is to the nearest double, a tie to the even significand, and
is computed in exact integer arithmetic. Infinities and NaN are absent: where rounding would leave
the finite range there is no result.
-/

namespace FilterLogic

namespace Binary64

/-- The standard form of a significand and an exponent. The significand has 53 bits, or fewer if
the exponent is the least one. -/
def Standard (significand : Nat) (exponent : Int) : Prop :=
  significand < Nat.pow 2 53 ∧ -1074 ≤ exponent ∧ exponent ≤ 971 ∧
    (Nat.pow 2 52 ≤ significand ∨ exponent = -1074)

instance (significand : Nat) (exponent : Int) : Decidable (Standard significand exponent) :=
  inferInstanceAs (Decidable (_ ∧ _))

end Binary64

/-- A finite double: its magnitude is `significand * 2 ^ exponent`. -/
structure Binary64 where
  negative : Bool
  significand : Nat
  exponent : Int
  standard : Binary64.Standard significand exponent
  deriving DecidableEq

namespace Binary64

/-- The zero of a sign. -/
def zero (negative : Bool) : Binary64 := ⟨negative, 0, -1074, by decide⟩

instance : Inhabited Binary64 := ⟨zero false⟩

/-- Whether the number is a zero of either sign. -/
def isZero (x : Binary64) : Bool := x.significand == 0

/-- The number with the other sign. -/
def neg (x : Binary64) : Binary64 := { x with negative := !x.negative }

/-- The nearest integer to a quotient, a tie to the even one. -/
def roundQuotient (num den : Nat) : Nat :=
  let q := num / den
  let twice := 2 * (num % den)
  if twice < den then q else if den < twice then q + 1 else q + q % 2

/-- The quotient of two numbers, divided by a power of two, as a quotient again. -/
def scaleQuotient (num den : Nat) (exponent : Int) : Nat × Nat :=
  (num * Nat.pow 2 (-exponent).toNat, den * Nat.pow 2 exponent.toNat)

/-- The exponent at which a positive quotient has a significand of 53 bits, or the least one. -/
def exponentFor (num den : Nat) : Int :=
  let guess : Int := (Nat.log2 num : Int) - Nat.log2 den - 52
  let (n, d) := scaleQuotient num den guess
  max (if n < Nat.pow 2 52 * d then guess - 1 else guess) (-1074)

/-- The double nearest to `num / den` with the given sign, unless it would be infinite. The
standard form fails only by its upper bound on the exponent. -/
def ofQuotient (negative : Bool) (num den : Nat) : Option Binary64 :=
  if num = 0 then some (zero negative)
  else
    let exponent := exponentFor num den
    let (n, d) := scaleQuotient num den exponent
    let significand := roundQuotient n d
    let (m, e) :=
      if significand = Nat.pow 2 53 then (Nat.pow 2 52, exponent + 1) else (significand, exponent)
    if h : Standard m e then some ⟨negative, m, e, h⟩ else none

/-- The double nearest to a natural number. -/
def ofNat? (n : Nat) : Option Binary64 := ofQuotient false n 1

/-- The double nearest to an integer. -/
def ofInt? (n : Int) : Option Binary64 := ofQuotient (n < 0) n.natAbs 1

/-- The magnitude as a quotient of natural numbers. -/
def quotient (x : Binary64) : Nat × Nat := scaleQuotient x.significand 1 (-x.exponent)

/-- The rounded product. -/
def mul? (x y : Binary64) : Option Binary64 :=
  let (a, b) := x.quotient
  let (c, d) := y.quotient
  ofQuotient (x.negative != y.negative) (a * c) (b * d)

/-- The rounded quotient by a number that is not zero. -/
def div? (x y : Binary64) : Option Binary64 :=
  if y.isZero then none
  else
    let (a, b) := x.quotient
    let (c, d) := y.quotient
    ofQuotient (x.negative != y.negative) (a * d) (b * c)

/-- The exact value in units of `2 ^ (-1074)`, of which every finite double is a multiple. -/
def units (x : Binary64) : Int :=
  let magnitude : Nat := x.significand * Nat.pow 2 (x.exponent + 1074).toNat
  if x.negative then -(magnitude : Int) else magnitude

/-- The numerical order, in which the two zeros are equal. -/
def order (x y : Binary64) : Ordering := compare x.units y.units

end Binary64

end FilterLogic
