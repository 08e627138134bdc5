import FilterLogic.Number.Shortest

/-!
# Numbers of JSON

A number is an integer or a double. A numeral without fraction and exponent is an integer if it
fits a signed or an unsigned 64-bit word; `-0`, greater integers and all other numerals are doubles.

A double is read in two roundings. The digits are gathered in an unsigned 64-bit word for as long
as they fit; integer digits beyond that only raise the power of ten, and fraction digits are
dropped. The word is rounded, and then its product with or quotient by a rounded power of ten.
-/

namespace FilterLogic.Json

/-- A number of JSON. -/
inductive Number where
  | integer (value : Int)
  | double (value : Binary64)
  deriving DecidableEq

/-- A numeral as written. Digits are numbers below ten. -/
structure Numeral where
  negative : Bool
  whole : List Nat
  /-- The digits after the point; a numeral without point has none. -/
  fraction : List Nat
  /-- The sign and the digits of the power of ten. -/
  power : Option (Bool × List Nat)
  deriving DecidableEq

/-- The first integer beyond unsigned 64-bit words. -/
def wordLimit : Nat := Nat.pow 2 64

/-- The greatest power of ten in one step of scaling. -/
def powerLimit : Nat := 308

/-- The greatest exponent that is not cut off. -/
def exponentLimit : Nat := Nat.pow 2 31 - 1

/-- Appends digits to a word while it fits, and returns the digits that are left. -/
def gather (word : Nat) : List Nat → Nat × List Nat
  | [] => (word, [])
  | d :: rest =>
    if word * 10 + d < wordLimit then gather (word * 10 + d) rest else (word, d :: rest)

/-- The double nearest to a power of ten. -/
def powerOfTen? (k : Nat) : Option Binary64 := Binary64.ofNat? (Nat.pow 10 k)

/-- A double multiplied by a power of ten, unless that leaves the finite range. -/
def scaleUp? (x : Binary64) (k : Nat) : Option Binary64 :=
  if k ≤ powerLimit then do x.mul? (← powerOfTen? k)
  else if x.isZero then some x
  else none

/-- A double divided by a power of ten, in steps until it is zero or the last step is short. -/
def scaleDown? (x : Binary64) (k : Nat) : Option Binary64 :=
  if k ≤ powerLimit then do x.div? (← powerOfTen? k)
  else if x.isZero then some x
  else do scaleDown? (← x.div? (← powerOfTen? powerLimit)) (k - powerLimit)
termination_by k
decreasing_by simp only [powerLimit] at *; omega

namespace Numeral

/-- The value of decimal digits. -/
def ofDigits (digits : List Nat) : Nat := digits.foldl (fun n d => n * 10 + d) 0

/-- The double that a numeral denotes, unless it leaves the finite range. -/
def toDouble? (n : Numeral) : Option Binary64 := do
  let (word, moreWhole) := gather 0 n.whole
  let (word, moreFraction) := gather word n.fraction
  let shift : Int := (moreWhole.length : Int) - (n.fraction.length - moreFraction.length : Nat)
  let start ← Binary64.ofNat? word
  let magnitude ←
    match n.power with
    | none =>
      if shift < 0 then scaleDown? start shift.natAbs else scaleUp? start shift.natAbs
    | some (down, digits) =>
      let power := ofDigits digits
      if exponentLimit < power then
        if word ≠ 0 && !down then none else some (Binary64.zero false)
      else
        let total := if down then shift - power else shift + power
        if total < 0 then scaleDown? start total.natAbs else scaleUp? start total.natAbs
  return if n.negative then magnitude.neg else magnitude

/-- The number that a numeral denotes, unless it leaves the finite range. -/
def value? (n : Numeral) : Option Number :=
  if n.fraction.isEmpty && n.power.isNone then
    match gather 0 n.whole with
    | (word, []) =>
      if !n.negative then some (.integer word)
      else if 0 < word && word ≤ Nat.pow 2 63 then some (.integer (-(word : Int)))
      else n.toDouble?.map .double
    | (_, _ :: _) => n.toDouble?.map .double
  else n.toDouble?.map .double

end Numeral

namespace Number

/-- Doubles are written positionally with leading digits from the fifth decimal place up to
`10 ^ 15`, and else with a signed power of ten. -/
def layout : DoubleLayout := ⟨-5, 15, 'e', true⟩

/-- The text of a number. -/
def render : Number → List Char
  | .integer n => (if n < 0 then ['-'] else []) ++ Nat.toDigits 10 n.natAbs
  | .double x => layout.render x

/-- Whether an integer fits a signed 64-bit word. -/
def fitsSigned (n : Int) : Bool := -(Nat.pow 2 63 : Int) ≤ n && n < (Nat.pow 2 63 : Int)

/-- The double nearest to a number. -/
def toDouble? : Number → Option Binary64
  | .integer n => Binary64.ofInt? n
  | .double x => some x

/-- The order of two numbers. Integers that fit a signed word are compared exactly, and all other
pairs as doubles. -/
def order? : Number → Number → Option Ordering
  | .integer a, .integer b =>
    if fitsSigned a && fitsSigned b then some (compare a b)
    else do return (← Binary64.ofInt? a).order (← Binary64.ofInt? b)
  | a, b => do return (← a.toDouble?).order (← b.toDouble?)

end Number

end FilterLogic.Json
