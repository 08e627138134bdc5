import FilterLogic.Number.Binary64

/-!
# Shortest decimals

The decimal with the fewest digits that rounds to a given double, and of those the nearest. The
reals that round to the double form an interval around it. On the grid of decimals with a fixed
number of digits only the two neighbours of the value can be the nearest ones inside, so the grids
are tried from the coarsest on until one of them has a neighbour in the interval.
-/

namespace FilterLogic

/-- The number `digits * 10 ^ exponent`. -/
structure Decimal where
  digits : Nat
  exponent : Int
  deriving DecidableEq

namespace Binary64

/-- The interval of reals that round to a positive double. Its ends and its centre are given as
numerators over one denominator. -/
structure Interval where
  low : Nat
  centre : Nat
  high : Nat
  denominator : Nat
  /-- Whether the ends belong to the interval, as ties go to the even significand. -/
  closed : Bool

/-- The interval of reals that round to a double of this magnitude. Below a power of two the
neighbouring doubles are half as far apart. -/
def interval (x : Binary64) : Interval :=
  let m := x.significand
  let below := if m = Nat.pow 2 52 ∧ x.exponent ≠ -1074 then 1 else 2
  let scale := Nat.pow 2 (x.exponent - 2).toNat
  { low := (4 * m - below) * scale
    centre := 4 * m * scale
    high := (4 * m + 2) * scale
    denominator := Nat.pow 2 (2 - x.exponent).toNat
    closed := m % 2 == 0 }

namespace Interval

/-- Whether `num / den` lies in the interval. -/
def contains (i : Interval) (num den : Nat) : Bool :=
  let x := num * i.denominator
  if i.closed then i.low * den ≤ x && x ≤ i.high * den
  else i.low * den < x && x < i.high * den

/-- The multiple of `10 ^ exponent` nearest to the centre of those in the interval. -/
def onGrid? (i : Interval) (exponent : Int) : Option Nat :=
  let up := Nat.pow 10 exponent.toNat
  let down := Nat.pow 10 (-exponent).toNat
  let num := i.centre * down
  let den := i.denominator * up
  let q := num / den
  let twice := 2 * (num % den)
  let nearer := if twice < den || (twice == den && q % 2 == 0) then q else q + 1
  let farther := if nearer = q then q + 1 else q
  if i.contains (nearer * up) down then some nearer
  else if i.contains (farther * up) down then some farther
  else none

/-- The exponent of the leading decimal digit of `num / den`, found near a given guess. -/
def leadingExponent (num den : Nat) : Nat → Int → Int
  | 0, guess => guess
  | fuel + 1, guess =>
    if num * Nat.pow 10 (-guess).toNat < den * Nat.pow 10 guess.toNat then
      leadingExponent num den fuel (guess - 1)
    else if den * Nat.pow 10 (guess + 1).toNat ≤ num * Nat.pow 10 (-(guess + 1)).toNat then
      leadingExponent num den fuel (guess + 1)
    else guess

/-- The first decimal found on grids of ever more digits, at most `count` more of them. -/
def search (i : Interval) : Nat → Int → Decimal
  | 0, exponent => ⟨0, exponent⟩
  | count + 1, exponent =>
    match i.onGrid? exponent with
    | some digits => ⟨digits, exponent⟩
    | none => search i count (exponent - 1)

end Interval

/-- Drops the trailing zeros of a number with at most `count` digits. -/
def dropZeros : Nat → Decimal → Decimal
  | 0, d => d
  | count + 1, d =>
    if d.digits ≠ 0 ∧ d.digits % 10 = 0 then dropZeros count ⟨d.digits / 10, d.exponent + 1⟩
    else d

/-- The shortest decimal of the magnitude of a double. Seventeen digits always suffice. -/
def shortest (x : Binary64) : Decimal :=
  if x.isZero then ⟨0, 0⟩
  else
    let i := x.interval
    let binary : Int := x.exponent + Nat.log2 x.significand
    let leading := Interval.leadingExponent i.centre i.denominator 4 (binary * 30103 / 100000)
    dropZeros 18 (i.search 18 leading)

end Binary64

/-- How a double is laid out as text. -/
structure DoubleLayout where
  /-- The least exponent of the leading digit at which no power of ten is written. -/
  leastPositional : Int
  /-- The greatest such exponent. -/
  greatestPositional : Int
  /-- What stands between the digits and the power of ten. -/
  mark : Char
  /-- Whether a positive power of ten has a sign. -/
  plus : Bool

namespace DoubleLayout

/-- A power of ten with its mark and sign. -/
def power (layout : DoubleLayout) (exponent : Int) : List Char :=
  let sign := if exponent < 0 then ['-'] else if layout.plus then ['+'] else []
  layout.mark :: sign ++ Nat.toDigits 10 exponent.natAbs

/-- The text of a magnitude. A number without a power of ten has a decimal point with a digit on
both sides. -/
def magnitude (layout : DoubleLayout) (d : Decimal) : List Char :=
  let digits := Nat.toDigits 10 d.digits
  let leading := d.exponent + digits.length - 1
  if layout.leastPositional ≤ leading ∧ leading ≤ layout.greatestPositional then
    if leading < 0 then
      ['0', '.'] ++ List.replicate (-leading - 1).toNat '0' ++ digits
    else
      let whole := (leading + 1).toNat
      let front := digits.take whole ++ List.replicate (whole - digits.length) '0'
      let back := digits.drop whole
      front ++ '.' :: (if back.isEmpty then ['0'] else back)
  else
    let back := digits.drop 1
    digits.take 1 ++ (if back.isEmpty then [] else '.' :: back) ++ layout.power leading

/-- The text of a double, as the shortest decimal that reads back to it. -/
def render (layout : DoubleLayout) (x : Binary64) : List Char :=
  (if x.negative then ['-'] else []) ++ layout.magnitude x.shortest

end DoubleLayout

end FilterLogic
