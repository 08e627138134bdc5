import FilterLogic.Number.Binary64

/-!
# Scalars of TOML

Which words are integers, floating-point numbers, booleans or times. Digits may be grouped by
single underscores. Integers must fit a signed 64-bit word; a floating-point number must not exceed
the finite range upwards.
-/

namespace FilterLogic.Toml.Scalar

/-- The digits of a group with underscores between digits removed. There must be a digit at both
ends, and no two underscores in a row. -/
def ungroup? (isDigit : Char → Bool) : List Char → Option (List Char)
  | [] => none
  | [c] => if isDigit c then some [c] else none
  | c :: '_' :: rest => if isDigit c then (c :: ·) <$> ungroup? isDigit rest else none
  | c :: rest => if isDigit c then (c :: ·) <$> ungroup? isDigit rest else none

/-- The value of a digit in any base up to sixteen. -/
def digitValue (c : Char) : Nat :=
  if c.isDigit then c.toNat - '0'.toNat else c.toLower.toNat - 'a'.toNat + 10

/-- The value of digits in a base. -/
def ofDigits (base : Nat) (digits : List Char) : Nat :=
  digits.foldl (fun n c => n * base + digitValue c) 0

/-- Whether a character is a hexadecimal digit. -/
def isHexDigit (c : Char) : Bool :=
  c.isDigit || ('a' ≤ c && c ≤ 'f') || ('A' ≤ c && c ≤ 'F')

/-- Whether grouped digits in a base are a signed word. -/
def isPrefixed (base : Nat) (isDigit : Char → Bool) (cs : List Char) : Bool :=
  match ungroup? isDigit cs with
  | some digits => ofDigits base digits < Nat.pow 2 63
  | none => false

/-- Splits a sign off. -/
def splitSign : List Char → Bool × List Char
  | '-' :: rest => (true, rest)
  | '+' :: rest => (false, rest)
  | rest => (false, rest)

/-- The digits of a decimal integer without its sign. There is no leading zero. -/
def wholeDigits? (cs : List Char) : Option (List Char) := do
  let digits ← ungroup? Char.isDigit cs
  if digits.head? = some '0' ∧ digits.length ≠ 1 then none else some digits

/-- Whether a word is an integer. -/
def isInteger : List Char → Bool
  | '0' :: 'x' :: rest => isPrefixed 16 isHexDigit rest
  | '0' :: 'o' :: rest => isPrefixed 8 (fun c => '0' ≤ c && c ≤ '7') rest
  | '0' :: 'b' :: rest => isPrefixed 2 (fun c => c == '0' || c == '1') rest
  | cs =>
    let (negative, rest) := splitSign cs
    match wholeDigits? rest with
    | some digits =>
      let n := ofDigits 10 digits
      if negative then n ≤ Nat.pow 2 63 else n < Nat.pow 2 63
    | none => false

/-- Whether `digits * 10 ^ exponent` is too great for a double. Far from the limit the number of
digits decides. -/
def overflows (digits : List Char) (exponent : Int) : Bool :=
  let n := ofDigits 10 digits
  let places := exponent + (Nat.toDigits 10 n).length
  if n = 0 || places < 300 then false
  else if 320 < places then true
  else
    let (up, down) := (Nat.pow 10 exponent.toNat, Nat.pow 10 (-exponent).toNat)
    (Binary64.ofQuotient false (n * up) down).isNone

/-- Whether a power of ten with its sign is well formed, and its value. -/
def power? (cs : List Char) : Option Int := do
  let (negative, rest) := splitSign cs
  let n := ofDigits 10 (← ungroup? Char.isDigit rest)
  return if negative then -(n : Int) else n

/-- Whether a word is a floating-point number: a decimal integer with a fraction, a power of ten or
both, or a special value. -/
def isFloat (cs : List Char) : Bool :=
  let (negative, rest) := splitSign cs
  if rest == "inf".toList || rest == "nan".toList then true
  else
    let isMark (c : Char) : Bool := c == 'e' || c == 'E'
    let mantissa := rest.takeWhile fun c => !isMark c
    let tail := rest.dropWhile fun c => !isMark c
    let whole := mantissa.takeWhile (· ≠ '.')
    let after := mantissa.dropWhile (· ≠ '.')
    let fraction := match after with
      | [] => some []
      | _ :: digits => ungroup? Char.isDigit digits
    let power := match tail with
      | [] => some 0
      | _ :: digits => power? digits
    match wholeDigits? whole, fraction, power with
    | some whole, some fraction, some power =>
      !(after.isEmpty && tail.isEmpty) &&
        (negative || !overflows (whole ++ fraction) (power - fraction.length))
    | _, _, _ => false

/-- The number written by two digits. -/
def pair? : List Char → Option (Nat × List Char)
  | a :: b :: rest =>
    if a.isDigit && b.isDigit then some (ofDigits 10 [a, b], rest) else none
  | _ => none

/-- The number of days of a month. -/
def daysIn (year month : Nat) : Nat :=
  if month = 2 then
    if year % 4 = 0 ∧ (year % 100 ≠ 0 ∨ year % 400 = 0) then 29 else 28
  else if month = 4 ∨ month = 6 ∨ month = 9 ∨ month = 11 then 30
  else 31

/-- What follows a date. -/
def afterDate? (cs : List Char) : Option (List Char) := do
  let (century, rest) ← pair? cs
  let (decade, rest) ← pair? rest
  let year := century * 100 + decade
  match rest with
  | '-' :: rest => do
    let (month, rest) ← pair? rest
    match rest with
    | '-' :: rest => do
      let (day, rest) ← pair? rest
      if 1 ≤ month ∧ month ≤ 12 ∧ 1 ≤ day ∧ day ≤ daysIn year month then some rest else none
    | _ => none
  | _ => none

/-- What follows the fraction of a second, if there is one. -/
def afterFraction? : List Char → Option (List Char)
  | '.' :: rest =>
    if (rest.head?.any Char.isDigit) then some (rest.dropWhile Char.isDigit) else none
  | rest => some rest

/-- What follows hours and minutes. -/
def afterMinutes? (cs : List Char) : Option (List Char) := do
  let (hour, rest) ← pair? cs
  match rest with
  | ':' :: rest => do
    let (minute, rest) ← pair? rest
    if hour ≤ 23 ∧ minute ≤ 59 then some rest else none
  | _ => none

/-- What follows a time of day. -/
def afterTime? (cs : List Char) : Option (List Char) := do
  match ← afterMinutes? cs with
  | ':' :: rest => do
    let (second, rest) ← pair? rest
    if second ≤ 60 then afterFraction? rest else none
  | _ => none

/-- Whether characters are an offset from universal time, or there are none. -/
def isOffset : List Char → Bool
  | [] => true
  | ['Z'] | ['z'] => true
  | c :: rest => (c == '+' || c == '-') && afterMinutes? rest == some []

/-- Whether a word is a time of day with an optional offset. -/
def isTimeWithOffset (cs : List Char) : Bool := (afterTime? cs).any isOffset

/-- Whether a word is a date. -/
def isDate (cs : List Char) : Bool := afterDate? cs == some []

/-- Whether a word is a date with a time, a date, or a time of day. -/
def isMoment (cs : List Char) : Bool :=
  match afterDate? cs with
  | some [] => true
  | some (c :: rest) => (c == 'T' || c == 't') && isTimeWithOffset rest
  | none => afterTime? cs == some []

/-- Whether a word is a number or a boolean. -/
def isPlain (cs : List Char) : Bool :=
  cs == "true".toList || cs == "false".toList || isFloat cs || isInteger cs

end FilterLogic.Toml.Scalar
