import FilterLogic.Json.Value

/-!
# Comparing JSON values

Two numbers, two texts and two booleans can be compared: numbers by value, texts by code points,
and false before true. Other pairs of values are incomparable.
-/

namespace FilterLogic.Json.Value

/-- The order of two values, if they are comparable. -/
def order? : Value → Value → Option Ordering
  | .number a, .number b => Number.order? a b
  | .text a, .text b => some (compare a b)
  | .bool a, .bool b => some (compare a b)
  | _, _ => none

end FilterLogic.Json.Value
