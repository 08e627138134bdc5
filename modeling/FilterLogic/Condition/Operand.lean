import FilterLogic.Error

/-!
# Operands of operators

How the conditions of records and of SQL take a filter's value apart. Both take a value that was
not validated too: a single value stands for a list of one. A range is checked here once more, by
itself: what it reports does not come from the table of what operators need.
-/

namespace FilterLogic.Operand

/-- The values of a list operand. -/
def candidates : Json.Value → List Json.Value
  | .array items => items
  | value => [value]

/-- The lower and the upper bound of a range operand. -/
def bounds (op : Operator) : Json.Value → Except Error (Json.Value × Json.Value)
  | .array [low, high] => .ok (low, high)
  | other =>
    let actual :=
      match other with
      | .null => 0
      | .array items => items.length
      | _ => 1
    .error (.valueCardinality op "exactly 2 values" actual)

end FilterLogic.Operand
