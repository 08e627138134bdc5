import FilterLogic.Condition
import FilterLogic.Condition.Operand
import FilterLogic.Json.Order
import FilterLogic.Text.Like

/-!
# Conditions on records

A condition on JSON records is a predicate. A filter looks at one top-level field of the record. A
field that is missing or null satisfies IS NULL and no other operator, and a field that cannot be
compared with the operand satisfies no comparison.
-/

namespace FilterLogic

/-- A predicate on JSON records. -/
structure Predicate where
  holds : Json.Value → Bool

namespace Predicate

/-- The kind of all predicates. -/
def kind : String := "memory"

instance : Condition Predicate where
  kind _ := kind
  both l r := ⟨fun record => l.holds record && r.holds record⟩
  either l r := ⟨fun record => l.holds record || r.holds record⟩
  negate c := ⟨fun record => !c.holds record⟩

instance : LawfulCondition Predicate where
  kind_both _ _ := rfl
  kind_either _ _ := rfl
  kind_negate _ := rfl

/-- The records for which a predicate holds, in their order. -/
def filter (p : Predicate) (records : List Json.Value) : List Json.Value :=
  records.filter p.holds

/-- The field of a record, if it is there and not null. -/
def present? (name : String) (record : Json.Value) : Option Json.Value :=
  (record.field? name).filter fun v => !v.isNull

/-- Holds if the field is present and passes a test. -/
def onField (name : String) (test : Json.Value → Bool) : Predicate :=
  ⟨fun record => (present? name record).any test⟩

/-- Whether a value is comparable with an operand and their order is accepted. -/
def compares (operand : Json.Value) (accept : Ordering → Bool) (value : Json.Value) : Bool :=
  (value.order? operand).any accept

/-- Whether a value equals one of several. -/
def isAmong (candidates : List Json.Value) (value : Json.Value) : Bool :=
  candidates.any fun candidate => value.order? candidate == some .eq

/-- Whether a value lies between two bounds, which belong to the range. -/
def isWithin (low high value : Json.Value) : Bool :=
  compares low Ordering.isGE value && compares high Ordering.isLE value

/-- Holds if the field is a text and matches the pattern or not, as expected. -/
def like (name : String) (pattern : Json.Value) (expected : Bool) : Except Error Predicate :=
  match pattern with
  | .text pattern =>
    let pattern := pattern.toList
    .ok <| onField name fun value =>
      match value with
      | .text s => Text.Like.accepts pattern s.toList == expected
      | _ => false
  | other => .error (.valueType name .text other.kind)

/-- Holds if the field lies within the bounds or not, as expected. -/
def range (name : String) (op : Operator) (operand : Json.Value) (expected : Bool) :
    Except Error Predicate := do
  let (low, high) ← Operand.bounds op operand
  return onField name fun value => isWithin low high value == expected

/-- Holds if the field compares with the operand as accepted. -/
def comparison (name : String) (operand : Json.Value) (accept : Ordering → Bool) : Predicate :=
  onField name (compares operand accept)

/-- Holds if the field is among the candidates or not, as expected. -/
def membership (name : String) (operand : Json.Value) (expected : Bool) : Predicate :=
  onField name fun value => isAmong (Operand.candidates operand) value == expected

/-- Makes the predicate of a filter. -/
def build : Builder Predicate := fun property op value =>
  let name := property.name
  match op with
  | .equals => .ok (comparison name value Ordering.isEq)
  | .notEquals => .ok (comparison name value Ordering.isNe)
  | .greaterThan => .ok (comparison name value Ordering.isGT)
  | .greaterThanOrEqual => .ok (comparison name value Ordering.isGE)
  | .lessThan => .ok (comparison name value Ordering.isLT)
  | .lessThanOrEqual => .ok (comparison name value Ordering.isLE)
  | .like => like name value true
  | .notLike => like name value false
  | .isIn => .ok (membership name value true)
  | .notIn => .ok (membership name value false)
  | .isNull => .ok ⟨fun record => (present? name record).isNone⟩
  | .isNotNull => .ok ⟨fun record => (present? name record).isSome⟩
  | .between => range name op value true
  | .notBetween => range name op value false

end Predicate

end FilterLogic
