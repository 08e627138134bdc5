import FilterLogic.Logged
import FilterLogic.Property

/-!
# Conditions

What an expression is turned into: values that can be negated and combined by AND and OR. Every
condition has a kind, and only conditions of one kind can be combined.
-/

namespace FilterLogic

/-- A type of conditions. The combinations are those of conditions that have one kind. -/
class Condition (C : Type) where
  /-- What sort of condition it is. -/
  kind : C → String
  /-- Holds where both conditions hold. -/
  both : C → C → C
  /-- Holds where one condition holds at least. -/
  either : C → C → C
  /-- Holds where the condition does not. -/
  negate : C → C

/-- A type of conditions whose combinations have the kind of their left operand. -/
class LawfulCondition (C : Type) [Condition C] : Prop where
  kind_both (l r : C) : Condition.kind (Condition.both l r) = Condition.kind l
  kind_either (l r : C) : Condition.kind (Condition.either l r) = Condition.kind l
  kind_negate (c : C) : Condition.kind (Condition.negate c) = Condition.kind c

/-- A way of making conditions for single filters. -/
abbrev Builder (C : Type) := Property → Operator → Json.Value → Except Error C

/-- A call of a builder or of a combination, with its arguments. -/
inductive Call (C : Type) where
  | build (property : Property) (operator : Operator) (value : Json.Value)
  | and (left right : C)
  | or (left right : C)
  | not (operand : C)

namespace Condition

variable {C : Type} [Condition C]

/-- Checks that two conditions have one kind. -/
def ensureCompatible (l r : C) : Except Error Unit :=
  if kind l = kind r then .ok () else .error (.incompatibleKinds (kind l) (kind r))

/-- The conjunction of two conditions of one kind. -/
def conjoin (l r : C) : Except Error C := do
  ensureCompatible l r
  return both l r

/-- The disjunction of two conditions of one kind. -/
def disjoin (l r : C) : Except Error C := do
  ensureCompatible l r
  return either l r

end Condition

end FilterLogic
