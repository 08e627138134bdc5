import FilterLogic.Operator

/-!
# Types of properties

The type of a property decides which values its filters accept and which operators it supports
when none are listed.
-/

namespace FilterLogic

/-- The declared type of the values of a property. -/
inductive PropertyType where
  | text
  | integer
  | number
  | boolean
  deriving DecidableEq, Repr

namespace PropertyType

/-- All types in order of declaration. -/
def all : List PropertyType := [.text, .integer, .number, .boolean]

/-- The name of a type. -/
def name : PropertyType → String
  | .text => "text"
  | .integer => "integer"
  | .number => "number"
  | .boolean => "boolean"

/-- The type of a name. -/
def parse? (name : String) : Option PropertyType := all.find? fun t => t.name == name

/-- The operators of a property of this type that lists none. -/
def defaultOperators : PropertyType → List Operator
  | .text => Operator.text
  | .integer | .number => Operator.numeric
  | .boolean => Operator.boolean

/-- Whether a single value fits a type. Integers are numbers; a double is no integer. -/
def accepts : PropertyType → Json.Value → Bool
  | .text, .text _ => true
  | .integer, .number (.integer _) => true
  | .number, .number _ => true
  | .boolean, .bool _ => true
  | _, _ => false

theorem defaultOperators_ne_nil (t : PropertyType) : t.defaultOperators ≠ [] := by
  cases t <;> decide

end PropertyType

end FilterLogic
