import FilterLogic.KeyMap
import FilterLogic.Property

/-!
# Filter requests

A filter applies an operator with its value to a property. A request names filters by keys and says
in an expression over these keys how they are combined.
-/

namespace FilterLogic

/-- A property with an operator and the value to compare with. -/
structure Filter where
  property : Property
  operator : Operator
  value : Json.Value

namespace Filter

/-- A filter whose operator takes no value. -/
def withoutValue (property : Property) (operator : Operator) : Filter :=
  ⟨property, operator, .null⟩

/-- Checks the operator and the value against the property. -/
def validate (f : Filter) : Except Error Unit := f.property.validateValue f.operator f.value

end Filter

/-- Filters by key and the expression that combines them. -/
structure Request where
  filters : KeyMap Filter
  combineWith : String

namespace Request

/-- The request with the listed filters. Of several filters for one key the last one counts. -/
def ofList (filters : List (String × Filter)) (combineWith : String) : Request :=
  ⟨KeyMap.ofList filters, combineWith⟩

end Request

end FilterLogic
