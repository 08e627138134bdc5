import FilterLogic.Error
import FilterLogic.Json.Printer
import FilterLogic.Json.Record

/-!
# Properties

A property has a name, a type and the operators it may be filtered with. These are never empty and
always listed in order of declaration, each once. A filter on a property is valid if its operator
is among them, its value has the shape the operator needs, and every operand fits the type.
-/

namespace FilterLogic

namespace Operator

/-- The operator that a text names, which must be known. -/
def require (text : String) : Except Error Operator :=
  match parse? text with
  | some op => .ok op
  | none => .error (.unknownOperator (Text.trim text))

/-- An operator as JSON: its symbol. -/
def toValue (op : Operator) : Json.Value := .text op.symbol

/-- Reads an operator from JSON text, which must be a string. The operator is the one that the
string names. -/
def parseJson? (text : String) : Option (Except Error Operator) := do
  return require (← (← Json.Source.parse? text).text?)

/-- Checks that a value has the shape that an operator needs. -/
def checkCardinality (op : Operator) (value : Json.Value) : Except Error Unit :=
  if op.cardinality.admits value then .ok ()
  else .error (.valueCardinality op op.cardinality.requirement value.operandCount)

end Operator

/-- A named, typed property and the operators it supports. -/
structure Property where
  name : String
  type : PropertyType
  operators : List Operator
  ordered : operators.Sublist Operator.all
  nonempty : operators ≠ []
  deriving DecidableEq

namespace Property

theorem sort_ne_nil {ops : List Operator} (h : ops ≠ []) : Operator.sort ops ≠ [] := by
  obtain ⟨op, hop⟩ := List.exists_mem_of_ne_nil ops h
  exact List.ne_nil_of_mem (Operator.mem_sort.2 hop)

/-- The property with the given operators, of which there must be one. -/
def create (name : String) (type : PropertyType) (ops : List Operator) : Except Error Property :=
  if h : ops = [] then .error (.emptyOperatorSet name)
  else .ok ⟨name, type, Operator.sort ops, Operator.sort_sublist ops, sort_ne_nil h⟩

/-- The property with the operators of its type. -/
def withDefaults (name : String) (type : PropertyType) : Property :=
  ⟨name, type, Operator.sort type.defaultOperators, Operator.sort_sublist _,
    sort_ne_nil type.defaultOperators_ne_nil⟩

/-- The property with the listed operators, or those of its type if there is no list. -/
def declare (name : String) (type : PropertyType) (ops : Option (List Operator)) :
    Except Error Property :=
  match ops with
  | some ops => create name type ops
  | none => .ok (withDefaults name type)

/-- The name of a property with its type. -/
def display (p : Property) : String := p.name ++ " (" ++ p.type.name ++ ")"

/-- Whether the property may be filtered with an operator. -/
def supports (p : Property) (op : Operator) : Bool := p.operators.contains op

/-- Whether the property supports every one of some operators. -/
def supportsAll (p : Property) (ops : List Operator) : Bool := ops.all p.supports

/-- Those of some operators that the property does not support, in order of declaration. -/
def unsupportedOperators (p : Property) (ops : List Operator) : List Operator :=
  Operator.sort (ops.filter fun op => !p.supports op)

/-- Whether the values of the property are numbers. -/
def isNumeric (p : Property) : Bool := p.type = .integer || p.type = .number

/-- Whether the values of the property are texts. -/
def isTextual (p : Property) : Bool := p.type = .text

/-- Checks that an operator is supported. -/
def validate (p : Property) (op : Operator) : Except Error Unit :=
  if p.supports op then .ok () else .error (.operatorNotSupported p.name op p.operators)

/-- The operands that a value supplies. -/
def operands : Json.Value → List Json.Value
  | .null => []
  | .array items => items
  | value => [value]

/-- Checks an operator and its value: first that the operator is supported, then the shape of the
value, then the type of each operand. -/
def validateValue (p : Property) (op : Operator) (value : Json.Value) : Except Error Unit := do
  p.validate op
  op.checkCardinality value
  match (operands value).find? fun v => !p.type.accepts v with
  | some bad => .error (.valueType p.name p.type bad.kind)
  | none => .ok ()

end Property

end FilterLogic
