import FilterLogic.PropertyType
import FilterLogic.Expr.SyntaxError

/-!
# Errors of filters

Every way in which reading, checking or resolving filters fails, with its message.
-/

namespace FilterLogic

/-- Why filters could not be read, checked or resolved. -/
inductive Error where
  | expression (fault : SyntaxError)
  | operatorNotSupported (property : String) (operator : Operator) (supported : List Operator)
  | valueCardinality (operator : Operator) (expected : String) (actual : Nat)
  | valueType (property : String) (expected : PropertyType) (actual : Json.Kind)
  | emptyOperatorSet (property : String)
  | unknownOperator (text : String)
  | unknownProperty (name : String) (suggestion : Option String)
  | filter (key : String) (source : Error)
  | unknownFilterKey (key : String) (suggestion : Option String)
  | incompatibleKinds (left right : String)
  /-- A property configuration is at fault, with the report on it. -/
  | configuration (report : String)
  deriving DecidableEq

namespace Error

/-- The hint at a name that may have been meant. -/
def hint : Option String → String
  | some name => ". Did you mean '" ++ name ++ "'?"
  | none => ""

/-- The symbols of operators, separated by commas. -/
def symbols (ops : List Operator) : String := ", ".intercalate (ops.map Operator.symbol)

/-- The message for an error. -/
def message : Error → String
  | .expression fault => fault.message
  | .operatorNotSupported property operator supported =>
    "operator " ++ operator.symbol ++ " is not supported for property '" ++ property ++
      "' (supported: " ++ symbols supported ++ ")"
  | .valueCardinality operator expected actual =>
    "operator " ++ operator.symbol ++ " requires " ++ expected ++ ", got " ++ toString actual ++
      " value(s)"
  | .valueType property expected actual =>
    "value of type " ++ actual.name ++ " is not compatible with " ++ expected.name ++
      " property '" ++ property ++ "'"
  | .emptyOperatorSet property =>
    "property '" ++ property ++ "' must support at least one operator"
  | .unknownOperator text => "unknown operator: " ++ text
  | .unknownProperty name suggestion => "unknown property '" ++ name ++ "'" ++ hint suggestion
  | .filter key source => "invalid filter '" ++ key ++ "': " ++ source.message
  | .unknownFilterKey key suggestion => "unknown filter key '" ++ key ++ "'" ++ hint suggestion
  | .incompatibleKinds left right =>
    "cannot combine " ++ left ++ " condition with " ++ right ++ " condition"
  | .configuration report => "invalid property configuration: " ++ report

/-- Whether an error is a fault of the expression itself. -/
def isSyntaxError : Error → Bool
  | .expression _ => true
  | _ => false

/-- The key of the filter that an error is about. -/
def filterKey? : Error → Option String
  | .filter key _ => some key
  | .unknownFilterKey key _ => some key
  | _ => none

end Error

end FilterLogic
