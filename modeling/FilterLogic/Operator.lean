import FilterLogic.Json.Value
import FilterLogic.Text.Blank
import FilterLogic.Text.Case

/-!
# Filter operators

The operators that compare a property with operands, their spellings, and the number of operands
each of them takes. An operator is read from its symbol or its code, without regard to case and to
blanks around it.
-/

namespace FilterLogic

/-- An operator of a filter. The order of the constructors is the order of declaration. -/
inductive Operator where
  | equals
  | notEquals
  | greaterThan
  | greaterThanOrEqual
  | lessThan
  | lessThanOrEqual
  | like
  | notLike
  | isIn
  | notIn
  | isNull
  | isNotNull
  | between
  | notBetween
  deriving DecidableEq, Repr

/-- How many operands an operator takes. -/
inductive Cardinality where
  | none
  | single
  | list
  | range
  deriving DecidableEq, Repr

namespace Cardinality

/-- What an operator requires, as a message puts it. -/
def requirement : Cardinality → String
  | .none => "no value"
  | .single => "a single value"
  | .list => "a non-empty list of values"
  | .range => "exactly 2 values"

/-- Whether a value has the shape for a number of operands. A single operand is neither null nor
an array. -/
def admits : Cardinality → Json.Value → Bool
  | .none, .null => true
  | .none, _ => false
  | .single, .null => false
  | .single, .array _ => false
  | .single, _ => true
  | .list, .array items => !items.isEmpty
  | .list, _ => false
  | .range, .array items => items.length == 2
  | .range, _ => false

end Cardinality

namespace Operator

/-- All operators in order of declaration. -/
def all : List Operator :=
  [.equals, .notEquals, .greaterThan, .greaterThanOrEqual, .lessThan, .lessThanOrEqual, .like,
    .notLike, .isIn, .notIn, .isNull, .isNotNull, .between, .notBetween]

theorem mem_all (op : Operator) : op ∈ all := by cases op <;> decide

/-- The symbol by which an operator is shown. -/
def symbol : Operator → String
  | .equals => "="
  | .notEquals => "!="
  | .greaterThan => ">"
  | .greaterThanOrEqual => ">="
  | .lessThan => "<"
  | .lessThanOrEqual => "<="
  | .like => "LIKE"
  | .notLike => "NOT LIKE"
  | .isIn => "IN"
  | .notIn => "NOT IN"
  | .isNull => "IS NULL"
  | .isNotNull => "IS NOT NULL"
  | .between => "BETWEEN"
  | .notBetween => "NOT BETWEEN"

/-- The code of an operator, a single word. -/
def code : Operator → String
  | .equals => "EQ"
  | .notEquals => "NE"
  | .greaterThan => "GT"
  | .greaterThanOrEqual => "GTE"
  | .lessThan => "LT"
  | .lessThanOrEqual => "LTE"
  | .like => "LIKE"
  | .notLike => "NOT_LIKE"
  | .isIn => "IN"
  | .notIn => "NOT_IN"
  | .isNull => "IS_NULL"
  | .isNotNull => "IS_NOT_NULL"
  | .between => "BETWEEN"
  | .notBetween => "NOT_BETWEEN"

/-- The number of operands. -/
def cardinality : Operator → Cardinality
  | .isNull | .isNotNull => .none
  | .isIn | .notIn => .list
  | .between | .notBetween => .range
  | _ => .single

/-- Whether an operator takes an operand at all. -/
def requiresValue : Operator → Bool
  | .isNull | .isNotNull => false
  | _ => true

/-- Whether an operator takes several operands: a list or a range. -/
def supportsMultipleValues : Operator → Bool
  | .isIn | .notIn | .between | .notBetween => true
  | _ => false

/-- The form in which operator texts are compared. -/
def normalize (text : String) : String := Text.upper (Text.trim text)

/-- The operator whose symbol or code a text is. -/
def parse? (text : String) : Option Operator :=
  let wanted := normalize text
  all.find? fun op => op.symbol == wanted || op.code == wanted

/-- The operators of text properties. -/
def text : List Operator :=
  [.equals, .notEquals, .like, .notLike, .isIn, .notIn, .isNull, .isNotNull]

/-- The operators of numeric properties. -/
def numeric : List Operator :=
  [.equals, .notEquals, .greaterThan, .greaterThanOrEqual, .lessThan, .lessThanOrEqual, .between,
    .notBetween, .isIn, .notIn, .isNull, .isNotNull]

/-- The operators of boolean properties. -/
def boolean : List Operator := [.equals, .notEquals, .isNull, .isNotNull]

/-- The members of a list in order of declaration and without repetition. -/
def sort (ops : List Operator) : List Operator := all.filter (ops.contains ·)

@[simp] theorem mem_sort {ops : List Operator} {op : Operator} : op ∈ sort ops ↔ op ∈ ops := by
  simp [sort, mem_all]

theorem sort_sublist (ops : List Operator) : (sort ops).Sublist all := List.filter_sublist

end Operator

end FilterLogic
