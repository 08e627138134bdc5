import FilterLogic.Condition
import FilterLogic.Condition.Operand

/-!
# Conditions in SQL

A condition in SQL is a sequence of segments, each literal text or the place of a parameter, beside
the list of the parameters. A value never becomes part of the text. Placeholders are numbered when a
fragment is rendered, so combining fragments is joining their segments and their parameters.
-/

namespace FilterLogic.Sql

/-- The database that a fragment is written for. -/
inductive Dialect where
  | postgres
  | sqlite
  deriving DecidableEq, Repr

namespace Dialect

/-- All dialects in order of declaration. -/
def all : List Dialect := [.postgres, .sqlite]

/-- The dialect where none is named. -/
def default : Dialect := .postgres

/-- The name of a dialect. -/
def name : Dialect → String
  | .postgres => "postgres"
  | .sqlite => "sqlite"

/-- The dialect of a name. -/
def parse? (name : String) : Option Dialect := all.find? fun d => d.name == name

/-- The kind of conditions of a dialect. -/
def kind (d : Dialect) : String := "sql/" ++ d.name

/-- The placeholder of the parameter with a number, counted from one. -/
def placeholder : Dialect → Nat → String
  | .postgres, index => "$" ++ toString index
  | .sqlite, _ => "?"

end Dialect

/-- A segment of a fragment: text, or the place of a parameter. -/
inductive Segment where
  | text (text : String)
  | placeholder
  deriving DecidableEq, Repr

/-- A boolean expression in SQL with its parameters, in order of their placeholders. -/
structure Fragment where
  dialect : Dialect
  segments : List Segment
  parameters : List Json.Value

namespace Fragment

/-- The text of segments whose first placeholder has a given number. -/
def renderSegments (dialect : Dialect) : Nat → List Segment → List Char
  | _, [] => []
  | index, .text text :: rest => text.toList ++ renderSegments dialect index rest
  | index, .placeholder :: rest =>
    (dialect.placeholder index).toList ++ renderSegments dialect (index + 1) rest

/-- The text of a fragment. -/
def toSql (f : Fragment) : String := String.ofList (renderSegments f.dialect 1 f.segments)

/-- Two fragments with a connective between them, in parentheses. -/
def join (connective : String) (l r : Fragment) : Fragment :=
  ⟨l.dialect, .text "(" :: l.segments ++ .text connective :: r.segments ++ [.text ")"],
    l.parameters ++ r.parameters⟩

instance : Condition Fragment where
  kind f := f.dialect.kind
  both := join " AND "
  either := join " OR "
  negate f := ⟨f.dialect, .text "NOT (" :: f.segments ++ [.text ")"], f.parameters⟩

instance : LawfulCondition Fragment where
  kind_both _ _ := rfl
  kind_either _ _ := rfl
  kind_negate _ := rfl

end Fragment

/-- A name as a quoted identifier; a quote inside is written twice. -/
def quoteIdentifier (name : String) : String :=
  String.ofList ('"' :: name.toList.flatMap (fun c => if c = '"' then ['"', '"'] else [c]) ++ ['"'])

/-- How a comparison is written. -/
def comparisonSymbol : Operator → String
  | .notEquals => "<>"
  | op => op.symbol

/-- Some number of placeholders with commas between them. -/
def placeholderList : Nat → List Segment
  | 0 => []
  | 1 => [.placeholder]
  | count + 2 => .placeholder :: .text ", " :: placeholderList (count + 1)

/-- The segments after the column and the parameters, for an operator and its operand. -/
def operatorPart (op : Operator) (value : Json.Value) :
    Except Error (List Segment × List Json.Value) :=
  match op with
  | .equals | .notEquals | .greaterThan | .greaterThanOrEqual | .lessThan | .lessThanOrEqual
  | .like | .notLike =>
    .ok ([.text (" " ++ comparisonSymbol op ++ " "), .placeholder], [value])
  | .isIn | .notIn =>
    let items := Operand.candidates value
    .ok (.text (" " ++ op.symbol ++ " (") :: placeholderList items.length ++ [.text ")"], items)
  | .isNull | .isNotNull => .ok ([.text (" " ++ op.symbol)], [])
  | .between | .notBetween => do
    let (low, high) ← Operand.bounds op value
    return ([.text (" " ++ op.symbol ++ " "), .placeholder, .text " AND ", .placeholder],
      [low, high])

/-- Makes the fragment of a filter. -/
def Fragment.build (dialect : Dialect) : Builder Fragment := fun property op value => do
  let (segments, parameters) ← operatorPart op value
  return ⟨dialect, .text (quoteIdentifier property.name) :: segments, parameters⟩

end FilterLogic.Sql
