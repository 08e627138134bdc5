import FilterLogic.Condition.Sql
import FilterLogic.Expr.Parser
import FilterLogic.Json.Printer

/-!
# Reports

How tokens, expressions, matching records and SQL fragments are shown: as indented JSON, or as text
with or without colours. Colours are escape sequences around parts of the text; with and without
them a line is put together separately.
-/

namespace FilterLogic.Report

open Json (Value)

/-- How a part of a text is set off. -/
inductive Style where
  | dimmed
  | green
  | yellow
  | cyan
  deriving DecidableEq, Repr

namespace Style

/-- The escape sequence with a number. -/
def sequence (code : Nat) : String := "\x1b[" ++ toString code ++ "m"

/-- The number that turns a style on. -/
def code : Style → Nat
  | .dimmed => 2
  | .green => 32
  | .yellow => 33
  | .cyan => 36

/-- The number that turns a style off: all attributes, or the colour only. -/
def resetCode : Style → Nat
  | .dimmed => 0
  | _ => 39

/-- A text in a style. -/
def paint (style : Style) (text : String) : String :=
  sequence style.code ++ text ++ sequence style.resetCode

end Style

/-- A number as JSON. -/
def count (n : Nat) : Value := .number (.integer n)

/-- A number right-aligned in four columns. -/
def column (n : Nat) : String :=
  let digits := toString n
  String.ofList (List.replicate (4 - digits.length) ' ') ++ digits

/-- A word in colours. -/
def paintedWord (w : Expr.Word) : String :=
  match w with
  | .identifier _ => Style.green.paint w.display
  | _ => Style.cyan.paint w.display

/-- One line for a token: its position and its word. -/
def tokenLine (colors : Bool) (t : Expr.Token) : String :=
  let position := column t.position
  if colors then Style.dimmed.paint position ++ "  " ++ paintedWord t.word ++ "\n"
  else position ++ "  " ++ t.word.display ++ "\n"

/-- Tokens as text, one a line. -/
def tokensText (colors : Bool) (tokens : List Expr.Token) : String :=
  String.join (tokens.map (tokenLine colors))

/-- A token as JSON. -/
def tokenValue (t : Expr.Token) : Value :=
  .object
    [("kind", .text t.word.label), ("text", .text t.word.text), ("position", count t.position)]

/-- Tokens as JSON. -/
def tokensJson (tokens : List Expr.Token) : String :=
  (Value.array (tokens.map tokenValue)).pretty

/-- An expression as text: its printed form and its identifiers. -/
def expressionText (colors : Bool) (t : Expr.Tree) : String :=
  let label := if colors then Style.dimmed.paint "keys:" else "keys:"
  t.display ++ "\n" ++ label ++ " " ++ ", ".intercalate t.identifiers ++ "\n"

/-- An expression as JSON. -/
def expressionJson (t : Expr.Tree) : String :=
  (Value.object
    [("expression", .text t.display), ("identifiers", .array (t.identifiers.map .text)),
      ("nodes", count t.nodeCount)]).pretty

/-- The line that counts the matching records. -/
def summary (matched total : Nat) : String :=
  toString matched ++ " of " ++ toString total ++ " records matched"

/-- Matching records as text, one a line, with the count of all records at the end. -/
def recordsText (colors : Bool) (matched : List Value) (total : Nat) : String :=
  let lines := String.join (matched.map fun record => record.compact ++ "\n")
  let count := summary matched.length total
  if colors then lines ++ Style.dimmed.paint count ++ "\n" else lines ++ count ++ "\n"

/-- Matching records as JSON. -/
def recordsJson (matched : List Value) (total : Nat) : String :=
  (Value.object
    [("matched", count matched.length), ("total", count total), ("records", .array matched)]).pretty

/-- One line for a parameter: its number and its value. -/
def parameterLine (colors : Bool) (index : Nat) (value : Value) : String :=
  let label := "  " ++ toString index ++ ":"
  if colors then Style.dimmed.paint label ++ " " ++ Style.yellow.paint value.compact ++ "\n"
  else label ++ " " ++ value.compact ++ "\n"

/-- The lines of parameters whose first one has a given number. -/
def parameterLines (colors : Bool) : Nat → List Value → List String
  | _, [] => []
  | index, value :: rest =>
    parameterLine colors index value :: parameterLines colors (index + 1) rest

/-- A fragment as text, with its parameters below. -/
def sqlText (colors : Bool) (f : Sql.Fragment) : String :=
  f.toSql ++ "\n" ++ String.join (parameterLines colors 1 f.parameters)

/-- A fragment as JSON. -/
def sqlJson (f : Sql.Fragment) : String :=
  (Value.object
    [("dialect", .text f.dialect.name), ("sql", .text f.toSql),
      ("params", .array f.parameters)]).pretty

end FilterLogic.Report
