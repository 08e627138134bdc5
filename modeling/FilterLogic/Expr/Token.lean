/-!
# Tokens of filter expressions

The words of the expression language: identifiers, the three connectives and parentheses. A token
is a word with the position of its first character.
-/

namespace FilterLogic.Expr

/-- A word of the expression language. -/
inductive Word where
  | identifier (name : String)
  | not
  | and
  | or
  | opening
  | closing
  deriving DecidableEq, Repr

namespace Word

/-- A word as it is written. -/
def text : Word → String
  | .identifier name => name
  | .not => "!"
  | .and => "&"
  | .or => "|"
  | .opening => "("
  | .closing => ")"

/-- The class of a word. -/
def label : Word → String
  | .identifier _ => "IDENT"
  | .not => "NOT"
  | .and => "AND"
  | .or => "OR"
  | .opening => "LPAREN"
  | .closing => "RPAREN"

/-- The class of a word, with the name of an identifier. -/
def display : Word → String
  | .identifier name => "IDENT(" ++ name ++ ")"
  | word => word.label

/-- Whether a word is an identifier. -/
def isIdentifier : Word → Bool
  | .identifier _ => true
  | _ => false

end Word

/-- A word and the position of its first character. -/
structure Token where
  word : Word
  position : Nat
  deriving DecidableEq, Repr

end FilterLogic.Expr
