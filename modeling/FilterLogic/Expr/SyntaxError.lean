/-!
# Faults of filter expressions

The connectives of an expression and the ways in which a text fails to be one. Positions count
characters from zero.
-/

namespace FilterLogic

/-- A boolean connective. -/
inductive Connective where
  | not
  | and
  | or
  deriving DecidableEq, Repr

namespace Connective

/-- The word for a connective. -/
def name : Connective → String
  | .not => "NOT"
  | .and => "AND"
  | .or => "OR"

/-- How tightly a connective binds. -/
def precedence : Connective → Nat
  | .not => 3
  | .and => 2
  | .or => 1

end Connective

/-- Why a text is no filter expression. -/
inductive SyntaxError where
  | empty
  | invalidCharacter (character : Char) (position : Nat)
  | mismatchedParentheses (position : Nat)
  | missingOperand (connective : Connective)
  | malformed (roots : Nat)
  | tooDeep (limit : Nat)
  deriving DecidableEq

/-- The message for a fault. -/
def SyntaxError.message : SyntaxError → String
  | .empty => "filter expression is empty"
  | .invalidCharacter c position =>
    "invalid character '" ++ String.singleton c ++ "' at position " ++ toString position
  | .mismatchedParentheses position => "mismatched parentheses at position " ++ toString position
  | .missingOperand connective => connective.name ++ " operator is missing an operand"
  | .malformed roots =>
    "malformed expression: expected a single expression but found " ++ toString roots
  | .tooDeep limit => "expression is nested deeper than " ++ toString limit ++ " levels"

end FilterLogic
