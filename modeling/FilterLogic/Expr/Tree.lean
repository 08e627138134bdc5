/-!
# Expression trees

The combination of filters that an expression denotes, with names of filters at the leaves. The
printed form puts parentheses around every binary connective, so that it shows the whole structure.
-/

namespace FilterLogic.Expr

/-- A boolean combination of named filters. -/
inductive Tree where
  | leaf (name : String)
  | not (operand : Tree)
  | and (left right : Tree)
  | or (left right : Tree)
  deriving DecidableEq, Repr

namespace Tree

/-- The printed form of a tree. -/
def display : Tree → String
  | .leaf name => name
  | .not t => "!" ++ t.display
  | .and l r => "(" ++ l.display ++ " & " ++ r.display ++ ")"
  | .or l r => "(" ++ l.display ++ " | " ++ r.display ++ ")"

/-- The names at the leaves from left to right, with repetitions. -/
def leaves : Tree → List String
  | .leaf name => [name]
  | .not t => t.leaves
  | .and l r => l.leaves ++ r.leaves
  | .or l r => l.leaves ++ r.leaves

/-- The members of a list that no earlier member equals. -/
def firstOccurrences (names : List String) : List String :=
  names.foldl (fun seen name => if seen.contains name then seen else seen ++ [name]) []

/-- The names at the leaves in order of first appearance. -/
def identifiers (t : Tree) : List String := firstOccurrences t.leaves

/-- The number of leaves and connectives. -/
def nodeCount : Tree → Nat
  | .leaf _ => 1
  | .not t => t.nodeCount + 1
  | .and l r => l.nodeCount + r.nodeCount + 1
  | .or l r => l.nodeCount + r.nodeCount + 1

/-- The number of nodes on the longest path from the root to a leaf. -/
def depth : Tree → Nat
  | .leaf _ => 1
  | .not t => t.depth + 1
  | .and l r => max l.depth r.depth + 1
  | .or l r => max l.depth r.depth + 1

end Tree

end FilterLogic.Expr
