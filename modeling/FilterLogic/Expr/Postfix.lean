import FilterLogic.Expr.SyntaxError
import FilterLogic.Expr.Token
import FilterLogic.Expr.Tree

/-!
# Postfix order

An expression is compiled by way of its postfix order, in which every connective follows its
operands. `toPostfix` brings tokens into that order with a stack of connectives and open
parentheses that wait for their right ends; `buildTree` folds the order into a tree. Both stop at
the first fault.
-/

namespace FilterLogic.Expr

/-- An entry of a postfix sequence. -/
inductive Postfix where
  | operand (name : String)
  | connective (connective : Connective)
  deriving DecidableEq, Repr

/-- An entry that waits on the stack: a connective, or an open parenthesis with its position. -/
inductive Pending where
  | connective (connective : Connective)
  | group (position : Nat)
  deriving DecidableEq, Repr

namespace Postfix

/-- How far the tokens have been brought into postfix order. -/
structure State where
  /-- The entries found so far, the last one first. -/
  output : List Postfix
  /-- What waits for its right end, the innermost first. -/
  stack : List Pending
  /-- Whether the token before is a NOT. -/
  afterNot : Bool

/-- The state before the first token. -/
def State.start : State := ⟨[], [], false⟩

/-- Moves connectives that bind at least as tightly as a given one from the stack to the output. -/
def release (limit : Nat) : List Pending → List Postfix → List Postfix × List Pending
  | .connective c :: stack, output =>
    if c.precedence < limit then (output, .connective c :: stack)
    else release limit stack (.connective c :: output)
  | stack, output => (output, stack)

/-- Moves connectives to the output down to the innermost open parenthesis, which is removed. There
is no result if no parenthesis is open. -/
def close? : List Pending → List Postfix → Option (List Postfix × List Pending)
  | [], _ => none
  | .connective c :: stack, output => close? stack (.connective c :: output)
  | .group _ :: stack, output => some (output, stack)

/-- Moves all waiting connectives to the output. A parenthesis that is still open is a fault. -/
def drain : List Pending → List Postfix → Except SyntaxError (List Postfix)
  | [], output => .ok output
  | .connective c :: stack, output => drain stack (.connective c :: output)
  | .group position :: _, _ => .error (.mismatchedParentheses position)

/-- Whether a word can begin an operand. -/
def beginsOperand : Word → Bool
  | .identifier _ | .not | .opening => true
  | _ => false

/-- Takes a binary connective: those that bind at least as tightly come before it. -/
def State.binary (s : State) (c : Connective) : State :=
  let (output, stack) := release c.precedence s.stack s.output
  ⟨output, .connective c :: stack, false⟩

/-- Takes one token. A NOT needs its operand directly to its right. -/
def State.step (s : State) (t : Token) : Except SyntaxError State :=
  if s.afterNot && !beginsOperand t.word then .error (.missingOperand .not)
  else
    match t.word with
    | .identifier name => .ok ⟨.operand name :: s.output, s.stack, false⟩
    | .not => .ok ⟨s.output, .connective .not :: s.stack, true⟩
    | .and => .ok (s.binary .and)
    | .or => .ok (s.binary .or)
    | .opening => .ok ⟨s.output, .group t.position :: s.stack, false⟩
    | .closing =>
      match close? s.stack s.output with
      | some (output, stack) => .ok ⟨output, stack, false⟩
      | none => .error (.mismatchedParentheses t.position)

/-- The entries in order, when the tokens are at an end. -/
def State.finish (s : State) : Except SyntaxError (List Postfix) :=
  if s.afterNot then .error (.missingOperand .not)
  else (drain s.stack s.output).map List.reverse

end Postfix

/-- Brings tokens into postfix order. -/
def toPostfix (tokens : List Token) : Except SyntaxError (List Postfix) := do
  (← tokens.foldlM Postfix.State.step .start).finish

/-- The greatest depth of a tree that is built. A lone identifier has depth one. -/
def maxDepth : Nat := 256

/-- A tree with its depth. -/
structure Subtree where
  tree : Tree
  depth : Nat

namespace Subtree

/-- Puts a tree on a stack of trees, unless it is too deep. -/
def push (node : Subtree) (stack : List Subtree) : Except SyntaxError (List Subtree) :=
  if maxDepth < node.depth then .error (.tooDeep maxDepth) else .ok (node :: stack)

/-- Takes one postfix entry: an operand is put on the stack, a connective is put in place of its
operands, of which the right one lies on top. -/
def step (stack : List Subtree) (entry : Postfix) : Except SyntaxError (List Subtree) :=
  match entry, stack with
  | .operand name, stack => push ⟨.leaf name, 1⟩ stack
  | .connective .not, x :: stack => push ⟨.not x.tree, x.depth + 1⟩ stack
  | .connective .and, r :: l :: stack => push ⟨.and l.tree r.tree, max l.depth r.depth + 1⟩ stack
  | .connective .or, r :: l :: stack => push ⟨.or l.tree r.tree, max l.depth r.depth + 1⟩ stack
  | .connective c, _ => .error (.missingOperand c)

/-- The only tree on a stack. -/
def single : List Subtree → Except SyntaxError Tree
  | [root] => .ok root.tree
  | stack => .error (.malformed stack.length)

end Subtree

/-- Folds a postfix sequence into one tree. -/
def buildTree (entries : List Postfix) : Except SyntaxError Tree := do
  Subtree.single (← entries.foldlM Subtree.step [])

end FilterLogic.Expr
