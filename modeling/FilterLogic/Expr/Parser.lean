import FilterLogic.Expr.Lexer
import FilterLogic.Expr.Postfix

/-!
# Parsing expressions

The text of an expression is read into tokens, brought into postfix order and folded into a tree.
NOT binds most tightly, then AND, then OR; AND and OR group to the left.
-/

namespace FilterLogic.Expr

/-- The tree of a sequence of tokens. -/
def Tree.ofTokens (tokens : List Token) : Except SyntaxError Tree := do
  buildTree (← toPostfix tokens)

/-- The tree that a text denotes. -/
def parse (text : String) : Except SyntaxError Tree := do
  Tree.ofTokens (← tokenize text)

end FilterLogic.Expr
