import FilterLogic.Context
import FilterLogic.Expr.Parser

/-!
# Resolving requests

A tree is turned into one condition from the leaves up: the conditions of a left operand come
before those of the right one, and both before their combination. To resolve a request is to parse
its expression, then to build the context of its filters, then to turn the tree into a condition.
-/

namespace FilterLogic

namespace Expr.Tree

variable {C : Type} [Condition C]

/-- The condition that a tree denotes in a context. -/
def generate (ctx : Context C) : Tree → Logged (Call C) C
  | .leaf name => Logged.lift (ctx.resolve name)
  | .not t => do
    let c ← generate ctx t
    Logged.after (.not c) (.ok (Condition.negate c))
  | .and l r => do
    let a ← generate ctx l
    let b ← generate ctx r
    Logged.after (.and a b) (Condition.conjoin a b)
  | .or l r => do
    let a ← generate ctx l
    let b ← generate ctx r
    Logged.after (.or a b) (Condition.disjoin a b)

end Expr.Tree

namespace Request

variable {C : Type} [Condition C]

/-- The expression of a request as a tree. -/
def tree (request : Request) : Except Error Expr.Tree :=
  (Expr.parse request.combineWith).mapError .expression

/-- The condition that a request denotes for a builder. -/
def resolve (builder : Builder C) (request : Request) : Logged (Call C) C := do
  let tree ← Logged.lift request.tree
  let ctx ← Context.build builder request
  tree.generate ctx

end Request

end FilterLogic
