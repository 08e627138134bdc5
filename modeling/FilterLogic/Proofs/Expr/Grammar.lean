import FilterLogic.Expr.Lexer
import FilterLogic.Expr.Tree

/-!
# The grammar of expressions

Which words make an expression, and the tree they denote. A disjunction is a chain of conjunctions
joined by `|`, a conjunction a chain of negations joined by `&`, a negation any number of `!` before
a primary, and a primary an identifier or a disjunction in parentheses. Chains group to the left.

## Implementation notes

A chain is derived from its last link: what stands before the last `|` is a disjunction again. That
is the repetition of the grammar with its tree folded to the left.
-/

namespace FilterLogic.Expr

/-- The kinds of phrases, from the loosest to the tightest. -/
inductive Phrase where
  | disjunction
  | conjunction
  | negation
  | primary

/-- A text that may stand as an identifier: one or more letters, digits and underscores. -/
def IsName (name : String) : Prop := name ≠ "" ∧ ∀ c ∈ name.toList, isWordChar c = true

instance (name : String) : Decidable (IsName name) :=
  decidable_of_iff (name ≠ "" ∧ name.toList.all isWordChar = true) (by rw [IsName, List.all_eq_true])

/-- The words of a phrase and the tree that the phrase denotes. -/
inductive Derives : Phrase → List Word → Tree → Prop
  | identifier {name} (hname : IsName name) : Derives .primary [.identifier name] (.leaf name)
  | group {ws t} (h : Derives .disjunction ws t) :
      Derives .primary (.opening :: (ws ++ [.closing])) t
  | primary {ws t} (h : Derives .primary ws t) : Derives .negation ws t
  | not {ws t} (h : Derives .negation ws t) : Derives .negation (.not :: ws) (.not t)
  | negation {ws t} (h : Derives .negation ws t) : Derives .conjunction ws t
  | and {ws vs l r} (hl : Derives .conjunction ws l) (hr : Derives .negation vs r) :
      Derives .conjunction (ws ++ .and :: vs) (.and l r)
  | conjunction {ws t} (h : Derives .conjunction ws t) : Derives .disjunction ws t
  | or {ws vs l r} (hl : Derives .disjunction ws l) (hr : Derives .conjunction vs r) :
      Derives .disjunction (ws ++ .or :: vs) (.or l r)

/-- Words that make a whole expression. -/
def IsExpression (ws : List Word) : Prop := ∃ t, Derives .disjunction ws t

end FilterLogic.Expr
