import FilterLogic.Condition
import FilterLogic.Json.Printer

/-!
# Conditions as text

A condition that only shows how it was made, with the text of every call that makes one.
-/

namespace FilterLogic

/-- A kind and a text that shows how a condition was combined. -/
structure Trace where
  kind : String
  text : String
  deriving DecidableEq, Repr

namespace Trace

/-- The kind of traces that were not given another. -/
def defaultKind : String := "trace"

instance : Condition Trace where
  kind c := c.kind
  both l r := ⟨l.kind, "(" ++ l.text ++ " AND " ++ r.text ++ ")"⟩
  either l r := ⟨l.kind, "(" ++ l.text ++ " OR " ++ r.text ++ ")"⟩
  negate c := ⟨c.kind, "NOT(" ++ c.text ++ ")"⟩

instance : LawfulCondition Trace where
  kind_both _ _ := rfl
  kind_either _ _ := rfl
  kind_negate _ := rfl

/-- Makes the trace of a filter: the name of the property, the operator, and its value if the
operator takes one. -/
def build : Builder Trace := fun property op value =>
  let subject := property.name ++ " " ++ op.symbol
  .ok ⟨defaultKind, if op.requiresValue then subject ++ " " ++ value.compact else subject⟩

/-- The text of a call. -/
def describe : Call Trace → String
  | .build property op value =>
    "build(" ++ property.display ++ "," ++ op.symbol ++ "," ++ value.compact ++ ")"
  | .and l r => "and(" ++ l.text ++ "," ++ r.text ++ ")"
  | .or l r => "or(" ++ l.text ++ "," ++ r.text ++ ")"
  | .not c => "not(" ++ c.text ++ ")"

end Trace

end FilterLogic
