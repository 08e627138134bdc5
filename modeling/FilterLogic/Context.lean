import FilterLogic.Condition
import FilterLogic.Request
import FilterLogic.Text.Suggestion

/-!
# Contexts

A context holds the conditions that the leaves of an expression stand for. Building one for a
request visits the filters in ascending order of key and stops at the first that is not valid or
cannot be built; the error carries its key.
-/

namespace FilterLogic

/-- Conditions by filter key. -/
abbrev Context (C : Type) := KeyMap C

/-- A write to a context: of a condition, or of a filter whose condition is built first. -/
inductive Write (C : Type) where
  | insert (key : String) (condition : C)
  | insertWith (builder : Builder C) (key : String) (f : Filter)

namespace Filter

/-- Validates a filter and builds its condition. The builder is not called for a filter that is
not valid. -/
def build {C : Type} (f : Filter) (builder : Builder C) : Logged (Call C) C := do
  Logged.lift f.validate
  Logged.after (.build f.property f.operator f.value) (builder f.property f.operator f.value)

end Filter

namespace Context

variable {C : Type}

/-- Writes the condition of a filter under a key. An error carries the key. -/
def insertWith (ctx : Context C) (builder : Builder C) (key : String) (f : Filter) :
    Logged (Call C) (Context C) := do
  let condition ← (f.build builder).mapError (.filter key)
  return ctx.insert key condition

/-- The context after a write, and how the write ended. A write that fails leaves the context as it
was. -/
def perform (ctx : Context C) : Write C → Context C × Logged (Call C) Unit
  | .insert key condition => (ctx.insert key condition, return ())
  | .insertWith builder key f =>
    let run := ctx.insertWith builder key f
    match run.outcome with
    | .ok after => (after, ⟨run.calls, .ok ()⟩)
    | .error e => (ctx, ⟨run.calls, .error e⟩)

/-- The context with the conditions of some filters written one after the other. -/
def insertAll (ctx : Context C) (builder : Builder C) :
    List (String × Filter) → Logged (Call C) (Context C)
  | [] => return ctx
  | (key, f) :: rest => do
    let ctx ← ctx.insertWith builder key f
    insertAll ctx builder rest

/-- The context for the filters of a request. -/
def build (builder : Builder C) (request : Request) : Logged (Call C) (Context C) :=
  insertAll KeyMap.empty builder request.filters.entries

/-- The condition under a key, which must be present. Otherwise the keys are visited in some order
for the one to suggest. -/
def resolveVisiting (ctx : Context C) (visited : List String) (key : String) : Except Error C :=
  match ctx.get? key with
  | some condition => .ok condition
  | none => .error (.unknownFilterKey key (Text.suggest? key visited))

/-- The condition under a key, with the keys visited in ascending order. -/
def resolve (ctx : Context C) (key : String) : Except Error C := ctx.resolveVisiting ctx.keys key

end Context

end FilterLogic
