import FilterLogic.Request.Raw
import FilterLogic.Resolver

/-!
# Registries

A registry knows properties by their names. Requests that name properties and operators are
resolved against it: the expression is checked first, then the filters in ascending order of key.
-/

namespace FilterLogic

/-- Properties by name. Every property stands under its own name. -/
structure Registry where
  properties : KeyMap Property
  named : ∀ e ∈ properties.entries, e.2.name = e.1

namespace Registry

/-- The registry without properties. -/
def empty : Registry := ⟨KeyMap.empty, by simp [KeyMap.empty]⟩

/-- Adds a property, in place of one of the same name. -/
def insert (r : Registry) (p : Property) : Registry :=
  ⟨r.properties.insert p.name p, fun e he => by
    rcases AscendingKeys.mem_insert he with rfl | he
    · rfl
    · exact r.named e he⟩

/-- The registry of some properties. Of several with one name the last one counts. -/
def ofList (properties : List Property) : Registry := properties.foldl insert empty

/-- The names in ascending order. -/
def names (r : Registry) : List String := r.properties.keys

/-- The number of properties. -/
def size (r : Registry) : Nat := r.properties.size

/-- Whether there is no property. -/
def isEmpty (r : Registry) : Bool := r.properties.isEmpty

/-- The property of a name. -/
def get? (r : Registry) (name : String) : Option Property := r.properties.get? name

/-- Whether there is a property of a name. -/
def contains (r : Registry) (name : String) : Bool := r.properties.contains name

/-- The property of a name, which must be known. -/
def require (r : Registry) (name : String) : Except Error Property :=
  match r.get? name with
  | some p => .ok p
  | none => .error (.unknownProperty name (Text.suggest? name r.names))

/-- Looks up the property and then the operator of a filter. -/
def resolveFilter (r : Registry) (raw : RawFilter) : Except Error Filter := do
  let property ← r.require raw.property
  let operator ← Operator.require raw.operator
  return ⟨property, operator, raw.value⟩

/-- Looks up the names of filters one after the other. An error carries the key. -/
def resolveFilters (r : Registry) :
    List (String × RawFilter) → Except Error (List (String × Filter))
  | [] => .ok []
  | (key, raw) :: rest => do
    let f ← (r.resolveFilter raw).mapError (.filter key)
    return (key, f) :: (← resolveFilters r rest)

/-- Looks up the names in a request, after its expression was checked. -/
def resolveRequest (r : Registry) (raw : RawRequest) : Except Error Request := do
  let _ ← (Expr.parse raw.combineWith).mapError Error.expression
  let filters ← r.resolveFilters raw.filters.entries
  return Request.ofList filters raw.combineWith

end Registry

end FilterLogic
