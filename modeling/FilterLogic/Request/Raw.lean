import FilterLogic.Json.Printer
import FilterLogic.Json.Record
import FilterLogic.KeyMap

/-!
# Requests as submitted

A request in JSON refers to properties and operators by name. Reading it checks the form only; the
names are looked up when the request is resolved against a registry.
-/

namespace FilterLogic

/-- A filter that names its property and its operator. -/
structure RawFilter where
  property : String
  operator : String
  value : Json.Value

/-- Filters by key with names to look up, and the expression that combines them. -/
structure RawRequest where
  filters : KeyMap RawFilter
  combineWith : String

namespace RawFilter

open Json (Source Value)

/-- The filter with the given fields, with room for nested values in the last one. A missing value
is null. -/
def ofFields (room : Nat) (property operator : Source) (value : Option Source) :
    Option RawFilter := do
  let property ← property.text?
  let operator ← operator.text?
  let value ←
    match value with
    | some value => Value.ofSource room value
    | none => some .null
  return ⟨property, operator, value⟩

/-- The filter that a JSON text denotes, with room for nested values. -/
def ofSource : Nat → Source → Option RawFilter
  | room + 1, .array [property, operator] => ofFields room property operator none
  | room + 1, .array [property, operator, value] => ofFields room property operator (some value)
  | room + 1, .object members => do
    let members ← Source.named? members
    let property ← Source.exactlyOnce? "ref" members
    let operator ← Source.exactlyOnce? "operator" members
    let value ← Source.once? "value" members
    ofFields room property operator value
  | _, _ => none

/-- Reads a filter from JSON text. -/
def parse? (text : String) : Option RawFilter := do
  ofSource Value.depthLimit (← Source.parse? text)

/-- A filter as a JSON object. -/
def toValue (f : RawFilter) : Value :=
  .object [("ref", .text f.property), ("operator", .text f.operator), ("value", f.value)]

end RawFilter

namespace RawRequest

open Json (Source Value)

/-- The filters under the names of an object's members. -/
def filtersOf (room : Nat) : List (String × Source) → Option (List (String × RawFilter))
  | [] => some []
  | (key, item) :: members => do
    return (key, ← RawFilter.ofSource room item) :: (← filtersOf room members)

/-- The request with the given fields, with room for nested values. Of several filters for one key
the last one counts. -/
def ofFields : Nat → Source → Source → Option RawRequest
  | room + 1, .object members, combineWith => do
    let filters ← filtersOf room (← Source.named? members)
    return ⟨KeyMap.ofList filters, ← combineWith.text?⟩
  | _, _, _ => none

/-- The request that a JSON text denotes, with room for nested values. -/
def ofSource : Nat → Source → Option RawRequest
  | room + 1, .array [filters, combineWith] => ofFields room filters combineWith
  | room + 1, .object members => do
    let members ← Source.named? members
    ofFields room (← Source.exactlyOnce? "filters" members)
      (← Source.exactlyOnce? "combineWith" members)
  | _, _ => none

/-- Reads a request from JSON text. -/
def parse? (text : String) : Option RawRequest := do
  ofSource Value.depthLimit (← Source.parse? text)

/-- A request as a JSON object. -/
def toValue (r : RawRequest) : Value :=
  .object
    [("filters", .object (r.filters.entries.map fun (key, f) => (key, f.toValue))),
      ("combineWith", .text r.combineWith)]

end RawRequest

end FilterLogic
