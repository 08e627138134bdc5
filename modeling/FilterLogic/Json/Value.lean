import FilterLogic.Json.Source
import FilterLogic.KeyMap

/-!
# JSON values

Values as the filters see them. Objects read from text hold their fields in ascending order of
name, and of several members with one name the last one counts.
-/

namespace FilterLogic.Json

/-- A JSON value. -/
inductive Value where
  | null
  | bool (value : Bool)
  | number (value : Number)
  | text (value : String)
  | array (items : List Value)
  | object (fields : List (String × Value))

instance : Inhabited Value := ⟨.null⟩

/-- The kinds of values that a message tells apart. -/
inductive Kind where
  | null
  | boolean
  | number
  | integer
  | text
  | array
  | object
  deriving DecidableEq, Repr

/-- The word for a kind. -/
def Kind.name : Kind → String
  | .null => "null"
  | .boolean => "boolean"
  | .number => "number"
  | .integer => "integer"
  | .text => "text"
  | .array => "array"
  | .object => "object"

namespace Value

/-- The greatest number of arrays and objects around a value in a text, the value included. -/
def depthLimit : Nat := 127

mutual

/-- The value that a text denotes, with room for a number of nested arrays and objects. -/
def ofSource (room : Nat) : Source → Option Value
  | .null => some .null
  | .bool b => some (.bool b)
  | .number n => n.value?.map .number
  | .text pieces => (Piece.text? pieces).map .text
  | .array items =>
    match room with
    | 0 => none
    | room + 1 => (ofItems room items).map .array
  | .object members =>
    match room with
    | 0 => none
    | room + 1 => (ofMembers room members).map fun fields => .object (KeyMap.ofList fields).entries

/-- The values of the items of an array. -/
def ofItems (room : Nat) : List Source → Option (List Value)
  | [] => some []
  | item :: items => do return (← ofSource room item) :: (← ofItems room items)

/-- The names and values of the members of an object. -/
def ofMembers (room : Nat) : List (List Piece × Source) → Option (List (String × Value))
  | [] => some []
  | (name, item) :: members => do
    let name ← Piece.text? name
    let value ← ofSource room item
    return (name, value) :: (← ofMembers room members)

end

/-- Reads a JSON text. -/
def parse? (s : String) : Option Value := do ofSource depthLimit (← Source.parse? s)

/-- The kind of a value. A number is an integer or a double. -/
def kind : Value → Kind
  | .null => .null
  | .bool _ => .boolean
  | .number (.integer _) => .integer
  | .number (.double _) => .number
  | .text _ => .text
  | .array _ => .array
  | .object _ => .object

/-- Whether a value is null. -/
def isNull : Value → Bool
  | .null => true
  | _ => false

/-- The field of an object. Other values have no fields. -/
def field? (name : String) : Value → Option Value
  | .object fields => AscendingKeys.find? name fields
  | _ => none

/-- The number of operands that a value supplies: none by null, the items of an array, and else
the value itself. -/
def operandCount : Value → Nat
  | .null => 0
  | .array items => items.length
  | _ => 1

end Value

end FilterLogic.Json
