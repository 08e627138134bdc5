import FilterLogic.Json.Value

/-!
# Records in JSON

A record with known fields is written as an object or as the array of its field values. In an
object a known field stands once at most and other fields are passed over, whatever they hold. One
of several named choices is written as its name, or as an object with null under the name.
-/

namespace FilterLogic.Json.Source

/-- The text of a string. -/
def text? : Source → Option String
  | .text pieces => Piece.text? pieces
  | _ => none

/-- The members of an object with their names as text. -/
def named? : List (List Piece × Source) → Option (List (String × Source))
  | [] => some []
  | (name, item) :: members => do return (← Piece.text? name, item) :: (← named? members)

/-- The field of a name among members: there is none, or one, or it is repeated, which is no
result. -/
def once? (name : String) (members : List (String × Source)) : Option (Option Source) :=
  match members.filter (·.1 == name) with
  | [] => some none
  | [(_, item)] => some (some item)
  | _ => none

/-- The field of a name among members, which must be there once. -/
def exactlyOnce? (name : String) (members : List (String × Source)) : Option Source := do
  (← once? name members)

/-- The name of a choice. -/
def choice? : Source → Option String
  | .text pieces => Piece.text? pieces
  | .object [(name, .null)] => Piece.text? name
  | _ => none

end FilterLogic.Json.Source
