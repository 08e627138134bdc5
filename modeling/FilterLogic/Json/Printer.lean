import FilterLogic.Json.Value

/-!
# Writing JSON

Values are written compactly, without white space, or indented by two spaces a level. In strings
only the quote, the backslash and the control characters below the space are escaped.
-/

namespace FilterLogic.Json

/-- A hexadecimal digit in lower case. -/
def hexDigit (n : Nat) : Char := Nat.digitChar (n % 16)

/-- A character inside a string literal. -/
def escapeChar (c : Char) : List Char :=
  match c with
  | '"' => ['\\', '"']
  | '\\' => ['\\', '\\']
  | '\x08' => ['\\', 'b']
  | '\t' => ['\\', 't']
  | '\n' => ['\\', 'n']
  | '\x0c' => ['\\', 'f']
  | '\r' => ['\\', 'r']
  | c =>
    if c.toNat < 0x20 then ['\\', 'u', '0', '0', hexDigit (c.toNat / 16), hexDigit c.toNat]
    else [c]

/-- A string literal. -/
def quote (s : String) : List Char := '"' :: s.toList.flatMap escapeChar ++ ['"']

/-- Joins lists by a separator. -/
def joinChars (separator : List Char) : List (List Char) → List Char
  | [] => []
  | [part] => part
  | part :: parts => part ++ separator ++ joinChars separator parts

namespace Value

mutual

/-- A value without white space. -/
def compactChars : Value → List Char
  | .null => "null".toList
  | .bool true => "true".toList
  | .bool false => "false".toList
  | .number n => n.render
  | .text s => quote s
  | .array items => '[' :: joinChars [','] (compactItems items) ++ [']']
  | .object fields => '{' :: joinChars [','] (compactFields fields) ++ ['}']

/-- The items of an array. -/
def compactItems : List Value → List (List Char)
  | [] => []
  | item :: items => compactChars item :: compactItems items

/-- The fields of an object, each with its name. -/
def compactFields : List (String × Value) → List (List Char)
  | [] => []
  | (name, value) :: fields => (quote name ++ ':' :: compactChars value) :: compactFields fields

end

/-- The compact text of a value. -/
def compact (v : Value) : String := String.ofList v.compactChars

/-- A line break and the indentation of a level. -/
def newLine (level : Nat) : List Char := '\n' :: List.replicate (2 * level) ' '

/-- A bracketed list with one part a line, or nothing between the brackets. -/
def bracketed (level : Nat) (opening closing : Char) (parts : List (List Char)) : List Char :=
  if parts.isEmpty then [opening, closing]
  else
    opening :: newLine (level + 1) ++ joinChars (',' :: newLine (level + 1)) parts ++
      newLine level ++ [closing]

mutual

/-- A value indented at a level. -/
def prettyChars (level : Nat) : Value → List Char
  | .null => "null".toList
  | .bool true => "true".toList
  | .bool false => "false".toList
  | .number n => n.render
  | .text s => quote s
  | .array items => bracketed level '[' ']' (prettyItems (level + 1) items)
  | .object fields => bracketed level '{' '}' (prettyFields (level + 1) fields)

/-- The items of an array at a level. -/
def prettyItems (level : Nat) : List Value → List (List Char)
  | [] => []
  | item :: items => prettyChars level item :: prettyItems level items

/-- The fields of an object at a level. -/
def prettyFields (level : Nat) : List (String × Value) → List (List Char)
  | [] => []
  | (name, value) :: fields =>
    (quote name ++ ':' :: ' ' :: prettyChars level value) :: prettyFields level fields

end

/-- The indented text of a value. -/
def pretty (v : Value) : String := String.ofList (v.prettyChars 0)

end Value

end FilterLogic.Json
