import FilterLogic.Json.Number

/-!
# JSON as written

The first reading of JSON text checks its form only. Numerals are kept as digits and `\u` escapes
as code units, members of an object stay in their order with repeated names, and nesting has no
limit. Whether the parts denote anything is decided when a value is made of them, so a part that
nobody looks at need not denote anything.
-/

namespace FilterLogic.Json

/-- A part of a string literal: a character, or a UTF-16 code unit written as an escape. -/
inductive Piece where
  | char (c : Char)
  | unit (value : Nat)
  deriving DecidableEq

/-- A JSON text that is well formed. -/
inductive Source where
  | null
  | bool (value : Bool)
  | number (numeral : Numeral)
  | text (pieces : List Piece)
  | array (items : List Source)
  | object (members : List (List Piece × Source))

namespace Source

/-- White space between tokens. -/
def isSpace (c : Char) : Bool := c == ' ' || c == '\n' || c == '\t' || c == '\r'

/-- The characters after leading white space. -/
def skipSpace (cs : List Char) : List Char := cs.dropWhile isSpace

/-- The value of a hexadecimal digit. -/
def hexDigit? (c : Char) : Option Nat :=
  if '0' ≤ c && c ≤ '9' then some (c.toNat - '0'.toNat)
  else if 'a' ≤ c && c ≤ 'f' then some (c.toNat - 'a'.toNat + 10)
  else if 'A' ≤ c && c ≤ 'F' then some (c.toNat - 'A'.toNat + 10)
  else none

/-- The character that a one-letter escape stands for. -/
def escaped? : Char → Option Char
  | '"' => some '"'
  | '\\' => some '\\'
  | '/' => some '/'
  | 'b' => some '\x08'
  | 'f' => some '\x0c'
  | 'n' => some '\n'
  | 'r' => some '\r'
  | 't' => some '\t'
  | _ => none

/-- Reads a string literal after its opening quote, up to and with the closing one. -/
def readPieces : List Char → Option (List Piece × List Char)
  | [] => none
  | '"' :: rest => some ([], rest)
  | '\\' :: 'u' :: a :: b :: c :: d :: rest => do
    let unit := ((((← hexDigit? a) * 16 + (← hexDigit? b)) * 16 + (← hexDigit? c)) * 16) +
      (← hexDigit? d)
    let (pieces, rest) ← readPieces rest
    return (.unit unit :: pieces, rest)
  | '\\' :: e :: rest => do
    let c ← escaped? e
    let (pieces, rest) ← readPieces rest
    return (.char c :: pieces, rest)
  | c :: rest =>
    if c == '\\' || c.toNat < 0x20 then none
    else do
      let (pieces, rest) ← readPieces rest
      return (.char c :: pieces, rest)

/-- The digits at the front, as numbers, and what follows them. -/
def readDigits (cs : List Char) : List Nat × List Char :=
  ((cs.takeWhile Char.isDigit).map fun c => c.toNat - '0'.toNat, cs.dropWhile Char.isDigit)

/-- The digits at the front, of which there must be one. -/
def readDigits? (cs : List Char) : Option (List Nat × List Char) :=
  match readDigits cs with
  | ([], _) => none
  | found => some found

/-- Reads the sign of a power of ten; the sign is optional. -/
def readSign : List Char → Bool × List Char
  | '-' :: rest => (true, rest)
  | '+' :: rest => (false, rest)
  | rest => (false, rest)

/-- Reads the part of a numeral after the point, if there is a point. -/
def readFraction : List Char → Option (List Nat × List Char)
  | '.' :: rest => readDigits? rest
  | rest => some ([], rest)

/-- Reads a power of ten, if there is one. -/
def readPower : List Char → Option (Option (Bool × List Nat) × List Char)
  | c :: rest =>
    if c == 'e' || c == 'E' then do
      let (down, rest) := readSign rest
      let (digits, rest) ← readDigits? rest
      return (some (down, digits), rest)
    else some (none, c :: rest)
  | [] => some (none, [])

/-- Reads a numeral. The whole part has no leading zero. -/
def readNumeral (cs : List Char) : Option (Numeral × List Char) := do
  let (negative, cs) :=
    match cs with
    | '-' :: rest => (true, rest)
    | _ => (false, cs)
  let (whole, rest) ← readDigits? cs
  if whole.head? = some 0 ∧ whole.length ≠ 1 then none
  else
    let (fraction, rest) ← readFraction rest
    let (power, rest) ← readPower rest
    return (⟨negative, whole, fraction, power⟩, rest)

mutual

/-- Reads a value, with white space before it allowed. -/
def readValue : Nat → List Char → Option (Source × List Char)
  | 0, _ => none
  | fuel + 1, cs =>
    match skipSpace cs with
    | 'n' :: 'u' :: 'l' :: 'l' :: rest => some (.null, rest)
    | 't' :: 'r' :: 'u' :: 'e' :: rest => some (.bool true, rest)
    | 'f' :: 'a' :: 'l' :: 's' :: 'e' :: rest => some (.bool false, rest)
    | '"' :: rest => do
      let (pieces, rest) ← readPieces rest
      return (.text pieces, rest)
    | '[' :: rest =>
      match skipSpace rest with
      | ']' :: rest => some (.array [], rest)
      | rest => do
        let (items, rest) ← readItems fuel rest
        return (.array items, rest)
    | '{' :: rest =>
      match skipSpace rest with
      | '}' :: rest => some (.object [], rest)
      | rest => do
        let (members, rest) ← readMembers fuel rest
        return (.object members, rest)
    | rest => do
      let (numeral, rest) ← readNumeral rest
      return (.number numeral, rest)

/-- Reads the items of an array, of which there is one at least, and the closing bracket. -/
def readItems : Nat → List Char → Option (List Source × List Char)
  | 0, _ => none
  | fuel + 1, cs => do
    let (item, rest) ← readValue fuel cs
    match skipSpace rest with
    | ',' :: rest => do
      let (items, rest) ← readItems fuel rest
      return (item :: items, rest)
    | ']' :: rest => some ([item], rest)
    | _ => none

/-- Reads the members of an object, of which there is one at least, and the closing brace. -/
def readMembers : Nat → List Char → Option (List (List Piece × Source) × List Char)
  | 0, _ => none
  | fuel + 1, cs =>
    match skipSpace cs with
    | '"' :: rest => do
      let (name, rest) ← readPieces rest
      match skipSpace rest with
      | ':' :: rest => do
        let (item, rest) ← readValue fuel rest
        match skipSpace rest with
        | ',' :: rest => do
          let (members, rest) ← readMembers fuel rest
          return ((name, item) :: members, rest)
        | '}' :: rest => some ([(name, item)], rest)
        | _ => none
      | _ => none
    | _ => none

end

/-- Reads characters as one JSON text. Every step of the reading takes a character, so their number
bounds the steps. -/
def ofChars? (cs : List Char) : Option Source :=
  match readValue (cs.length + 1) cs with
  | some (source, rest) => if (skipSpace rest).isEmpty then some source else none
  | none => none

/-- Reads a JSON text. -/
def parse? (s : String) : Option Source := ofChars? s.toList

end Source

namespace Piece

/-- Whether a code unit is the first of a surrogate pair. -/
def isLeading (unit : Nat) : Bool := 0xD800 ≤ unit && unit ≤ 0xDBFF

/-- Whether a code unit is the second of a surrogate pair. -/
def isTrailing (unit : Nat) : Bool := 0xDC00 ≤ unit && unit ≤ 0xDFFF

/-- The characters of a string literal. Surrogates must come in pairs. -/
def decode? : List Piece → Option (List Char)
  | [] => some []
  | .char c :: rest => (c :: ·) <$> decode? rest
  | .unit a :: .unit b :: rest =>
    if isLeading a then
      if isTrailing b then
        (Char.ofNat (0x10000 + (a - 0xD800) * 0x400 + (b - 0xDC00)) :: ·) <$> decode? rest
      else none
    else if isTrailing a then none
    else (Char.ofNat a :: ·) <$> decode? (.unit b :: rest)
  | .unit a :: rest =>
    if isLeading a || isTrailing a then none else (Char.ofNat a :: ·) <$> decode? rest

/-- The text of a string literal. -/
def text? (pieces : List Piece) : Option String := (decode? pieces).map String.ofList

end Piece

end FilterLogic.Json
