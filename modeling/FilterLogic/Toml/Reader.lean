import FilterLogic.Toml.Scalar
import FilterLogic.Toml.Table

/-!
# Reading TOML

A text is read into statements line by line, and the statements define the document. Arrays run
over several lines and hold comments; tables in braces stay on one line. Brackets and braces nest,
and keys are dotted, to a bounded depth.
-/

namespace FilterLogic.Toml

/-- The least number of nested brackets, or of parts of a key, that is refused. -/
def depthLimit : Nat := 80

namespace Reader

/-- Whether a character is a space or a tab. -/
def isGap (c : Char) : Bool := c == ' ' || c == '\t'

/-- The characters after leading spaces and tabs. -/
def skipGap (cs : List Char) : List Char := cs.dropWhile isGap

/-- Whether a character may stand in comments and strings. Control characters other than the tab
may not. -/
def isPrintable (c : Char) : Bool := c == '\t' || (0x20 ≤ c.toNat && c.toNat ≠ 0x7F)

/-- What follows a line break. -/
def afterBreak? : List Char → Option (List Char)
  | '\n' :: rest => some rest
  | '\r' :: '\n' :: rest => some rest
  | _ => none

/-- The characters after a comment, if there is one. -/
def skipComment : List Char → List Char
  | '#' :: rest => rest.dropWhile isPrintable
  | rest => rest

/-- What follows the end of a line, before which a comment may stand. -/
def afterLine? (cs : List Char) : Option (List Char) :=
  match skipComment (skipGap cs) with
  | [] => some []
  | rest => afterBreak? rest

/-- Skips spaces, line breaks and comments, at most a number of them. -/
def skipLines : Nat → List Char → List Char
  | 0, cs => cs
  | fuel + 1, cs =>
    match skipComment (skipGap cs) with
    | '\n' :: rest => skipLines fuel rest
    | '\r' :: '\n' :: rest => skipLines fuel rest
    | rest => rest

/-- Skips spaces and line breaks, as a backslash at the end of a line does. -/
def skipBlankLines : List Char → List Char
  | '\n' :: rest => skipBlankLines rest
  | '\r' :: '\n' :: rest => skipBlankLines rest
  | ' ' :: rest => skipBlankLines rest
  | '\t' :: rest => skipBlankLines rest
  | rest => rest

/-- The character of a number that is a code point and no surrogate. -/
def scalar? (n : Nat) : Option Char := if n.isValidChar then some (Char.ofNat n) else none

/-- Reads a code point of a fixed number of hexadecimal digits. -/
def readCodePoint (count : Nat) (cs : List Char) : Option (Char × List Char) :=
  let digits := cs.take count
  if digits.length = count ∧ digits.all Scalar.isHexDigit then do
    let c ← scalar? (Scalar.ofDigits 16 digits)
    return (c, cs.drop count)
  else none

/-- Reads an escape after its backslash. -/
def readEscape : List Char → Option (Char × List Char)
  | 'b' :: rest => some ('\x08', rest)
  | 't' :: rest => some ('\t', rest)
  | 'n' :: rest => some ('\n', rest)
  | 'f' :: rest => some ('\x0c', rest)
  | 'r' :: rest => some ('\r', rest)
  | '"' :: rest => some ('"', rest)
  | '\\' :: rest => some ('\\', rest)
  | 'u' :: rest => readCodePoint 4 rest
  | 'U' :: rest => readCodePoint 8 rest
  | _ => none

/-- Reads a string with escapes after its opening quote. -/
def readBasic : Nat → List Char → Option (List Char × List Char)
  | 0, _ => none
  | _, [] => none
  | _, '"' :: rest => some ([], rest)
  | fuel + 1, '\\' :: rest => do
    let (c, rest) ← readEscape rest
    let (cs, rest) ← readBasic fuel rest
    return (c :: cs, rest)
  | fuel + 1, c :: rest =>
    if isPrintable c then do
      let (cs, rest) ← readBasic fuel rest
      return (c :: cs, rest)
    else none

/-- Reads a string without escapes after its opening quote. -/
def readLiteral (cs : List Char) : Option (List Char × List Char) :=
  let isContent (c : Char) : Bool := isPrintable c && c ≠ '\''
  match cs.dropWhile isContent with
  | '\'' :: rest => some (cs.takeWhile isContent, rest)
  | _ => none

/-- A run of quotes in a string of several lines. Fewer than three are content. Three or more end
the string, and up to two of them before the last three are content. -/
def splitQuotes (quote : Char) (cs : List Char) : List Char × Option (List Char) :=
  let count := (cs.takeWhile (· = quote)).length
  if count < 3 then (List.replicate count quote, none)
  else
    let content := min (count - 3) 2
    (List.replicate content quote, some (cs.drop (content + 3)))

/-- Reads the rest of a string of several lines with escapes. -/
def readLongBasic : Nat → List Char → Option (List Char × List Char)
  | 0, _ => none
  | _, [] => none
  | fuel + 1, '"' :: rest =>
    match splitQuotes '"' ('"' :: rest) with
    | (content, some rest) => some (content, rest)
    | (content, none) => do
      let (cs, rest) ← readLongBasic fuel (('"' :: rest).drop content.length)
      return (content ++ cs, rest)
  | fuel + 1, '\\' :: rest =>
    match afterBreak? (skipGap rest) with
    | some rest => readLongBasic fuel (skipBlankLines rest)
    | none => do
      let (c, rest) ← readEscape rest
      let (cs, rest) ← readLongBasic fuel rest
      return (c :: cs, rest)
  | fuel + 1, c :: rest =>
    match afterBreak? (c :: rest) with
    | some rest => do
      let (cs, rest) ← readLongBasic fuel rest
      return ('\n' :: cs, rest)
    | none =>
      if isPrintable c then do
        let (cs, rest) ← readLongBasic fuel rest
        return (c :: cs, rest)
      else none

/-- Reads the rest of a string of several lines without escapes. -/
def readLongLiteral : Nat → List Char → Option (List Char × List Char)
  | 0, _ => none
  | _, [] => none
  | fuel + 1, '\'' :: rest =>
    match splitQuotes '\'' ('\'' :: rest) with
    | (content, some rest) => some (content, rest)
    | (content, none) => do
      let (cs, rest) ← readLongLiteral fuel (('\'' :: rest).drop content.length)
      return (content ++ cs, rest)
  | fuel + 1, c :: rest =>
    match afterBreak? (c :: rest) with
    | some rest => do
      let (cs, rest) ← readLongLiteral fuel rest
      return ('\n' :: cs, rest)
    | none =>
      if isPrintable c then do
        let (cs, rest) ← readLongLiteral fuel rest
        return (c :: cs, rest)
      else none

/-- The characters after a line break right behind the opening quotes. -/
def skipBreak (cs : List Char) : List Char := (afterBreak? cs).getD cs

/-- Reads a string of any of the four forms. -/
def readString (cs : List Char) : Option (List Char × List Char) :=
  match cs with
  | '"' :: '"' :: '"' :: rest => readLongBasic cs.length (skipBreak rest)
  | '"' :: rest => readBasic cs.length rest
  | '\'' :: '\'' :: '\'' :: rest => readLongLiteral cs.length (skipBreak rest)
  | '\'' :: rest => readLiteral rest
  | _ => none

/-- Whether a character may stand in a key without quotes. -/
def isBareKey (c : Char) : Bool := c.isAlphanum || c == '_' || c == '-'

/-- Reads one part of a key. -/
def readKeyPart (cs : List Char) : Option (String × List Char) :=
  match cs with
  | '"' :: rest => (readBasic cs.length rest).map fun (key, rest) => (String.ofList key, rest)
  | '\'' :: rest => (readLiteral rest).map fun (key, rest) => (String.ofList key, rest)
  | _ =>
    match cs.takeWhile isBareKey with
    | [] => none
    | key => some (String.ofList key, cs.dropWhile isBareKey)

/-- Reads the parts of a key with points between them, at most a number of them. Spaces around the
parts belong to the key. -/
def readKeyParts : Nat → List Char → Option (List String × List Char)
  | 0, _ => none
  | fuel + 1, cs => do
    let (part, rest) ← readKeyPart (skipGap cs)
    match skipGap rest with
    | '.' :: rest => do
      let (parts, rest) ← readKeyParts fuel rest
      return (part :: parts, rest)
    | rest => some ([part], rest)

/-- Reads a key and splits its last part off. -/
def readKey (cs : List Char) : Option (List String × String × List Char) := do
  let (parts, rest) ← readKeyParts (depthLimit - 1) cs
  let last ← parts.getLast?
  return (parts.dropLast, last, rest)

/-- Whether a character belongs to a word that is no string. -/
def isWordChar (c : Char) : Bool :=
  !(isGap c || c == '\n' || c == '\r' || c == ',' || c == ']' || c == '\x7d' || c == '#')

/-- What follows a moment whose first word was read: a time may follow a date after one space. -/
def afterMoment? (word rest : List Char) : Option (List Char) :=
  match rest with
  | ' ' :: more =>
    let time := more.takeWhile isWordChar
    if Scalar.isDate word && !time.isEmpty then
      if Scalar.isTimeWithOffset time then some (more.dropWhile isWordChar) else none
    else some rest
  | _ => some rest

/-- Reads a number, a boolean or a moment. -/
def readScalar (cs : List Char) : Option (Value × List Char) :=
  let word := cs.takeWhile isWordChar
  let rest := cs.dropWhile isWordChar
  if Scalar.isMoment word then (afterMoment? word rest).map fun rest => (.moment, rest)
  else if Scalar.isPlain word then some (.other, rest)
  else none

mutual

/-- Reads a value, with room for nested brackets and braces. -/
def readValue : Nat → Nat → List Char → Option (Value × List Char)
  | 0, _, _ => none
  | fuel + 1, room, cs =>
    match cs with
    | '[' :: rest =>
      if room = 0 then none
      else do
        let (items, rest) ← readItems fuel (room - 1) rest
        return (.array items, rest)
    | '\x7b' :: rest =>
      if room = 0 then none
      else
        match skipGap rest with
        | '\x7d' :: rest => some (.table .braces [], rest)
        | rest => do
          let (pairs, rest) ← readPairs fuel (room - 1) rest
          return (.table .braces (← Entries.ofPairs pairs), rest)
    | c :: _ =>
      if c == '"' || c == '\'' then do
        let (text, rest) ← readString cs
        return (.text (String.ofList text), rest)
      else readScalar cs
    | [] => none

/-- Reads the items of an array up to its bracket. A comma may follow the last item. -/
def readItems : Nat → Nat → List Char → Option (List Value × List Char)
  | 0, _, _ => none
  | fuel + 1, room, cs =>
    match skipLines cs.length cs with
    | ']' :: rest => some ([], rest)
    | rest => do
      let (item, rest) ← readValue fuel room rest
      match skipLines rest.length rest with
      | ',' :: rest => do
        let (items, rest) ← readItems fuel room rest
        return (item :: items, rest)
      | ']' :: rest => some ([item], rest)
      | _ => none

/-- Reads the pairs of a table in braces, of which there is one at least, and the closing brace. -/
def readPairs : Nat → Nat → List Char → Option (List (List String × String × Value) × List Char)
  | 0, _, _ => none
  | fuel + 1, room, cs => do
    let (path, key, rest) ← readKey cs
    match rest with
    | '=' :: rest => do
      let (value, rest) ← readValue fuel room (skipGap rest)
      match skipGap rest with
      | ',' :: rest => do
        let (pairs, rest) ← readPairs fuel room rest
        return ((path, key, value) :: pairs, rest)
      | '\x7d' :: rest => some ([(path, key, value)], rest)
      | _ => none
    | _ => none

end

/-- Reads a statement and the end of its line. -/
def readStatement (cs : List Char) : Option (Statement × List Char) :=
  match cs with
  | '[' :: '[' :: rest => do
    let (path, key, rest) ← readKey rest
    match rest with
    | ']' :: ']' :: rest => return (.element path key, ← afterLine? rest)
    | _ => none
  | '[' :: rest => do
    let (path, key, rest) ← readKey rest
    match rest with
    | ']' :: rest => return (.header path key, ← afterLine? rest)
    | _ => none
  | _ => do
    let (path, key, rest) ← readKey cs
    match rest with
    | '=' :: rest => do
      let (value, rest) ← readValue cs.length (depthLimit - 1) (skipGap rest)
      return (.pair path key value, ← afterLine? rest)
    | _ => none

/-- Reads the statements of a text. -/
def readStatements : Nat → List Char → Option (List Statement)
  | 0, _ => none
  | fuel + 1, cs =>
    match skipGap cs with
    | [] => some []
    | '#' :: rest => do readStatements fuel (← afterLine? ('#' :: rest))
    | '\n' :: rest => readStatements fuel rest
    | '\r' :: rest => do readStatements fuel (← afterBreak? ('\r' :: rest))
    | rest => do
      let (statement, rest) ← readStatement rest
      return statement :: (← readStatements fuel rest)

/-- The characters after a byte order mark. -/
def skipMark : List Char → List Char
  | '\ufeff' :: rest => rest
  | rest => rest

end Reader

/-- The entries of the document that a text denotes. -/
def parse? (text : String) : Option Entries := do
  let cs := Reader.skipMark text.toList
  Document.ofStatements (← Reader.readStatements (cs.length + 1) cs)

end FilterLogic.Toml
