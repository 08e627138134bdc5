/-!
# Matching patterns

A pattern matches a text as a whole: `%` stands for any run of characters, also an empty one, `_`
for one character, and every other character for itself. There is no way to escape the two.

Matching reads the text once and keeps a row of entries, one for each beginning of the pattern, the
empty one first. An entry tells whether the beginning matches the text that was read so far, so the
last one is the answer, and the cost is the product of the lengths.
-/

namespace FilterLogic.Text.Like

/-- The entries of the row before anything is read, after an entry `left`: only `%` matches no
character at all. -/
def initialEntries (left : Bool) : List Char → List Bool
  | [] => []
  | p :: pattern =>
    let here := left && p == '%'
    here :: initialEntries here pattern

/-- The row before anything is read. The empty beginning of a pattern matches the empty text. -/
def initialRow (pattern : List Char) : List Bool := true :: initialEntries true pattern

/-- The entries of the row after the character `c`, after an entry `left`. Above them is the row
before `c`, and `diagonal` is its entry above `left`. -/
def nextEntries (c : Char) (left diagonal : Bool) : List Char → List Bool → List Bool
  | p :: pattern, above :: row =>
    let here :=
      match p with
      | '%' => left || above
      | '_' => diagonal
      | p => diagonal && p == c
    here :: nextEntries c here above pattern row
  | _, _ => []

/-- The row after the character `c`. The empty beginning of a pattern matches no longer text. -/
def nextRow (pattern : List Char) (row : List Bool) (c : Char) : List Bool :=
  false :: nextEntries c false (row.headD false) pattern row.tail

/-- Whether a pattern matches a text. -/
def accepts (pattern text : List Char) : Bool :=
  (text.foldl (nextRow pattern) (initialRow pattern)).getLastD false

end FilterLogic.Text.Like
