import FilterLogic.Text.Case

/-!
# Suggestions for misspelt names

The distance of two words is the least number of insertions, deletions and substitutions of one
character that turn one into the other. A suggestion is the closest known name, if it is close
enough and not the name that was asked for.
-/

namespace FilterLogic.Text

namespace EditDistance

/-- Distances of the empty word to every suffix of a word, the longest suffix first. -/
def baseRow (word : List Char) : List Nat :=
  word.foldr (fun _ row => (row.headD 0 + 1) :: row) [0]

/-- Distances of `x :: left` to every suffix of a word, from those of `left`. -/
def nextRow (x : Char) : List Char → List Nat → List Nat
  | [], row => [row.headD 0 + 1]
  | y :: word, row =>
    let shorter := nextRow x word row.tail
    let change := row.tail.headD 0 + if x = y then 0 else 1
    min change (min (shorter.headD 0 + 1) (row.headD 0 + 1)) :: shorter

/-- Distances of a word to every suffix of another, the longest suffix first. -/
def row (left right : List Char) : List Nat :=
  left.foldr (fun x r => nextRow x right r) (baseRow right)

end EditDistance

/-- The edit distance of two words. -/
def editDistance (left right : List Char) : Nat := (EditDistance.row left right).headD 0

/-- The greatest distance at which a name is suggested. -/
def suggestionLimit : Nat := 3

/-- The distance of two names, where case does not count. -/
def nameDistance (a b : String) : Nat := editDistance (lower a).toList (lower b).toList

/-- The first of the names closest to the one asked for, with its distance. -/
def closest? (name : String) (candidates : List String) : Option (String × Nat) :=
  candidates.foldl (fun best candidate =>
    let distance := nameDistance name candidate
    match best with
    | some (_, least) => if distance < least then some (candidate, distance) else best
    | none => some (candidate, distance)) none

/-- The name to suggest in place of one that is not known. The empty name is never suggested. -/
def suggest? (name : String) (candidates : List String) : Option String :=
  match closest? name (candidates.filter (· ≠ "")) with
  | some (best, distance) =>
    if best ≠ name && distance ≤ suggestionLimit then some best else none
  | none => none

end FilterLogic.Text
