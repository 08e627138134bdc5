import FilterLogic.Text.CaseMapping
import FilterLogic.Text.CaseClass

/-!
# Upper and lower case

The full case mappings of Unicode, without regard to a language. One character may map to
several. The only mapping that depends on its surroundings is that of the capital sigma, which is
written in its final form at the end of a word.
-/

namespace FilterLogic.Text

/-- The code point that a table of runs maps a code point to. -/
def CaseRun.lookup? (runs : List CaseRun) (n : Nat) : Option Nat :=
  (runs.find? fun r => r.first ≤ n && n ≤ r.last && (n - r.first) % r.step == 0).map
    fun r => ((n : Int) + r.shift).toNat

/-- The mapped form of a character, by the expansions first and the runs second. -/
def mapCase (expansions : List CaseExpansion) (runs : List CaseRun) (c : Char) : List Char :=
  match expansions.find? (·.source == c.toNat) with
  | some e => e.target.map Char.ofNat
  | none =>
    match CaseRun.lookup? runs c.toNat with
    | some n => [Char.ofNat n]
    | none => [c]

/-- The upper-case form of a character. -/
def upperChar (c : Char) : List Char :=
  if c.toNat < 0x80 then [c.toUpper]
  else mapCase CaseMapping.upperExpansions CaseMapping.upperRuns c

/-- The lower-case form of a character that stands alone. -/
def lowerChar (c : Char) : List Char :=
  if c.toNat < 0x80 then [c.toLower]
  else mapCase CaseMapping.lowerExpansions CaseMapping.lowerRuns c

/-- The text in upper case. -/
def upper (s : String) : String := String.ofList (s.toList.flatMap upperChar)

/-- Whether the first character that is not case-ignorable is cased. -/
def startsCased (cs : List Char) : Bool :=
  match cs.dropWhile isCaseIgnorable with
  | c :: _ => isCased c
  | [] => false

/-- The lower-case form of a text that follows a cased character or not. A capital sigma is
final when a cased character comes before it and none after. -/
def lowerFrom (afterCased : Bool) : List Char → List Char
  | [] => []
  | c :: rest =>
    let here :=
      if c = 'Σ' then
        if afterCased && !startsCased rest then ['ς'] else ['σ']
      else lowerChar c
    here ++ lowerFrom (if isCaseIgnorable c then afterCased else isCased c) rest

/-- The text in lower case. -/
def lower (s : String) : String := String.ofList (lowerFrom false s.toList)

end FilterLogic.Text
