import FilterLogic.Expr.SyntaxError
import FilterLogic.Expr.Token
import FilterLogic.Text.Blank

/-!
# Reading tokens

A text is scanned from left to right. Layout between tokens is skipped, a run of letters, digits
and underscores is one identifier, and every other character is a token of its own or is refused.
The scan goes on after a refused character, so that it covers the whole text; `tokenize` reports
the first refusal.
-/

namespace FilterLogic.Expr

/-- Whether a character may stand in an identifier: an ASCII letter or digit, or an underscore. -/
def isWordChar (c : Char) : Bool := c.isAlphanum || c == '_'

/-- What the scan finds at a position. -/
inductive Lexeme where
  | token (token : Token)
  | invalid (character : Char) (position : Nat)
  deriving DecidableEq

/-- The word that a single character makes. -/
def Word.ofChar? : Char → Option Word
  | '!' => some .not
  | '&' => some .and
  | '|' => some .or
  | '(' => some .opening
  | ')' => some .closing
  | _ => none

/-- Everything found in a text whose first character has the given position. -/
def scan (position : Nat) (cs : List Char) : List Lexeme :=
  match cs with
  | [] => []
  | c :: rest =>
    if Text.isLayout c then scan (position + 1) rest
    else if isWordChar c then
      let tail := rest.takeWhile isWordChar
      .token ⟨.identifier (String.ofList (c :: tail)), position⟩ ::
        scan (position + 1 + tail.length) (rest.dropWhile isWordChar)
    else
      match Word.ofChar? c with
      | some word => .token ⟨word, position⟩ :: scan (position + 1) rest
      | none => .invalid c position :: scan (position + 1) rest
termination_by cs.length
decreasing_by
  all_goals simp_wf
  have := (List.dropWhile_suffix isWordChar (l := rest)).length_le
  omega

/-- Everything found in a text. -/
def lexemes (text : String) : List Lexeme := scan 0 text.toList

/-- The tokens before the end or the first refused character. -/
def collect : List Lexeme → Except SyntaxError (List Token)
  | [] => .ok []
  | .token t :: rest => do return t :: (← collect rest)
  | .invalid c position :: _ => .error (.invalidCharacter c position)

/-- The tokens of a text. Blank text is refused, whether or not it is only layout. -/
def tokenize (text : String) : Except SyntaxError (List Token) :=
  if text.toList.all Text.isBlank then .error .empty else collect (lexemes text)

end FilterLogic.Expr
