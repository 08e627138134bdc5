import FilterLogic.Condition.Sql

/-!
# Placeholders in SQL text

What placeholders a text has is read off the text alone: a reader goes over it from the left, knows
whether it is inside a quoted identifier, and outside of one takes a question mark, or a dollar sign
with a number, for a placeholder. Quoted identifiers hide whatever their names hold, and a
placeholder is read as it was written if no digit comes after it.
-/

namespace FilterLogic.Sql

/-- What a reader finds in a text: a character that stands for itself, or a placeholder. -/
inductive Mark where
  | char (c : Char)
  | placeholder (text : String)
  deriving DecidableEq, Repr

namespace Mark

/-- The text of a placeholder. -/
def placeholder? : Mark → Option String
  | .char _ => none
  | .placeholder text => some text

end Mark

/-- Reads a text from the left, inside a quoted identifier or outside of one. A quote ends an
identifier, and one right after it begins the next, so doubled quotes need no case of their own. -/
def marks (quoted : Bool) : List Char → List Mark
  | [] => []
  | c :: rest =>
    if c = '"' then .char c :: marks (!quoted) rest
    else if quoted then .char c :: marks quoted rest
    else if c = '?' then .placeholder "?" :: marks quoted rest
    else if c = '$' ∧ rest.head?.any Char.isDigit then
      .placeholder (String.ofList ('$' :: rest.takeWhile Char.isDigit)) ::
        marks quoted (rest.dropWhile Char.isDigit)
    else .char c :: marks quoted rest
termination_by text => text.length
decreasing_by
  all_goals simp only [List.length_cons]
  all_goals have := (List.dropWhile_sublist Char.isDigit (l := rest)).length_le
  all_goals omega

/-- The placeholders of a text from left to right, quoted identifiers left out. -/
def placeholders (text : String) : List String :=
  (marks false text.toList).filterMap Mark.placeholder?

/-- Whether a character begins neither an identifier nor a placeholder. -/
def isOrdinary (c : Char) : Bool := c ≠ '"' && c ≠ '?' && c ≠ '$'

theorem marks_ordinary {c : Char} (hc : isOrdinary c) (rest : List Char) :
    marks false (c :: rest) = .char c :: marks false rest := by
  obtain ⟨⟨hquote, hmark⟩, hdollar⟩ : (c ≠ '"' ∧ c ≠ '?') ∧ c ≠ '$' := by
    simpa [isOrdinary] using hc
  rw [marks, if_neg hquote, if_neg Bool.false_ne_true, if_neg hmark,
    if_neg fun hnumber => hdollar hnumber.1]

/-- Text that stands for itself wherever it is put outside quoted identifiers. -/
def IsPlain (text : List Char) : Prop :=
  ∀ rest, marks false (text ++ rest) = text.map Mark.char ++ marks false rest

theorem isPlain_of_all_isOrdinary {text : List Char} (h : text.all isOrdinary) : IsPlain text := by
  intro rest
  induction text with
  | nil => rfl
  | cons c cs ih =>
      obtain ⟨hc, hcs⟩ : isOrdinary c = true ∧ cs.all isOrdinary = true := by
        simpa only [List.all_cons, Bool.and_eq_true] using h
      rw [List.cons_append, marks_ordinary hc, ih hcs]
      rfl

theorem isDigit_of_mem_toString {number : Nat} {c : Char} (h : c ∈ (toString number).toList) :
    c.isDigit = true := by
  rw [Nat.toString_eq_repr, Nat.toList_repr] at h
  exact Nat.isDigit_of_mem_toDigits (by decide) (by decide) h

theorem head?_toString (number : Nat) (rest : List Char) :
    ((toString number).toList ++ rest).head?.any Char.isDigit = true := by
  cases hchars : (toString number).toList with
  | nil =>
      rw [Nat.toString_eq_repr, Nat.toList_repr] at hchars
      exact absurd hchars Nat.toDigits_ne_nil
  | cons c cs => exact isDigit_of_mem_toString (hchars ▸ List.mem_cons_self)

/-- The digits of a number end where what comes after begins with no digit. -/
theorem span_toString (number : Nat) {rest : List Char}
    (h : rest.head?.any Char.isDigit = false) :
    ((toString number).toList ++ rest).takeWhile Char.isDigit = (toString number).toList ∧
      ((toString number).toList ++ rest).dropWhile Char.isDigit = rest := by
  have hdigits : ∀ c ∈ (toString number).toList, c.isDigit = true :=
    fun c hc => isDigit_of_mem_toString hc
  rw [List.takeWhile_append_of_pos hdigits, List.dropWhile_append_of_pos hdigits]
  cases rest with
  | nil => exact ⟨List.append_nil _, rfl⟩
  | cons c cs =>
      have hc : c.isDigit = false := h
      simp [hc]

namespace Dialect

theorem toList_placeholder_postgres (index : Nat) :
    (postgres.placeholder index).toList = '$' :: (toString index).toList := by
  rw [placeholder, String.toList_append]
  rfl

theorem toList_placeholder_sqlite (index : Nat) : (sqlite.placeholder index).toList = ['?'] := by
  rw [placeholder]
  rfl

variable (dialect : Dialect) (index : Nat)

end Dialect

end FilterLogic.Sql
