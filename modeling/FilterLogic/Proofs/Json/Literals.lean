import FilterLogic.Json.Printer
import FilterLogic.Proofs.Json.Order
import Mathlib.Data.List.Basic

/-!
# Literals of JSON are read back

What is written for a string is read back as the string, whatever characters it has, and what is
written for an integer that fits a word is read back as the integer, unless the text runs on in a
way that continues a numeral.
-/

namespace FilterLogic.Json

namespace Piece

/-- The part of a string literal that is written for a character: its code if it is a control
character without an escape of its own, and else the character. -/
def ofChar (c : Char) : Piece :=
  if c.toNat < 0x20 ∧ c ∉ ['\x08', '\t', '\n', '\x0c', '\r'] then .unit c.toNat else .char c

theorem decode?_unit {unit : Nat} (h : unit < 0xD800) (pieces : List Piece) :
    decode? (.unit unit :: pieces) = (Char.ofNat unit :: ·) <$> decode? pieces := by
  have hleading : isLeading unit = false := by simp [isLeading]; omega
  have htrailing : isTrailing unit = false := by simp [isTrailing]; omega
  rcases pieces with _ | ⟨_ | _, _⟩ <;> simp [decode?, hleading, htrailing]

theorem decode?_ofChar (cs : List Char) : decode? (cs.map ofChar) = some cs := by
  induction cs with
  | nil => rfl
  | cons c cs ih =>
      rw [List.map_cons, ofChar]
      split_ifs with hcontrol
      · rw [decode?_unit (by omega), ih, Char.ofNat_toNat]
        rfl
      · rw [decode?, ih]
        rfl

/-- The parts of a string literal that are written for a text. -/
def ofText (s : String) : List Piece := s.toList.map ofChar

/-- The parts that are written for a text denote it. -/
@[simp] theorem text?_ofText (s : String) : text? (ofText s) = some s := by
  rw [text?, ofText, decode?_ofChar, Option.map_some, String.ofList_toList]

end Piece

namespace Source

section Strings

variable {rest last : List Char} {pieces : List Piece}

/-- An escape of one letter is one piece of a literal. -/
theorem readPieces_escape {e c : Char} (he : escaped? e = some c)
    (h : readPieces rest = some (pieces, last)) :
    readPieces ('\\' :: e :: rest) = some (.char c :: pieces, last) := by
  have hne : e ≠ 'u' := by
    rintro rfl
    cases he
  rw [readPieces, he, h]
  · rfl
  · exact fun _ _ _ _ _ hu _ => hne hu

theorem hexDigit?_hexDigit : ∀ n < 0x20, hexDigit? (hexDigit (n / 16)) = some (n / 16) ∧
    hexDigit? (hexDigit n) = some (n % 16) := by
  decide

/-- The code of a control character is one piece of a literal. -/
theorem readPieces_control {n : Nat} (hn : n < 0x20) (h : readPieces rest = some (pieces, last)) :
    readPieces ('\\' :: 'u' :: '0' :: '0' :: hexDigit (n / 16) :: hexDigit n :: rest) =
      some (.unit n :: pieces, last) := by
  have hzero : hexDigit? '0' = some 0 := rfl
  obtain ⟨hhigh, hlow⟩ := hexDigit?_hexDigit n hn
  have hcode : n / 16 * 16 + n % 16 = n := Nat.div_add_mod' n 16
  rw [readPieces, hzero, hhigh, hlow, h]
  simp [hcode]

/-- A character that needs no escape is one piece of a literal. -/
theorem readPieces_char {c : Char} (hquote : c ≠ '"') (hslash : c ≠ '\\') (hc : 0x20 ≤ c.toNat)
    (h : readPieces rest = some (pieces, last)) :
    readPieces (c :: rest) = some (.char c :: pieces, last) := by
  have hplain : ¬ (c == '\\' || decide (c.toNat < 0x20)) = true := by
    simp [hslash, Nat.not_lt.mpr hc]
  rw [readPieces, if_neg hplain, h]
  · rfl
  · exact hquote
  · exact fun _ _ _ _ _ heq _ => hslash heq
  · exact fun _ _ heq _ => hslash heq

theorem readPieces_escapeChar (c : Char) (h : readPieces rest = some (pieces, last)) :
    readPieces (escapeChar c ++ rest) = some (Piece.ofChar c :: pieces, last) := by
  unfold escapeChar
  split
  case h_8 =>
    rename_i hquote hslash _ _ _ _ _
    split_ifs with hcontrol
    · have hpiece : Piece.ofChar c = .unit c.toNat := by
        rw [Piece.ofChar, if_pos]
        simp_all
      rw [hpiece]
      exact readPieces_control hcontrol h
    · have hpiece : Piece.ofChar c = .char c := by
        rw [Piece.ofChar, if_neg fun hboth => hcontrol hboth.1]
      rw [hpiece]
      exact readPieces_char hquote hslash (Nat.not_lt.mp hcontrol) h
  all_goals exact readPieces_escape rfl h

/-- The inside of a written string literal is read up to the quote that ends it. -/
theorem readPieces_quoted (s : String) (rest : List Char) :
    readPieces (s.toList.flatMap escapeChar ++ '"' :: rest) = some (Piece.ofText s, rest) := by
  rw [Piece.ofText]
  induction s.toList with
  | nil => rfl
  | cons c cs ih =>
      rw [List.flatMap_cons, List.append_assoc]
      exact readPieces_escapeChar c ih

end Strings

section Numerals

/-- Whether a character right after a numeral would be read as a part of it. -/
def continuesNumeral (c : Char) : Bool := c.isDigit || c == '.' || c == 'e' || c == 'E'

/-- The digits of a number. -/
def digits (n : Nat) : List Nat := (Nat.toDigits 10 n).map fun c => c.toNat - '0'.toNat

theorem readDigits?_toDigits (n : Nat) {rest : List Char}
    (hrest : rest.head?.any continuesNumeral = false) :
    readDigits? (Nat.toDigits 10 n ++ rest) = some (digits n, rest) := by
  have hdigits : ∀ c ∈ Nat.toDigits 10 n, c.isDigit = true := fun c hc =>
    Nat.isDigit_of_mem_toDigits (by decide) (by decide) hc
  have htake : rest.takeWhile Char.isDigit = [] ∧ rest.dropWhile Char.isDigit = rest := by
    rcases rest with _ | ⟨c, rest⟩
    · exact ⟨rfl, rfl⟩
    · have hc : c.isDigit = false := by
        by_contra hdigit
        simp [continuesNumeral, hdigit] at hrest
      simp [hc]
  have hread : readDigits (Nat.toDigits 10 n ++ rest) = (digits n, rest) := by
    rw [readDigits, List.takeWhile_append_of_pos hdigits, List.dropWhile_append_of_pos hdigits,
      htake.1, htake.2, List.append_nil, digits]
  cases hcases : digits n with
  | nil => exact absurd (List.map_eq_nil_iff.mp hcases) Nat.toDigits_ne_nil
  | cons d ds => rw [readDigits?, hread, hcases]

theorem digits_eq (n : Nat) : digits n = if n < 10 then [n] else digits (n / 10) ++ [n % 10] := by
  have hdigit (d : Nat) (hd : d < 10) : d.digitChar.toNat - '0'.toNat = d := by
    rw [Nat.toNat_digitChar_of_lt_ten hd]
    exact Nat.add_sub_cancel_left 48 d
  rw [digits, Nat.toDigits_eq_if (by decide)]
  split_ifs with hn
  · rw [List.map_singleton, hdigit n hn]
  · rw [List.map_append, List.map_singleton, hdigit _ (Nat.mod_lt n (by decide)), digits]

/-- The digits of a number do not begin with zero. -/
theorem head?_digits_ne {n : Nat} (hn : 0 < n) : (digits n).head? ≠ some 0 := by
  induction n using Nat.strongRecOn with
  | ind n ih =>
      rw [digits_eq]
      split_ifs with hlt
      · simpa using Nat.ne_of_gt hn
      · have hrest : 0 < n / 10 := by omega
        have hne : digits (n / 10) ≠ [] := List.map_eq_nil_iff.not.mpr Nat.toDigits_ne_nil
        rw [List.head?_append_of_ne_nil _ hne]
        exact ih _ (by omega) hrest

theorem ofDigits_digits (n : Nat) : Numeral.ofDigits (digits n) = n := by
  induction n using Nat.strongRecOn with
  | ind n ih =>
      rw [digits_eq]
      split_ifs with hlt
      · simp [Numeral.ofDigits]
      · have hrest := ih (n / 10) (by omega)
        rw [Numeral.ofDigits] at hrest ⊢
        rw [List.foldl_append, hrest]
        exact Nat.div_add_mod' n 10

/-- The numeral that is written for an integer. -/
def integer (n : Int) : Numeral := ⟨decide (n < 0), digits n.natAbs, [], none⟩

theorem readFraction_of_not_continues {rest : List Char}
    (hrest : rest.head?.any continuesNumeral = false) : readFraction rest = some ([], rest) := by
  rcases rest with _ | ⟨c, rest⟩
  · rfl
  · rw [readFraction]
    rintro _ hpoint
    cases hpoint
    simp [continuesNumeral] at hrest

theorem readPower_of_not_continues {rest : List Char}
    (hrest : rest.head?.any continuesNumeral = false) : readPower rest = some (none, rest) := by
  rcases rest with _ | ⟨c, rest⟩
  · rfl
  · have hc : ¬ (c == 'e' || c == 'E') = true := by
      intro hmark
      simp_all [continuesNumeral]
    rw [readPower, if_neg hc]

/-- An integer is read as the numeral that is written for it. -/
theorem readNumeral_render (n : Int) {rest : List Char}
    (hrest : rest.head?.any continuesNumeral = false) :
    readNumeral ((Number.integer n).render ++ rest) = some (integer n, rest) := by
  have hwhole : ¬ ((digits n.natAbs).head? = some 0 ∧ (digits n.natAbs).length ≠ 1) := by
    rintro ⟨hhead, hlength⟩
    rcases Nat.eq_zero_or_pos n.natAbs with hzero | hpos
    · rw [hzero] at hlength
      exact hlength rfl
    · exact head?_digits_ne hpos hhead
  have hread := readDigits?_toDigits n.natAbs hrest
  have hend := readFraction_of_not_continues hrest
  have hpower := readPower_of_not_continues hrest
  by_cases hneg : n < 0
  · have htext : (Number.integer n).render ++ rest = '-' :: (Nat.toDigits 10 n.natAbs ++ rest) := by
      simp [Number.render, hneg]
    rw [htext, readNumeral]
    simp [integer, hneg, hread, hwhole, hend, hpower]
  · have htext : (Number.integer n).render ++ rest = Nat.toDigits 10 n.natAbs ++ rest := by
      simp [Number.render, hneg]
    rw [htext, readNumeral]
    · simp [integer, hneg, hread, hwhole, hend, hpower]
    · intro cs hcs
      rcases List.append_eq_cons_iff.mp hcs with ⟨hnil, -⟩ | ⟨tail, hdigits, -⟩
      · exact Nat.toDigits_ne_nil hnil
      · have hdigit := Nat.isDigit_of_mem_toDigits (by decide) (by decide)
          (hdigits ▸ List.mem_cons_self (a := '-') (l := tail))
        simp at hdigit

end Numerals

end Source

section Integers

theorem le_foldl_digits (word : Nat) (ds : List Nat) :
    word ≤ ds.foldl (fun n d => n * 10 + d) word := by
  induction ds generalizing word with
  | nil => exact Nat.le_refl _
  | cons d ds ih => exact Nat.le_trans (by omega) (ih (word * 10 + d))

/-- Digits are gathered up to the end if their value fits a word. -/
theorem gather_eq {word : Nat} {ds : List Nat}
    (h : ds.foldl (fun n d => n * 10 + d) word < wordLimit) :
    gather word ds = (ds.foldl (fun n d => n * 10 + d) word, []) := by
  induction ds generalizing word with
  | nil => rfl
  | cons d ds ih =>
      have hfits : word * 10 + d < wordLimit := Nat.lt_of_le_of_lt (le_foldl_digits _ ds) h
      rw [gather, if_pos hfits]
      exact ih h

/-- The numeral of an integer that fits a word denotes the integer. -/
theorem value?_integer {n : Int} (h : IsWord n) :
    (Source.integer n).value? = some (.integer n) := by
  obtain ⟨hlow, hhigh⟩ := h
  have hlimit : wordLimit = 18446744073709551616 := by simp [wordLimit]
  have hvalue : (Source.digits n.natAbs).foldl (fun n d => n * 10 + d) 0 = n.natAbs :=
    Source.ofDigits_digits n.natAbs
  have hgather : gather 0 (Source.digits n.natAbs) = (n.natAbs, []) := by
    rw [gather_eq (by omega), hvalue]
  rw [Numeral.value?, if_pos (by simp [Source.integer]), Source.integer, hgather]
  by_cases hneg : n < 0
  · have hfits : (decide (0 < n.natAbs) && decide (n.natAbs ≤ Nat.pow 2 63)) = true := by
      simp only [Bool.and_eq_true, decide_eq_true_eq, Nat.pow_eq]
      omega
    have hvalue : -(n.natAbs : Int) = n := by omega
    simp only [hneg, hfits, hvalue, decide_true, Bool.not_true, Bool.false_eq_true, if_false,
      if_true]
  · have hvalue : (n.natAbs : Int) = n := by omega
    simp only [hneg, hvalue, decide_false, Bool.not_false, if_true]

end Integers

end FilterLogic.Json
