import FilterLogic.Proofs.Expr.Scanning
import Mathlib.Data.List.Sort

/-!
# The scan covers the text

What a scan finds lies in the text like tiles: every character that is not layout belongs to one
find, and layout belongs to none. An identifier reaches as far as it can to both sides, and every
other find is a single character, which is a word of its own or is refused. A text is tiled so in
one way only, and reading it stops at the first tile that is refused.

## Implementation notes

The scan is followed in the whole text, with the part already scanned before it. That part decides
with the rest whether an identifier could reach further to the left.
-/

namespace FilterLogic.Expr

/-- The characters that are words of their own: the three operators and the two parentheses. -/
inductive Word.IsSingle : Char → Word → Prop
  | not : IsSingle '!' .not
  | and : IsSingle '&' .and
  | or : IsSingle '|' .or
  | opening : IsSingle '(' .opening
  | closing : IsSingle ')' .closing

theorem Word.isSingle_iff {c : Char} {w : Word} : IsSingle c w ↔ ofChar? c = some w := by
  constructor
  · intro h
    cases h <;> rfl
  · intro h
    unfold ofChar? at h
    split at h
    case h_6 => cases h
    all_goals
      cases h
      constructor

theorem Word.not_isSingle_iff {c : Char} : (∀ w, ¬ IsSingle c w) ↔ ofChar? c = none := by
  simp only [isSingle_iff, Option.eq_none_iff_forall_ne_some, ne_eq]

namespace Lexeme

/-- The position of the first character of a find. -/
def position : Lexeme → Nat
  | .token t => t.position
  | .invalid _ position => position

/-- The characters of a find. -/
def chars : Lexeme → List Char
  | .token t => t.word.text.toList
  | .invalid c _ => [c]

/-- Whether a find takes in the character at a place. -/
def Covers (found : Lexeme) (i : Nat) : Prop :=
  found.position ≤ i ∧ i < found.position + found.chars.length

end Lexeme

/-- Whether an identifier spells out the text from a place on and could reach no further, neither to
the left nor to the right. -/
structure MaximalRun (cs : List Char) (start : Nat) (name : String) : Prop where
  isName : IsName name
  slice : (cs.drop start).take name.toList.length = name.toList
  before {i : Nat} {c : Char} (hi : i + 1 = start) (hc : cs[i]? = some c) : isWordChar c = false
  after {c : Char} (hc : cs[start + name.toList.length]? = some c) : isWordChar c = false

/-- What there is to find in a text. -/
inductive Occurs (cs : List Char) : Lexeme → Prop
  | identifier {start name} (h : MaximalRun cs start name) :
      Occurs cs (.token ⟨.identifier name, start⟩)
  | word {i c w} (hc : cs[i]? = some c) (h : Word.IsSingle c w) :
      Occurs cs (.token ⟨w, i⟩)
  | refused {i c} (hc : cs[i]? = some c) (hlayout : Text.isLayout c = false)
      (hword : isWordChar c = false) (h : ∀ w, ¬ Word.IsSingle c w) :
      Occurs cs (.invalid c i)

/-- Whether finds cover a text without its layout, each of them where it stands in the text. -/
structure Tiles (cs : List Char) (found : List Lexeme) : Prop where
  ascending : found.Pairwise fun l m => l.position < m.position
  mem_iff {l : Lexeme} : l ∈ found ↔ Occurs cs l
  slice {l : Lexeme} (h : l ∈ found) : (cs.drop l.position).take l.chars.length = l.chars
  covered {i : Nat} {c : Char} (hc : cs[i]? = some c) (h : Text.isLayout c = false) :
    ∃! l, l ∈ found ∧ l.Covers i
  uncovered {i : Nat} {c : Char} (hc : cs[i]? = some c) (h : Text.isLayout c = true) :
    ∀ l ∈ found, ¬ l.Covers i

namespace MaximalRun

variable {cs : List Char} {start i : Nat} {name : String}

theorem getElem?_add (h : MaximalRun cs start name) {k : Nat} (hk : k < name.toList.length) :
    cs[start + k]? = name.toList[k]? := by
  rw [← h.slice, List.getElem?_take_of_lt hk, List.getElem?_drop]

theorem isWordChar (h : MaximalRun cs start name) (hle : start ≤ i)
    (hlt : i < start + name.toList.length) : ∃ c, cs[i]? = some c ∧ isWordChar c = true := by
  obtain ⟨k, rfl⟩ := Nat.exists_eq_add_of_le hle
  have hk : k < name.toList.length := by omega
  refine ⟨name.toList[k], ?_, h.isName.2 _ (List.getElem_mem hk)⟩
  rw [h.getElem?_add hk, List.getElem?_eq_getElem hk]

/-- Of two runs that share a character neither begins later than the other. -/
theorem start_le {start' : Nat} {name' : String} (h : MaximalRun cs start name)
    (h' : MaximalRun cs start' name') (hlt : i < start + name.toList.length)
    (hle' : start' ≤ i) : start' ≤ start := by
  by_contra hgt
  obtain ⟨c, hc, hword⟩ := h.isWordChar (i := start' - 1) (by omega) (by omega)
  have hnot := h'.before (by omega) hc
  rw [hword] at hnot
  cases hnot

theorem length_le {name' : String} (h : MaximalRun cs start name)
    (h' : MaximalRun cs start name') : name'.toList.length ≤ name.toList.length := by
  by_contra hgt
  obtain ⟨c, hc, hword⟩ :=
    h'.isWordChar (i := start + name.toList.length) (Nat.le_add_right _ _) (by omega)
  have hnot := h.after hc
  rw [hword] at hnot
  cases hnot

/-- A character stands in one run at most. -/
theorem unique {start' : Nat} {name' : String} (h : MaximalRun cs start name)
    (h' : MaximalRun cs start' name') (hle : start ≤ i) (hlt : i < start + name.toList.length)
    (hle' : start' ≤ i) (hlt' : i < start' + name'.toList.length) :
    start = start' ∧ name = name' := by
  obtain rfl : start = start' :=
    Nat.le_antisymm (h'.start_le h hlt' hle) (h.start_le h' hlt hle')
  have hlength : name.toList.length = name'.toList.length :=
    Nat.le_antisymm (h'.length_le h) (h.length_le h')
  refine ⟨rfl, String.toList_inj.mp ?_⟩
  rw [← h.slice, ← h'.slice, hlength]

end MaximalRun

/-- The find at a character that stands in no identifier. -/
def Lexeme.single (c : Char) (i : Nat) : Lexeme :=
  match Word.ofChar? c with
  | some w => .token ⟨w, i⟩
  | none => .invalid c i

namespace Occurs

variable {cs : List Char} {l m : Lexeme} {i : Nat}

theorem chars_pos (h : Occurs cs l) : 0 < l.chars.length := by
  cases h with
  | identifier h =>
      refine List.length_pos_iff.mpr fun hnil => h.isName.1 ?_
      exact String.toList_eq_nil_iff.mp hnil
  | word hc h =>
      rw [Lexeme.chars, Word.toList_text_ofChar (Word.isSingle_iff.mp h)]
      exact Nat.one_pos
  | refused => exact Nat.one_pos

theorem slice (h : Occurs cs l) : (cs.drop l.position).take l.chars.length = l.chars := by
  have hsingle {i : Nat} {c : Char} (hc : cs[i]? = some c) : (cs.drop i).take 1 = [c] := by
    rw [List.take_one, List.head?_drop, hc]
    rfl
  cases h with
  | identifier h => exact h.slice
  | word hc h =>
      rw [Lexeme.chars, Word.toList_text_ofChar (Word.isSingle_iff.mp h)]
      exact hsingle hc
  | refused hc => exact hsingle hc

/-- The character at a place tells how a find that takes it in came about. -/
theorem of_covers (h : Occurs cs l) (hi : l.Covers i) :
    ∃ c, cs[i]? = some c ∧ Text.isLayout c = false ∧
      (isWordChar c = true → ∃ start name, l = .token ⟨.identifier name, start⟩ ∧
        MaximalRun cs start name) ∧
      (isWordChar c = false → l = .single c i) := by
  obtain ⟨hle, hlt⟩ := hi
  cases h with
  | @identifier start name h =>
      obtain ⟨c, hc, hword⟩ := h.isWordChar hle hlt
      refine ⟨c, hc, isLayout_of_isWordChar hword, fun _ => ⟨start, name, rfl, h⟩, fun hnot => ?_⟩
      rw [hword] at hnot
      cases hnot
  | @word start c w hc h =>
      rw [Word.isSingle_iff] at h
      obtain ⟨hlayout, hword⟩ := isLayout_isWordChar_of_ofChar? h
      rw [Lexeme.chars, Word.toList_text_ofChar h] at hlt
      obtain rfl : start = i := Nat.le_antisymm hle (Nat.le_of_lt_succ hlt)
      refine ⟨c, hc, hlayout, fun hyes => ?_, fun _ => ?_⟩
      · rw [hword] at hyes
        cases hyes
      · rw [Lexeme.single, h]
  | @refused start c hc hlayout hword h =>
      rw [Word.not_isSingle_iff] at h
      obtain rfl : start = i := Nat.le_antisymm hle (Nat.le_of_lt_succ hlt)
      refine ⟨c, hc, hlayout, fun hyes => ?_, fun _ => ?_⟩
      · rw [hword] at hyes
        cases hyes
      · rw [Lexeme.single, h]

/-- A character belongs to one find at most. -/
theorem eq_of_covers (hl : Occurs cs l) (hm : Occurs cs m) (hli : l.Covers i) (hmi : m.Covers i) :
    l = m := by
  obtain ⟨c, hc, -, hrun, hsingle⟩ := hl.of_covers hli
  obtain ⟨c', hc', -, hrun', hsingle'⟩ := hm.of_covers hmi
  obtain rfl := Option.some.inj (hc.symm.trans hc')
  cases hword : isWordChar c with
  | true =>
      obtain ⟨start, name, rfl, h⟩ := hrun hword
      obtain ⟨start', name', rfl, h'⟩ := hrun' hword
      obtain ⟨rfl, rfl⟩ := h.unique h' hli.1 hli.2 hmi.1 hmi.2
      rfl
  | false => rw [hsingle hword, hsingle' hword]

end Occurs

/-- What is known of the finds from a place of a text on. -/
structure TilesFrom (cs : List Char) (start : Nat) (found : List Lexeme) : Prop where
  ascending : found.Pairwise fun l m => l.position < m.position
  occurs {l : Lexeme} (h : l ∈ found) : start ≤ l.position ∧ Occurs cs l
  covered {i : Nat} {c : Char} (hi : start ≤ i) (hc : cs[i]? = some c)
    (h : Text.isLayout c = false) : ∃ l ∈ found, l.Covers i

namespace TilesFrom

variable {cs : List Char} {start : Nat} {found : List Lexeme}

theorem nil (h : cs.length ≤ start) : TilesFrom cs start [] where
  ascending := .nil
  occurs h := nomatch h
  covered hi hc _ := by
    rw [List.getElem?_eq_none (Nat.le_trans h hi)] at hc
    cases hc

theorem skip {c : Char} (hc : cs[start]? = some c) (hlayout : Text.isLayout c = true)
    (h : TilesFrom cs (start + 1) found) : TilesFrom cs start found where
  ascending := h.ascending
  occurs hl := ⟨Nat.le_of_succ_le (h.occurs hl).1, (h.occurs hl).2⟩
  covered {i d} hi hd hnot := by
    rcases Nat.eq_or_lt_of_le hi with rfl | hlt
    · obtain rfl := Option.some.inj (hc.symm.trans hd)
      rw [hlayout] at hnot
      cases hnot
    · exact h.covered hlt hd hnot

theorem cons {l : Lexeme} (hl : Occurs cs l) (hstart : l.position = start)
    (h : TilesFrom cs (start + l.chars.length) found) : TilesFrom cs start (l :: found) where
  ascending := by
    refine List.pairwise_cons.mpr ⟨fun m hm => ?_, h.ascending⟩
    have hpos := hl.chars_pos
    have hle := (h.occurs hm).1
    omega
  occurs {m} hm := by
    rcases List.mem_cons.mp hm with rfl | hm
    · exact ⟨Nat.le_of_eq hstart.symm, hl⟩
    · exact ⟨Nat.le_trans (Nat.le_add_right _ _) (h.occurs hm).1, (h.occurs hm).2⟩
  covered {i c} hi hc hnot := by
    by_cases hlt : i < start + l.chars.length
    · exact ⟨l, List.mem_cons_self, hstart ▸ hi, hstart ▸ hlt⟩
    · obtain ⟨m, hm, hcovers⟩ := h.covered (Nat.not_lt.mp hlt) hc hnot
      exact ⟨m, List.mem_cons_of_mem l hm, hcovers⟩

end TilesFrom

theorem Cut.concat {c : Char} (hc : isWordChar c = false) (left right : List Char) :
    Cut (left ++ [c]) right := by
  refine .inl ?_
  rw [List.getLast?_concat, Option.any_some, hc]

theorem getElem?_length_append (before : List Char) (c : Char) (rest : List Char) :
    (before ++ c :: rest)[before.length]? = some c := by
  simp

/-- The run that a scan takes from where an identifier begins reaches as far as it can. -/
theorem maximalRun_takeWhile {before rest : List Char} {c : Char} (hcut : Cut before (c :: rest))
    (hc : isWordChar c = true) :
    MaximalRun (before ++ c :: rest) before.length
      (String.ofList (c :: rest.takeWhile isWordChar)) where
  isName := isName_takeWhile hc rest
  slice := by
    rw [List.drop_left, ← takeWhile_append_dropWhile_isWordChar c rest, List.take_left]
  before {i d} hi hd := by
    have hlast : before.getLast? = some d := by
      rw [List.getLast?_eq_getElem?, ← hi, Nat.add_sub_cancel]
      rwa [List.getElem?_append_left (by omega)] at hd
    rcases hcut with hend | hbegin
    · rwa [hlast, Option.any_some] at hend
    · rw [List.head?_cons, Option.any_some, hc] at hbegin
      cases hbegin
  after {d} hd := by
    have hend := head?_dropWhile_isWordChar rest
    rw [← takeWhile_append_dropWhile_isWordChar c rest, ← List.append_assoc,
      List.getElem?_append_right (by simp), List.length_append, Nat.sub_self] at hd
    rwa [List.head?_eq_getElem?, hd, Option.any_some] at hend

/-- After a part that ends with a find, a scan goes on to find what there is in the whole. -/
theorem tilesFrom_scan (before : List Char) {cs : List Char} (hcut : Cut before cs) :
    TilesFrom (before ++ cs) before.length (scan before.length cs) := by
  generalize hposition : before.length = position
  fun_induction scan position cs generalizing before with
  | case1 position =>
      rw [List.append_nil]
      exact .nil (Nat.le_of_eq hposition)
  | case2 position c rest hlayout ih =>
      subst hposition
      have hrest := ih (before ++ [c]) (.concat (isWordChar_of_isLayout hlayout) before rest)
        List.length_append
      rw [List.append_assoc] at hrest
      exact .skip (getElem?_length_append before c rest) hlayout hrest
  | case3 position c rest hlayout hword tail =>
      rename_i ih
      subst hposition
      let name := String.ofList (c :: tail)
      have hsplit : name.toList ++ rest.dropWhile isWordChar = c :: rest :=
        takeWhile_append_dropWhile_isWordChar c rest
      have hlength : (before ++ name.toList).length = before.length + 1 + tail.length := by
        rw [List.length_append, String.toList_ofList, List.length_cons]
        omega
      have hrest := ih (before ++ name.toList) (.inr (head?_dropWhile_isWordChar rest)) hlength
      rw [List.append_assoc, hsplit, ← hlength, List.length_append] at hrest
      refine .cons (.identifier (maximalRun_takeWhile hcut hword)) rfl ?_
      rw [← hlength, List.length_append]
      exact hrest
  | case4 position c rest hlayout hword word hof ih =>
      subst hposition
      have hword : isWordChar c = false := (isLayout_isWordChar_of_ofChar? hof).2
      have hrest := ih (before ++ [c]) (.concat hword before rest) List.length_append
      rw [List.append_assoc] at hrest
      refine .cons (.word (getElem?_length_append before c rest) (Word.isSingle_iff.mpr hof)) rfl ?_
      rwa [Lexeme.chars, Word.toList_text_ofChar hof]
  | case5 position c rest hlayout hword hof ih =>
      subst hposition
      have hword : isWordChar c = false := Bool.eq_false_iff.mpr hword
      have hrest := ih (before ++ [c]) (.concat hword before rest) List.length_append
      rw [List.append_assoc] at hrest
      exact .cons (.refused (getElem?_length_append before c rest) (Bool.eq_false_iff.mpr hlayout)
        hword (Word.not_isSingle_iff.mpr hof)) rfl hrest

/-- The finds from the beginning of a text on are all that there is to find in it. -/
theorem TilesFrom.tiles {cs : List Char} {found : List Lexeme} (h : TilesFrom cs 0 found) :
    Tiles cs found where
  ascending := h.ascending
  mem_iff {l} := by
    refine ⟨fun hl => (h.occurs hl).2, fun hl => ?_⟩
    have hself : l.Covers l.position := ⟨Nat.le_refl _, Nat.lt_add_of_pos_right hl.chars_pos⟩
    obtain ⟨c, hc, hlayout, -⟩ := hl.of_covers hself
    obtain ⟨m, hm, hcovers⟩ := h.covered (Nat.zero_le _) hc hlayout
    rw [hl.eq_of_covers (h.occurs hm).2 hself hcovers]
    exact hm
  slice hl := (h.occurs hl).2.slice
  covered hc hlayout := by
    obtain ⟨l, hl, hcovers⟩ := h.covered (Nat.zero_le _) hc hlayout
    refine ⟨l, ⟨hl, hcovers⟩, ?_⟩
    rintro m ⟨hm, hcovers'⟩
    exact (h.occurs hm).2.eq_of_covers (h.occurs hl).2 hcovers' hcovers
  uncovered hc hlayout l hl hcovers := by
    obtain ⟨d, hd, hnot, -⟩ := (h.occurs hl).2.of_covers hcovers
    obtain rfl := Option.some.inj (hc.symm.trans hd)
    rw [hlayout] at hnot
    cases hnot

theorem tiles_lexemes (text : String) : Tiles text.toList (lexemes text) :=
  (tilesFrom_scan [] (.inl rfl)).tiles

/-- A text is tiled in one way. -/
theorem Tiles.unique {cs : List Char} {found found' : List Lexeme} (h : Tiles cs found)
    (h' : Tiles cs found') : found = found' := by
  have : Std.Irrefl fun l m : Lexeme => l.position < m.position := ⟨fun l => Nat.lt_irrefl _⟩
  have : Std.Antisymm fun l m : Lexeme => l.position < m.position :=
    ⟨fun l m hlm hml => absurd (Nat.lt_trans hlm hml) (Nat.lt_irrefl _)⟩
  exact h.ascending.eq_of_mem_iff h'.ascending fun l => h.mem_iff.trans h'.mem_iff.symm

/-- What the finds in a text make of it: it is empty if it is blank, or else the first character
that is refused is its fault, or else it has the tokens that were found. -/
inductive ReadAs (text : String) : Except SyntaxError (List Token) → Prop
  | empty (h : ∀ c ∈ text.toList, Text.isBlank c = true) : ReadAs text (.error .empty)
  | refused {before : List Token} {c position after}
      (hblank : ¬ ∀ c ∈ text.toList, Text.isBlank c = true)
      (h : lexemes text = before.map .token ++ .invalid c position :: after) :
      ReadAs text (.error (.invalidCharacter c position))
  | tokens {tokens : List Token} (hblank : ¬ ∀ c ∈ text.toList, Text.isBlank c = true)
      (h : lexemes text = tokens.map .token) (hne : tokens ≠ []) : ReadAs text (.ok tokens)

/-- There is something to find in a text that is not blank. -/
theorem lexemes_ne_nil {text : String} (h : ¬ ∀ c ∈ text.toList, Text.isBlank c = true) :
    lexemes text ≠ [] := by
  simp only [not_forall] at h
  obtain ⟨c, hc, hblank⟩ := h
  have hlayout : Text.isLayout c = false :=
    Bool.eq_false_iff.mpr fun hlayout => hblank (Text.isBlank_of_isLayout hlayout)
  obtain ⟨i, hi⟩ := List.getElem?_of_mem hc
  obtain ⟨l, ⟨hl, -⟩, -⟩ := (tiles_lexemes text).covered hi hlayout
  exact List.ne_nil_of_mem hl

theorem tokenize_eq_iff {text : String} {result : Except SyntaxError (List Token)} :
    tokenize text = result ↔ ReadAs text result := by
  constructor
  · rintro rfl
    rw [tokenize]
    by_cases hblank : text.toList.all Text.isBlank = true
    · rw [if_pos hblank]
      exact .empty (List.all_eq_true.mp hblank)
    · rw [if_neg hblank]
      rw [List.all_eq_true] at hblank
      cases hcollect : collect (lexemes text) with
      | error e =>
          obtain ⟨before, c, position, after, h, rfl⟩ := collect_eq_error.mp hcollect
          exact .refused hblank h
      | ok tokens =>
          have h := collect_eq_ok.mp hcollect
          refine .tokens hblank h fun hnil => lexemes_ne_nil hblank ?_
          rw [h, hnil, List.map_nil]
  · intro h
    rw [tokenize]
    cases h with
    | empty h => rw [if_pos (List.all_eq_true.mpr h)]
    | refused hblank h =>
        rw [if_neg (mt List.all_eq_true.mp hblank)]
        exact collect_eq_error.mpr ⟨_, _, _, _, h, rfl⟩
    | tokens hblank h hne =>
        rw [if_neg (mt List.all_eq_true.mp hblank)]
        exact collect_eq_ok.mpr h

/-- What is found in a text covers it without its layout and is all there is to find. The text is
read as its finds say, up to the first one that is refused. -/
theorem lexemes_tile (text : String) :
    Tiles text.toList (lexemes text) ∧
    (∀ found, Tiles text.toList found → found = lexemes text) ∧
    ∀ result, tokenize text = result ↔ ReadAs text result :=
  ⟨tiles_lexemes text, fun _ h => h.unique (tiles_lexemes text), fun _ => tokenize_eq_iff⟩

/-- A vertical tab is blank but no layout, so it is refused, and what comes after it is still found.
-/
theorem lexemes_tile_refused :
    let text := " a_1\x0b&é2 "
    lexemes text = [.token ⟨.identifier "a_1", 1⟩, .invalid '\x0b' 4, .token ⟨.and, 5⟩,
      .invalid 'é' 6, .token ⟨.identifier "2", 7⟩] ∧
    tokenize text = .error (.invalidCharacter '\x0b' 4) ∧
    (∃! l, l ∈ lexemes text ∧ l.Covers 3) ∧ (∀ l ∈ lexemes text, ¬ l.Covers 8) ∧
    tokenize "\x0b " = .error .empty := by
  intro text
  have hlexemes : lexemes text = [.token ⟨.identifier "a_1", 1⟩, .invalid '\x0b' 4,
      .token ⟨.and, 5⟩, .invalid 'é' 6, .token ⟨.identifier "2", 7⟩] := by
    decide +kernel
  have hrefused : lexemes text = [⟨.identifier "a_1", 1⟩].map Lexeme.token ++
      .invalid '\x0b' 4 :: [.token ⟨.and, 5⟩, .invalid 'é' 6, .token ⟨.identifier "2", 7⟩] :=
    hlexemes
  obtain ⟨htiles, -, hread⟩ := lexemes_tile text
  have hblank : ¬ text.toList.all Text.isBlank = true := by decide
  refine ⟨hlexemes, (hread _).mpr (.refused (mt List.all_eq_true.mpr hblank) hrefused), ?_, ?_, ?_⟩
  · exact htiles.covered (c := '1') (by decide) (by decide)
  · exact htiles.uncovered (c := ' ') (by decide) (by decide)
  · exact ((lexemes_tile "\x0b ").2.2 _).mpr (.empty (List.all_eq_true.mp (by decide)))

end FilterLogic.Expr
