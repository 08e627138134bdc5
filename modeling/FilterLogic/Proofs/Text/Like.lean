import FilterLogic.Text.Like
import Mathlib.Data.List.Forall2

/-!
# What a pattern matches

A pattern matches a text if the text can be cut into consecutive pieces, one for each character of
the pattern, so that every character stands for its piece. The rows by which matching is computed
tell exactly this, for every beginning of the pattern and the text that was read so far.
-/

namespace FilterLogic.Text.Like

/-- The pieces of a text that a character of a pattern stands for. -/
inductive StandsFor : Char → List Char → Prop
  | run (piece : List Char) : StandsFor '%' piece
  | single (c : Char) : StandsFor '_' [c]
  | literal {c : Char} (hrun : c ≠ '%') (hsingle : c ≠ '_') : StandsFor c [c]

/-- A text is cut into pieces for which the characters of a pattern stand, one after the other. -/
def Matches (pattern text : List Char) : Prop :=
  ∃ pieces : List (List Char), List.Forall₂ StandsFor pattern pieces ∧ pieces.flatten = text

variable {p c : Char} {pattern text : List Char}

theorem standsFor_iff_of_ne (hp : p ≠ '%') {piece : List Char} :
    StandsFor p piece ↔ ∃ c, (p = '_' ∨ p = c) ∧ piece = [c] := by
  constructor
  · intro h
    cases h with
    | run => exact absurd rfl hp
    | single c => exact ⟨c, .inl rfl, rfl⟩
    | literal => exact ⟨p, .inr rfl, rfl⟩
  · rintro ⟨c, rfl | rfl, rfl⟩
    · exact .single c
    · by_cases hsingle : p = '_'
      · subst hsingle
        exact .single '_'
      · exact .literal hp hsingle

theorem matches_nil : Matches [] text ↔ text = [] := by
  constructor
  · rintro ⟨pieces, hpieces, rfl⟩
    cases hpieces
    rfl
  · rintro rfl
    exact ⟨[], .nil, rfl⟩

/-- The last character of a pattern stands for an end of the text, and the others match what is
before it. -/
theorem matches_concat :
    Matches (pattern ++ [p]) text ↔
      ∃ rest piece, Matches pattern rest ∧ StandsFor p piece ∧ rest ++ piece = text := by
  constructor
  · rintro ⟨pieces, hpieces, rfl⟩
    obtain rfl | ⟨pieces, piece, rfl⟩ := pieces.eq_nil_or_concat
    · simp at hpieces
    · rw [List.concat_eq_append, ← List.forall₂_reverse_iff, List.reverse_concat,
        List.reverse_concat] at hpieces
      obtain ⟨hpiece, hrest⟩ := List.forall₂_cons.mp hpieces
      exact ⟨_, piece, ⟨pieces, List.forall₂_reverse_iff.mp hrest, rfl⟩, hpiece, by simp⟩
  · rintro ⟨_, piece, ⟨pieces, hpieces, rfl⟩, hpiece, rfl⟩
    exact ⟨pieces ++ [piece], List.rel_append hpieces (.cons hpiece .nil), by simp⟩

/-- A run is over before the last character of the text or takes that too. -/
theorem matches_run_concat :
    Matches (pattern ++ ['%']) (text ++ [c]) ↔
      Matches pattern (text ++ [c]) ∨ Matches (pattern ++ ['%']) text := by
  constructor
  · intro h
    obtain ⟨rest, piece, hrest, -, htext⟩ := matches_concat.mp h
    obtain rfl | ⟨piece, d, rfl⟩ := piece.eq_nil_or_concat
    · left
      rwa [← htext, List.append_nil]
    · right
      rw [List.concat_eq_append, ← List.append_assoc] at htext
      exact matches_concat.mpr ⟨rest, piece, hrest, .run piece, List.append_inj_left' htext rfl⟩
  · rintro (h | h)
    · exact matches_concat.mpr ⟨text ++ [c], [], h, .run [], List.append_nil _⟩
    · obtain ⟨rest, piece, hrest, -, rfl⟩ := matches_concat.mp h
      exact matches_concat.mpr ⟨rest, piece ++ [c], hrest, .run _, (List.append_assoc ..).symm⟩

theorem matches_run_nil : Matches (pattern ++ ['%']) [] ↔ Matches pattern [] := by
  constructor
  · intro h
    obtain ⟨rest, piece, hrest, -, htext⟩ := matches_concat.mp h
    obtain ⟨rfl, -⟩ := List.append_eq_nil_iff.mp htext
    exact hrest
  · intro h
    exact matches_concat.mpr ⟨[], [], h, .run [], rfl⟩

/-- Every character but the run takes exactly one character of the text. -/
theorem matches_char_concat (hp : p ≠ '%') :
    Matches (pattern ++ [p]) (text ++ [c]) ↔ Matches pattern text ∧ (p = '_' ∨ p = c) := by
  constructor
  · intro h
    obtain ⟨rest, piece, hrest, hpiece, htext⟩ := matches_concat.mp h
    obtain ⟨d, hd, rfl⟩ := (standsFor_iff_of_ne hp).mp hpiece
    obtain ⟨rfl, hlast⟩ := List.append_inj' htext rfl
    obtain rfl := List.head_eq_of_cons_eq hlast
    exact ⟨hrest, hd⟩
  · rintro ⟨h, hc⟩
    exact matches_concat.mpr ⟨text, [c], h, (standsFor_iff_of_ne hp).mpr ⟨c, hc, rfl⟩, rfl⟩

theorem not_matches_char_nil (hp : p ≠ '%') : ¬ Matches (pattern ++ [p]) [] := by
  intro h
  obtain ⟨rest, piece, -, hpiece, htext⟩ := matches_concat.mp h
  obtain ⟨d, -, rfl⟩ := (standsFor_iff_of_ne hp).mp hpiece
  exact absurd htext (List.append_ne_nil_of_right_ne_nil rest (List.cons_ne_nil d []))

/-- A row tells of every beginning of a pattern that is no shorter than `before` whether it matches
a text. The rest of the pattern is what comes after `before`. -/
inductive Tells (text : List Char) : List Char → List Char → List Bool → Prop
  | last {before here} (h : here = true ↔ Matches before text) : Tells text before [] [here]
  | cons {before p pattern here row} (h : here = true ↔ Matches before text)
      (hrow : Tells text (before ++ [p]) pattern row) :
      Tells text before (p :: pattern) (here :: row)

variable {before : List Char} {row : List Bool}

theorem Tells.head (h : Tells text before pattern row) :
    ∃ here rest, row = here :: rest ∧ (here = true ↔ Matches before text) := by
  cases h with
  | last h => exact ⟨_, _, rfl, h⟩
  | cons h _ => exact ⟨_, _, rfl, h⟩

/-- The last entry tells of the whole pattern. -/
theorem Tells.getLastD (h : Tells text before pattern row) :
    row.getLastD false = true ↔ Matches (before ++ pattern) text := by
  induction h with
  | last h =>
      rw [List.append_nil]
      exact h
  | @cons before p pattern here row _ hrow ih =>
      obtain ⟨next, rest, rfl, -⟩ := hrow.head
      rw [List.append_cons]
      exact ih

theorem tells_initialEntries {left : Bool} (hleft : left = true ↔ Matches before []) :
    Tells [] before pattern (left :: initialEntries left pattern) := by
  induction pattern generalizing before left with
  | nil => exact .last hleft
  | cons p pattern ih =>
      refine .cons hleft (ih ?_)
      rw [Bool.and_eq_true, beq_iff_eq]
      by_cases hp : p = '%'
      · subst hp
        rw [matches_run_nil, ← hleft]
        exact and_iff_left rfl
      · exact iff_of_false (fun h => hp h.2) (not_matches_char_nil hp)

/-- A row for one more character of the text is found from the row above it: within a run from the
entry to the left or the one above, and for other characters from the one above to the left. -/
theorem tells_nextEntries {left diagonal : Bool} (h : Tells text before pattern (diagonal :: row))
    (hleft : left = true ↔ Matches before (text ++ [c])) :
    Tells (text ++ [c]) before pattern (left :: nextEntries c left diagonal pattern row) := by
  induction pattern generalizing before left diagonal row with
  | nil => exact .last hleft
  | cons p pattern ih =>
      obtain ⟨hdiagonal, hrow⟩ : (diagonal = true ↔ Matches before text) ∧
          Tells text (before ++ [p]) pattern row := by
        cases h with
        | cons hdiagonal hrow => exact ⟨hdiagonal, hrow⟩
      obtain ⟨above, row, rfl, habove⟩ := hrow.head
      refine .cons hleft (ih hrow ?_)
      split
      · rw [Bool.or_eq_true, matches_run_concat]
        exact or_congr hleft habove
      · rw [matches_char_concat (by decide)]
        exact hdiagonal.trans (and_iff_left (.inl rfl)).symm
      · next hrun hsingle =>
          rw [Bool.and_eq_true, beq_iff_eq, matches_char_concat hrun]
          exact and_congr hdiagonal (or_iff_right hsingle).symm

theorem tells_nextRow (h : Tells text [] pattern row) (c : Char) :
    Tells (text ++ [c]) [] pattern (nextRow pattern row c) := by
  obtain ⟨diagonal, rest, rfl, -⟩ := h.head
  refine tells_nextEntries h (iff_of_false Bool.false_ne_true fun hnil => ?_)
  exact List.append_ne_nil_of_right_ne_nil text (List.cons_ne_nil c []) (matches_nil.mp hnil)

/-- After each character of the text the row tells of the text up to there. -/
theorem tells_foldl (h : Tells text [] pattern row) (rest : List Char) :
    Tells (text ++ rest) [] pattern (rest.foldl (nextRow pattern) row) := by
  induction rest generalizing text row with
  | nil => rwa [List.append_nil]
  | cons c rest ih =>
      rw [List.append_cons]
      exact ih (tells_nextRow h c)

/-- A pattern is accepted for exactly the texts that can be cut into pieces for its characters. -/
theorem accepts_iff_matches (pattern text : List Char) :
    accepts pattern text = true ↔ Matches pattern text := by
  have hinitial : Tells [] [] pattern (initialRow pattern) :=
    tells_initialEntries (iff_of_true rfl (matches_nil.mpr rfl))
  exact (tells_foldl hinitial text).getLastD

example : accepts "%a_".toList "aab".toList = true ∧ accepts "%a_".toList "aba".toList = false := by
  decide

end FilterLogic.Text.Like
