import FilterLogic.Text.Suggestion
import Mathlib.Order.Bounds.Defs

/-!
# What the edit distance measures

The distance of two words is the least number of edits that turn one into the other, where an edit
inserts, deletes or substitutes one character anywhere. It is computed by rows, from which a
recursion on both words is read off. Following the recursion gives as many edits as the distance
says; that there are never fewer holds because one edit changes the distance by one at most.
-/

namespace FilterLogic.Text

/-- One character is inserted, deleted or substituted. -/
inductive Edit : List Char → List Char → Prop
  | insert (before : List Char) (c : Char) (after : List Char) :
      Edit (before ++ after) (before ++ c :: after)
  | delete (before : List Char) (c : Char) (after : List Char) :
      Edit (before ++ c :: after) (before ++ after)
  | substitute (before : List Char) (c d : Char) (after : List Char) :
      Edit (before ++ c :: after) (before ++ d :: after)

/-- A number of edits, one after the other. -/
inductive Edits : Nat → List Char → List Char → Prop
  | nil (word : List Char) : Edits 0 word word
  | cons {n word word' word''} (h : Edit word word') (hrest : Edits n word' word'') :
      Edits (n + 1) word word''

theorem Edit.cons {left right : List Char} (h : Edit left right) (c : Char) :
    Edit (c :: left) (c :: right) := by
  cases h with
  | insert before d after => exact .insert (c :: before) d after
  | delete before d after => exact .delete (c :: before) d after
  | substitute before d e after => exact .substitute (c :: before) d e after

theorem Edits.keep {n : Nat} {left right : List Char} (h : Edits n left right) (c : Char) :
    Edits n (c :: left) (c :: right) := by
  induction h with
  | nil word => exact .nil (c :: word)
  | cons h _ ih => exact .cons (h.cons c) ih

namespace EditDistance

/-- The row of distances to the suffixes of a word is the one for a longer word without its first
entry. -/
theorem tail_row (left : List Char) (d : Char) (right : List Char) :
    (row left (d :: right)).tail = row left right := by
  induction left with
  | nil => rfl
  | cons c left ih =>
      change nextRow c right (row left (d :: right)).tail = nextRow c right (row left right)
      rw [ih]

end EditDistance

open EditDistance

variable {left right : List Char} {c d : Char}

theorem editDistance_nil_cons (d : Char) (right : List Char) :
    editDistance [] (d :: right) = editDistance [] right + 1 := rfl

theorem editDistance_cons_nil (c : Char) (left : List Char) :
    editDistance (c :: left) [] = editDistance left [] + 1 := rfl

theorem editDistance_cons_cons (c d : Char) (left right : List Char) :
    editDistance (c :: left) (d :: right) =
      min (editDistance left right + if c = d then 0 else 1)
        (min (editDistance (c :: left) right + 1) (editDistance left (d :: right) + 1)) := by
  change min ((row left (d :: right)).tail.headD 0 + if c = d then 0 else 1)
    (min ((nextRow c right (row left (d :: right)).tail).headD 0 + 1)
      ((row left (d :: right)).headD 0 + 1)) = _
  rw [tail_row]
  rfl

theorem editDistance_cons_cons_cases (c d : Char) (left right : List Char) :
    editDistance (c :: left) (d :: right) =
        editDistance left right + (if c = d then 0 else 1) ∨
      editDistance (c :: left) (d :: right) = editDistance (c :: left) right + 1 ∨
      editDistance (c :: left) (d :: right) = editDistance left (d :: right) + 1 := by
  have h := editDistance_cons_cons c d left right
  omega

theorem editDistance_self (word : List Char) : editDistance word word = 0 := by
  induction word with
  | nil => rfl
  | cons c word ih =>
      rw [editDistance_cons_cons, ih, if_pos rfl]
      exact Nat.zero_min _

/-- A word is turned into another one by as many edits as their distance says. -/
theorem edits_editDistance (left right : List Char) :
    Edits (editDistance left right) left right := by
  induction left generalizing right with
  | nil =>
      induction right with
      | nil => exact .nil []
      | cons d right ih =>
          rw [editDistance_nil_cons]
          exact .cons (.insert [] d []) (ih.keep d)
  | cons c left ih =>
      induction right with
      | nil =>
          rw [editDistance_cons_nil]
          exact .cons (.delete [] c left) (ih [])
      | cons d right ihright =>
          have hsubstitute : Edits (editDistance left right + if c = d then 0 else 1)
              (c :: left) (d :: right) := by
            split
            · next h => exact h ▸ (ih right).keep c
            · exact .cons (.substitute [] c d left) ((ih right).keep d)
          have hinsert : Edits (editDistance (c :: left) right + 1) (c :: left) (d :: right) :=
            .cons (.insert [] d (c :: left)) (ihright.keep d)
          have hdelete : Edits (editDistance left (d :: right) + 1) (c :: left) (d :: right) :=
            .cons (.delete [] c left) (ih (d :: right))
          -- the distance is the least of the three, hence one of them
          rcases editDistance_cons_cons_cases c d left right with h | h | h
          · exact h ▸ hsubstitute
          · exact h ▸ hinsert
          · exact h ▸ hdelete

theorem editDistance_cons_le (c : Char) (left right : List Char) :
    editDistance (c :: left) right ≤ editDistance left right + 1 := by
  cases right with
  | nil => exact Nat.le_refl _
  | cons d right =>
      rw [editDistance_cons_cons]
      omega

theorem editDistance_cons_right_le (left : List Char) (d : Char) (right : List Char) :
    editDistance left (d :: right) ≤ editDistance left right + 1 := by
  cases left with
  | nil => exact Nat.le_refl _
  | cons c left =>
      rw [editDistance_cons_cons]
      omega

theorem editDistance_le_cons (c : Char) (left right : List Char) :
    editDistance left right ≤ editDistance (c :: left) right + 1 := by
  induction right with
  | nil =>
      rw [editDistance_cons_nil]
      omega
  | cons d right ih =>
      have hright := editDistance_cons_right_le left d right
      rw [editDistance_cons_cons]
      omega

theorem editDistance_substitute_le (c d : Char) (left right : List Char) :
    editDistance (c :: left) right ≤ editDistance (d :: left) right + 1 := by
  induction right with
  | nil => exact Nat.le_succ _
  | cons e right ih =>
      rw [editDistance_cons_cons, editDistance_cons_cons]
      split <;> split <;> omega

/-- Where one edit changes all distances by one at most, it does so behind another character. -/
theorem editDistance_cons_congr {left mid : List Char}
    (h : ∀ right, editDistance left right ≤ editDistance mid right + 1) (c : Char)
    (right : List Char) :
    editDistance (c :: left) right ≤ editDistance (c :: mid) right + 1 := by
  induction right with
  | nil => exact Nat.succ_le_succ (h [])
  | cons d right ih =>
      have hboth := h right
      have hleft := h (d :: right)
      rw [editDistance_cons_cons, editDistance_cons_cons]
      omega

theorem editDistance_le_of_edit {left mid : List Char} (h : Edit left mid) (right : List Char) :
    editDistance left right ≤ editDistance mid right + 1 := by
  -- the recursion compares a word with the ends of another one too, so the induction on what stands
  -- before the edit is for all words on the right at once
  cases h with
  | insert before c after =>
      induction before generalizing right with
      | nil => exact editDistance_le_cons c after right
      | cons d before ih => exact editDistance_cons_congr ih d right
  | delete before c after =>
      induction before generalizing right with
      | nil => exact editDistance_cons_le c after right
      | cons d before ih => exact editDistance_cons_congr ih d right
  | substitute before c d after =>
      induction before generalizing right with
      | nil => exact editDistance_substitute_le c d after right
      | cons e before ih => exact editDistance_cons_congr ih e right

theorem editDistance_le_of_edits {n : Nat} (h : Edits n left right) :
    editDistance left right ≤ n := by
  induction h with
  | nil word => exact Nat.le_of_eq (editDistance_self word)
  | @cons n word word' word'' h _ ih =>
      calc
        editDistance word word'' ≤ editDistance word' word'' + 1 := editDistance_le_of_edit h word''
        _ ≤ n + 1 := Nat.succ_le_succ ih

/-- The distance of two words is the least number of edits that turn one into the other. -/
theorem isLeast_editDistance (left right : List Char) :
    IsLeast {n | Edits n left right} (editDistance left right) :=
  ⟨edits_editDistance left right, fun _ => editDistance_le_of_edits⟩

end FilterLogic.Text
