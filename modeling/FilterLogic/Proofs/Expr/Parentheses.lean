import FilterLogic.Proofs.Expr.Compilation
import Mathlib.Data.List.Basic

/-!
# Which parentheses belong together

A parenthesis is closed by another one if what stands between them is balanced. Parentheses that
have no partner are told apart by what has been read: some words leave certain places open, and
between these everything is balanced. A closing parenthesis that comes next has a partner exactly if
a place is open, and the innermost place that is open in the end is the last one without a partner.

## Implementation notes

Partners are defined by places in the whole sequence of words, without a scan that looks for them.
That a balanced part has no partners outside of it is a matter of counting: none of its beginnings
closes more than it opens.
-/

namespace FilterLogic.Expr

/-- Words among which every parenthesis has its partner. -/
inductive Balanced : List Word → Prop
  | nil : Balanced []
  | other {w words} (hw : w.isParenthesis = false) (h : Balanced words) : Balanced (w :: words)
  | group {inner rest} (hinner : Balanced inner) (hrest : Balanced rest) :
      Balanced (.opening :: (inner ++ .closing :: rest))

/-- Whether the parenthesis opened at one place is the one closed at another. -/
def Partners (words : List Word) (i j : Nat) : Prop :=
  ∃ before inner after, Balanced inner ∧
    words = before ++ .opening :: (inner ++ .closing :: after) ∧
    i = before.length ∧ j = before.length + 1 + inner.length

/-- Whether there is a closing parenthesis at a place, and none is open that it could close. -/
def Unopened (words : List Word) (i : Nat) : Prop :=
  words[i]? = some .closing ∧ ∀ j, ¬ Partners words j i

/-- Whether there is an open parenthesis at a place, and it is not closed. -/
def Unclosed (words : List Word) (i : Nat) : Prop :=
  words[i]? = some .opening ∧ ∀ j, ¬ Partners words i j

theorem Word.count_cons_other {w : Word} (hw : w.isParenthesis = false) (words : List Word) :
    (w :: words).count .opening = words.count .opening ∧
      (w :: words).count .closing = words.count .closing := by
  cases w with
  | opening => cases hw
  | closing => cases hw
  | _ => simp

namespace Balanced

variable {words left right : List Word}

theorem append (hleft : Balanced left) (hright : Balanced right) : Balanced (left ++ right) := by
  induction hleft with
  | nil => exact hright
  | other hw _ ih => exact .other hw ih
  | group hinner _ _ ih =>
      rw [List.cons_append, List.append_assoc]
      exact .group hinner ih

theorem parenthesized {inner : List Word} (h : Balanced inner) :
    Balanced (.opening :: (inner ++ [.closing])) :=
  .group h .nil

theorem count_eq (h : Balanced words) : words.count .opening = words.count .closing := by
  induction h with
  | nil => rfl
  | @other w words hw _ ih =>
      obtain ⟨hopening, hclosing⟩ := Word.count_cons_other hw words
      rw [hopening, hclosing, ih]
  | group _ _ ihinner ihrest => simp [ihinner, ihrest]; omega

/-- No beginning of balanced words closes more than it opens. -/
theorem count_le (h : Balanced words) (hwords : words = left ++ right) :
    left.count .closing ≤ left.count .opening := by
  induction h generalizing left right with
  | nil =>
      obtain ⟨rfl, -⟩ := List.append_eq_nil_iff.mp hwords.symm
      exact Nat.le_refl _
  | @other w words hw _ ih =>
      cases left with
      | nil => simp
      | cons v left =>
          obtain ⟨rfl, hrest⟩ := List.cons.inj hwords
          obtain ⟨hopening, hclosing⟩ := Word.count_cons_other hw left
          rw [hopening, hclosing]
          exact ih hrest
  | @group inner rest hinner _ ihinner ihrest =>
      cases left with
      | nil => simp
      | cons v left =>
          obtain ⟨rfl, hrest⟩ := List.cons.inj hwords
          have hcount := hinner.count_eq
          rcases List.append_eq_append_iff.mp hrest with ⟨mid, rfl, hmid⟩ | ⟨mid, hinner', -⟩
          · cases mid with
            | nil => simp; omega
            | cons u mid =>
                obtain ⟨rfl, hafter⟩ := List.cons_eq_cons.mp hmid
                have hle := ihrest hafter
                simp; omega
          · have hle := ihinner hinner'
            simp; omega

/-- No end of balanced words opens more than it closes. -/
theorem count_le_right (h : Balanced (left ++ right)) :
    right.count .opening ≤ right.count .closing := by
  have hle := h.count_le rfl
  have heq := h.count_eq
  rw [List.count_append, List.count_append] at heq
  omega

end Balanced

theorem Partners.within {words : List Word} {i j : Nat} (h : Partners words i j)
    (left right : List Word) :
    Partners (left ++ words ++ right) (left.length + i) (left.length + j) := by
  obtain ⟨before, inner, after, hinner, rfl, rfl, rfl⟩ := h
  refine ⟨left ++ before, inner, after ++ right, hinner, by simp, by simp, ?_⟩
  rw [List.length_append]
  omega

/-- Every open parenthesis among balanced words is closed there. -/
theorem Balanced.exists_partners {words : List Word} (h : Balanced words) {i : Nat}
    (hi : words[i]? = some .opening) : ∃ j, Partners words i j := by
  induction h generalizing i with
  | nil => cases hi
  | @other w words hw _ ih =>
      cases i with
      | zero =>
          obtain rfl := Option.some.inj hi
          cases hw
      | succ i =>
          obtain ⟨j, hj⟩ := ih hi
          have hwithin := hj.within [w] []
          rw [List.append_nil, List.length_singleton, Nat.add_comm 1 i] at hwithin
          exact ⟨_, hwithin⟩
  | @group inner rest hinner _ ihinner ihrest =>
      rcases Nat.lt_trichotomy i (inner.length + 1) with hlt | rfl | hgt
      · cases i with
        | zero => exact ⟨_, [], inner, rest, hinner, rfl, rfl, rfl⟩
        | succ i =>
            rw [List.getElem?_cons_succ, List.getElem?_append_left (by omega)] at hi
            obtain ⟨j, hj⟩ := ihinner hi
            have hwithin := hj.within [.opening] (.closing :: rest)
            rw [List.length_singleton, Nat.add_comm 1 i] at hwithin
            exact ⟨_, hwithin⟩
      · rw [List.getElem?_cons_succ, List.getElem?_append_right (Nat.le_refl _), Nat.sub_self] at hi
        cases hi
      · obtain ⟨k, rfl⟩ := Nat.exists_eq_add_of_lt hgt
        have hshift :
            inner.length + 1 + k + 1 = (.opening :: (inner ++ [.closing])).length + k := by
          simp; omega
        have hsplit : .opening :: (inner ++ .closing :: rest) =
            .opening :: (inner ++ [.closing]) ++ rest := by simp
        rw [hshift, hsplit, List.getElem?_append_right (Nat.le_add_right _ _),
          Nat.add_sub_cancel_left] at hi
        obtain ⟨j, hj⟩ := ihrest hi
        have hwithin := hj.within (.opening :: (inner ++ [.closing])) []
        rw [List.append_nil, ← hsplit, ← hshift] at hwithin
        exact ⟨_, hwithin⟩

/-- Words that leave certain places open, the innermost first. -/
inductive LeavesOpen : List Word → List Nat → Prop
  | balanced {words} (h : Balanced words) : LeavesOpen words []
  | opening {before inner places} (h : LeavesOpen before places) (hinner : Balanced inner) :
      LeavesOpen (before ++ .opening :: inner) (before.length :: places)

namespace LeavesOpen

variable {words : List Word} {places : List Nat} {place : Nat}

theorem append (h : LeavesOpen words places) {rest : List Word} (hrest : Balanced rest) :
    LeavesOpen (words ++ rest) places := by
  cases h with
  | balanced h => exact .balanced (h.append hrest)
  | opening h hinner =>
      rw [List.append_assoc, List.cons_append]
      exact .opening h (hinner.append hrest)

theorem concat_opening (h : LeavesOpen words places) :
    LeavesOpen (words ++ [.opening]) (words.length :: places) :=
  .opening h .nil

theorem concat_closing (h : LeavesOpen words (place :: places)) :
    LeavesOpen (words ++ [.closing]) places := by
  cases h with
  | opening h hinner =>
      rw [List.append_assoc, List.cons_append]
      exact h.append hinner.parenthesized

theorem concat_other (h : LeavesOpen words places) {w : Word} (hw : w.isParenthesis = false) :
    LeavesOpen (words ++ [w]) places :=
  h.append (.other hw .nil)

/-- A closing parenthesis has a partner exactly if a place before it is open. -/
theorem unopened_iff (h : LeavesOpen words places) (after : List Word) :
    Unopened (words ++ .closing :: after) words.length ↔ places = [] := by
  constructor
  · rintro ⟨-, hnone⟩
    cases h with
    | balanced => rfl
    | @opening before inner places _ hinner =>
        refine absurd ⟨before, inner, after, hinner, ?_, rfl, ?_⟩ (hnone before.length)
        · rw [List.append_assoc, List.cons_append]
        · rw [List.length_append, List.length_cons]
          omega
  · rintro rfl
    refine ⟨by simp, ?_⟩
    rintro j ⟨before, inner, after', hinner, hwords, rfl, hlength⟩
    cases h with
    | balanced hbalanced =>
        have hsplit : before ++ .opening :: (inner ++ .closing :: after') =
            (before ++ .opening :: inner) ++ .closing :: after' := by simp
        rw [hsplit] at hwords
        have hlength' : words.length = (before ++ .opening :: inner).length := by
          rw [List.length_append, List.length_cons]
          omega
        obtain ⟨rfl, -⟩ := List.append_inj hwords hlength'
        -- a partner would begin an end of balanced words that opens more than it closes
        have hle := hbalanced.count_le_right
        have heq := hinner.count_eq
        simp only [List.count_cons] at hle
        simp at hle
        omega

/-- The innermost place that is left open is the last one without a partner. -/
theorem unclosed_head (h : LeavesOpen words (place :: places)) :
    Unclosed words place ∧ ∀ i, place < i → ¬ Unclosed words i := by
  cases h with
  | @opening before inner _ _ hinner =>
      refine ⟨⟨by simp, ?_⟩, ?_⟩
      · rintro j ⟨before', inner', after, hinner', hwords, hlength, -⟩
        obtain ⟨-, htail⟩ := List.append_inj hwords hlength
        have hsplit : inner = (inner' ++ [.closing]) ++ after := by
          rw [(List.cons.inj htail).2, List.append_assoc, List.singleton_append]
        -- a partner would end a beginning of balanced words that closes more than it opens
        have hle := hinner.count_le hsplit
        have heq := hinner'.count_eq
        simp at hle
        omega
      · rintro i hlt ⟨hi, hnone⟩
        obtain ⟨k, rfl⟩ := Nat.exists_eq_add_of_lt hlt
        have hshift : before.length + k + 1 = (before ++ [Word.opening]).length + k := by
          rw [List.length_append, List.length_singleton]
          omega
        have hsplit : before ++ .opening :: inner = before ++ [.opening] ++ inner := by simp
        rw [hshift, hsplit] at hi hnone
        rw [List.getElem?_append_right (Nat.le_add_right _ _), Nat.add_sub_cancel_left] at hi
        obtain ⟨j, hj⟩ := hinner.exists_partners hi
        have hwithin := hj.within (before ++ [.opening]) []
        rw [List.append_nil] at hwithin
        exact hnone _ hwithin

theorem not_unclosed (h : LeavesOpen words []) (i : Nat) : ¬ Unclosed words i := by
  rintro ⟨hi, hnone⟩
  cases h with
  | balanced h =>
      obtain ⟨j, hj⟩ := h.exists_partners hi
      exact hnone j hj

end LeavesOpen

end FilterLogic.Expr
