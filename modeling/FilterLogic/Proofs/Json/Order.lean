import FilterLogic.Json.Order
import FilterLogic.Proofs.Number.Rounding

/-!
# The order of JSON values

Two values of a kind that has an order can be compared. Integers that fit signed words are compared
exactly, and other ones by their nearest doubles, which does not exchange them but can make them
equal.
-/

namespace FilterLogic.Json

/-- Whether an integer fits a word, signed or unsigned, as those do that are read from text. -/
def IsWord (n : Int) : Prop := -9223372036854775808 ≤ n ∧ n < 18446744073709551616

instance (n : Int) : Decidable (IsWord n) := inferInstanceAs (Decidable (_ ∧ _))

theorem IsWord.log2_lt {n : Int} (h : IsWord n) : n.natAbs.log2 < 1023 := by
  obtain ⟨hlow, hhigh⟩ := h
  rcases Nat.eq_zero_or_pos n.natAbs with hzero | hpos
  · rw [hzero]
    decide
  · have hsize : n.natAbs.log2 < 64 := by
      apply (Nat.log2_lt (Nat.pos_iff_ne_zero.mp hpos)).mpr
      omega
    omega

/-- Whether two integers are compared exactly: they are the same, both fit signed words, or they
have different nearest doubles. -/
def ComparedExactly (a b : Int) : Prop :=
  a = b ∨ (Number.fitsSigned a = true ∧ Number.fitsSigned b = true) ∨
    Binary64.ofInt? a ≠ Binary64.ofInt? b

instance (a b : Int) : Decidable (ComparedExactly a b) :=
  inferInstanceAs (Decidable (_ ∨ _ ∨ _))

namespace Number

variable {a b : Int}

/-- Integers that do not both fit signed words are compared as rounded to doubles. -/
theorem order?_integers (ha : IsWord a) (hb : IsWord b) :
    order? (.integer a) (.integer b) =
      if fitsSigned a && fitsSigned b then some (compare a b)
      else some (compare (Binary64.nearest a) (Binary64.nearest b)) := by
  obtain ⟨x, y, hx, hy, horder⟩ := Binary64.exists_order_ofInt? ha.log2_lt hb.log2_lt
  rw [order?, hx, hy, ← horder]
  rfl

/-- Rounding may make two integers equal but not exchange them. -/
theorem compare_nearest :
    compare (Binary64.nearest a) (Binary64.nearest b) =
      if Binary64.nearest a = Binary64.nearest b then .eq else compare a b := by
  by_cases hnearest : Binary64.nearest a = Binary64.nearest b
  · rw [if_pos hnearest, compare_eq_iff_eq]
    exact hnearest
  · rw [if_neg hnearest]
    rcases lt_trichotomy a b with h | h | h
    · rw [compare_lt_iff_lt.mpr h, compare_lt_iff_lt]
      exact lt_of_le_of_ne (Binary64.nearest_mono h.le) hnearest
    · exact absurd (congrArg Binary64.nearest h) hnearest
    · rw [compare_gt_iff_gt.mpr h, compare_gt_iff_gt]
      exact lt_of_le_of_ne (Binary64.nearest_mono h.le) (Ne.symm hnearest)

/-- Integers that are not compared exactly are taken to be equal. -/
theorem order?_of_word (ha : IsWord a) (hb : IsWord b) :
    order? (.integer a) (.integer b) =
      some (if ComparedExactly a b then compare a b else .eq) := by
  have hdouble := Binary64.ofInt?_eq_iff ha.log2_lt hb.log2_lt
  rw [order?_integers ha hb, compare_nearest]
  unfold ComparedExactly
  by_cases hsigned : fitsSigned a = true ∧ fitsSigned b = true
  · simp [hsigned]
  · have hsigned' : ¬ (fitsSigned a && fitsSigned b) = true := by
      rwa [Bool.and_eq_true]
    rw [if_neg hsigned']
    by_cases hnearest : Binary64.nearest a = Binary64.nearest b
    · by_cases heq : a = b
      · subst heq
        simp
      · simp [hsigned, hdouble.mpr hnearest, hnearest, heq]
    · simp [hdouble, hnearest]

end Number

namespace Value

/-- The scales of values: those on one scale can be compared with each other. -/
inductive Scale where
  | numbers
  | texts
  | booleans
  deriving DecidableEq

/-- The scale that a value is on. -/
def scale? : Value → Option Scale
  | .number _ => some .numbers
  | .text _ => some .texts
  | .bool _ => some .booleans
  | _ => none

/-- Whether a value is no integer beyond the words, as none is that is read from text. -/
def Readable : Value → Prop
  | .number (.integer n) => IsWord n
  | _ => True

theorem exists_toDouble? {a : Number} (h : (Value.number a).Readable) :
    ∃ x, a.toDouble? = some x := by
  cases a with
  | integer n =>
      obtain ⟨x, hx, -⟩ := Binary64.exists_ofInt? (IsWord.log2_lt h)
      exact ⟨x, hx⟩
  | double x => exact ⟨x, rfl⟩

/-- Numbers that are read from text can be compared, since each has a nearest double. -/
theorem exists_order?_numbers {a b : Number} (ha : (Value.number a).Readable)
    (hb : (Value.number b).Readable) : ∃ o, Number.order? a b = some o := by
  obtain ⟨x, hx⟩ := exists_toDouble? ha
  obtain ⟨y, hy⟩ := exists_toDouble? hb
  cases a with
  | integer m =>
      cases b with
      | integer n => exact ⟨_, Number.order?_of_word ha hb⟩
      | double z => exact ⟨x.order y, by simp [Number.order?, hx, hy]⟩
  | double z => exact ⟨x.order y, by simp [Number.order?, hx, hy]⟩

/-- A value cannot be compared with another one exactly if it is not on its scale. -/
theorem order?_eq_none_iff {x v : Value} {s : Scale} (hx : x.Readable) (hv : v.Readable)
    (hs : v.scale? = some s) : x.order? v = none ↔ x.scale? ≠ some s := by
  cases v with
  | number b =>
      cases hs
      cases x with
      | number a =>
          obtain ⟨o, ho⟩ := exists_order?_numbers hx hv
          simp [order?, scale?, ho]
      | _ => simp [order?, scale?]
  | text b =>
      cases hs
      cases x <;> simp [order?, scale?]
  | bool b =>
      cases hs
      cases x <;> simp [order?, scale?]
  | _ => exact nomatch hs

/-- Two numbers, two texts or two booleans. -/
inductive Comparable : Value → Value → Prop
  | numbers (a b : Number) : Comparable (.number a) (.number b)
  | texts (a b : String) : Comparable (.text a) (.text b)
  | booleans (a b : Bool) : Comparable (.bool a) (.bool b)

theorem Comparable.exists_order? {x v : Value} (h : x.Comparable v) (hx : x.Readable)
    (hv : v.Readable) : ∃ o, x.order? v = some o := by
  cases h with
  | numbers a b => exact exists_order?_numbers hx hv
  | texts a b => exact ⟨_, rfl⟩
  | booleans a b => exact ⟨_, rfl⟩

theorem order?_of_not_comparable {x v : Value} (h : ¬ x.Comparable v) : x.order? v = none := by
  unfold order?
  split
  · exact absurd (.numbers _ _) h
  · exact absurd (.texts _ _) h
  · exact absurd (.booleans _ _) h
  · rfl

end Value

end FilterLogic.Json
