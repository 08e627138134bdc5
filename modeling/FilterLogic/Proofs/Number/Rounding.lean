import FilterLogic.Number.Binary64
import Mathlib.Algebra.Order.Ring.Int
import Mathlib.Order.Compare

/-!
# Integers rounded to doubles

The doubles of the size of an integer are the multiples of a power of two, so rounding an integer is
rounding its quotient by that power. Rounding never exchanges two integers, but may make them equal.
-/

namespace FilterLogic.Binary64

/-- A greater numerator is rounded to no lesser integer. -/
theorem roundQuotient_mono {a b : Nat} (h : a ≤ b) (den : Nat) :
    roundQuotient a den ≤ roundQuotient b den := by
  have hquotient : a / den ≤ b / den := Nat.div_le_div_right h
  have ha := Nat.div_add_mod a den
  have hb := Nat.div_add_mod b den
  unfold roundQuotient
  by_cases heq : a / den = b / den
  · -- With the same quotient the remainders decide, and they are ordered as the numerators.
    have hremainder : a % den ≤ b % den := by
      rw [heq] at ha
      omega
    simp only [heq]
    split_ifs <;> omega
  · simp only
    split_ifs <;> omega

/-- A multiple of the denominator is rounded to the multiplier. -/
theorem roundQuotient_mul (m : Nat) {den : Nat} (hden : 0 < den) :
    roundQuotient (m * den) den = m := by
  unfold roundQuotient
  simp [Nat.mul_div_cancel m hden, hden]

/-- The distance between the doubles of the size of a natural number, as far as it is whole. -/
def spacing (n : Nat) : Nat := 2 ^ (n.log2 - 52)

/-- The natural number nearest to another one that is a double, a tie to the even multiple of the
spacing. -/
def rounded (n : Nat) : Nat := roundQuotient n (spacing n) * spacing n

theorem spacing_pos (n : Nat) : 0 < spacing n := Nat.two_pow_pos _

theorem rounded_of_log2_le {n : Nat} (h : n.log2 ≤ 52) : rounded n = n := by
  have hspacing : spacing n = 1 := by
    rw [spacing, Nat.sub_eq_zero_of_le h, pow_zero]
  rw [rounded, hspacing, Nat.mul_one]
  simpa using roundQuotient_mul n Nat.one_pos

/-- Where the spacing is more than one, `2 ^ log2 n` has the significand `2 ^ 52`. -/
theorem two_pow_log2 {n : Nat} (h : 52 ≤ n.log2) : 2 ^ n.log2 = 2 ^ 52 * spacing n := by
  rw [spacing, ← Nat.pow_add]
  congr 1
  omega

theorem le_roundQuotient {n : Nat} (hn : n ≠ 0) (h : 52 ≤ n.log2) :
    2 ^ 52 ≤ roundQuotient n (spacing n) := by
  calc
    2 ^ 52 = roundQuotient (2 ^ 52 * spacing n) (spacing n) :=
      (roundQuotient_mul _ (spacing_pos n)).symm
    _ ≤ roundQuotient n (spacing n) := by
      apply roundQuotient_mono
      rw [← two_pow_log2 h]
      exact Nat.log2_self_le hn

theorem roundQuotient_le {n : Nat} (h : 52 ≤ n.log2) :
    roundQuotient n (spacing n) ≤ 2 ^ 53 := by
  calc
    roundQuotient n (spacing n) ≤ roundQuotient (2 ^ 53 * spacing n) (spacing n) := by
      apply roundQuotient_mono
      have hlt : n < 2 ^ (n.log2 + 1) := Nat.lt_log2_self
      have hpow := two_pow_log2 h
      rw [Nat.pow_succ] at hlt
      omega
    _ = 2 ^ 53 := roundQuotient_mul _ (spacing_pos n)

/-- A rounded number lies between the powers of two around the number. -/
theorem two_pow_log2_le_rounded {n : Nat} (hn : n ≠ 0) : 2 ^ n.log2 ≤ rounded n := by
  rcases Nat.le_total n.log2 52 with h | h
  · rw [rounded_of_log2_le h]
    exact Nat.log2_self_le hn
  · rw [two_pow_log2 h]
    exact Nat.mul_le_mul_right _ (le_roundQuotient hn h)

theorem rounded_le_two_pow (n : Nat) : rounded n ≤ 2 ^ (n.log2 + 1) := by
  rcases Nat.le_total n.log2 52 with h | h
  · rw [rounded_of_log2_le h]
    exact Nat.le_of_lt Nat.lt_log2_self
  · calc
      rounded n ≤ 2 ^ 53 * spacing n := Nat.mul_le_mul_right _ (roundQuotient_le h)
      _ = 2 ^ n.log2 * 2 := by
        rw [two_pow_log2 h]
        omega
      _ = 2 ^ (n.log2 + 1) := (Nat.pow_succ _ _).symm

theorem rounded_pos {n : Nat} (hn : n ≠ 0) : 0 < rounded n :=
  Nat.lt_of_lt_of_le (Nat.two_pow_pos _) (two_pow_log2_le_rounded hn)

/-- Rounding does not exchange natural numbers. -/
theorem rounded_mono {a b : Nat} (h : a ≤ b) : rounded a ≤ rounded b := by
  rcases Nat.eq_zero_or_pos a with rfl | ha
  · rw [rounded_of_log2_le (by decide)]
    exact Nat.zero_le _
  have ha := Nat.pos_iff_ne_zero.mp ha
  have hb : b ≠ 0 := by omega
  have hlog : a.log2 ≤ b.log2 := by
    apply Nat.le_of_lt_succ
    apply (Nat.log2_lt ha).mpr
    exact Nat.lt_of_le_of_lt h Nat.lt_log2_self
  rcases Nat.eq_or_lt_of_le hlog with heq | hlt
  · -- Between two powers of two the spacing is the same.
    have hspacing : spacing a = spacing b := by rw [spacing, spacing, heq]
    rw [rounded, rounded, hspacing]
    exact Nat.mul_le_mul_right _ (roundQuotient_mono h _)
  · calc
      rounded a ≤ 2 ^ (a.log2 + 1) := rounded_le_two_pow a
      _ ≤ 2 ^ b.log2 := Nat.pow_le_pow_right Nat.two_pos hlt
      _ ≤ rounded b := two_pow_log2_le_rounded hb

/-- Scaling an integer to a significand of 53 bits divides it by the spacing, or multiplies it where
that is one. -/
theorem scaleQuotient_one (n : Nat) :
    scaleQuotient n 1 ((n.log2 : Int) - 52) = (n * 2 ^ (52 - n.log2), spacing n) := by
  have hup : (-((n.log2 : Int) - 52)).toNat = 52 - n.log2 := by omega
  have hdown : ((n.log2 : Int) - 52).toNat = n.log2 - 52 := by omega
  rw [scaleQuotient, hup, hdown, Nat.pow_eq, Nat.pow_eq, Nat.one_mul]
  rfl

theorem exponentFor_one {n : Nat} (hn : n ≠ 0) : exponentFor n 1 = (n.log2 : Int) - 52 := by
  have hscaled : ¬ n * 2 ^ (52 - n.log2) < 2 ^ 52 * spacing n := by
    apply Nat.not_lt.mpr
    calc
      2 ^ 52 * spacing n = 2 ^ n.log2 * 2 ^ (52 - n.log2) := by
        rw [spacing, ← Nat.pow_add, ← Nat.pow_add]
        congr 1
        omega
      _ ≤ n * 2 ^ (52 - n.log2) := Nat.mul_le_mul_right _ (Nat.log2_self_le hn)
  have hguess : (n.log2 : Int) - (Nat.log2 1 : Nat) - 52 = (n.log2 : Int) - 52 := by
    rw [show Nat.log2 1 = 0 by decide]
    simp
  rw [exponentFor, hguess, scaleQuotient_one]
  simp only [Nat.pow_eq, if_neg hscaled]
  omega

/-- The significand that an integer is rounded to has 53 bits, or carries into one more. Its value
at any scale is that of the rounded integer. -/
theorem roundQuotient_scaled {n : Nat} (hn : n ≠ 0) :
    2 ^ 52 ≤ roundQuotient (n * 2 ^ (52 - n.log2)) (spacing n) ∧
      roundQuotient (n * 2 ^ (52 - n.log2)) (spacing n) ≤ 2 ^ 53 ∧
      ∀ k, roundQuotient (n * 2 ^ (52 - n.log2)) (spacing n) * 2 ^ (n.log2 + k) =
        rounded n * 2 ^ (52 + k) := by
  rcases Nat.le_total n.log2 52 with h | h
  · have hspacing : spacing n = 1 := by
      rw [spacing, Nat.sub_eq_zero_of_le h, pow_zero]
    have hexact : roundQuotient (n * 2 ^ (52 - n.log2)) 1 = n * 2 ^ (52 - n.log2) := by
      simpa using roundQuotient_mul (n * 2 ^ (52 - n.log2)) Nat.one_pos
    rw [hspacing, hexact, rounded_of_log2_le h]
    refine ⟨?_, ?_, fun k => ?_⟩
    · calc
        2 ^ 52 = 2 ^ n.log2 * 2 ^ (52 - n.log2) := by
          rw [← Nat.pow_add]
          congr 1
          omega
        _ ≤ n * 2 ^ (52 - n.log2) := Nat.mul_le_mul_right _ (Nat.log2_self_le hn)
    · calc
        n * 2 ^ (52 - n.log2) ≤ 2 ^ (n.log2 + 1) * 2 ^ (52 - n.log2) :=
          Nat.mul_le_mul_right _ (Nat.le_of_lt Nat.lt_log2_self)
        _ = 2 ^ 53 := by
          rw [← Nat.pow_add]
          congr 1
          omega
    · rw [Nat.mul_assoc, ← Nat.pow_add]
      congr 2
      omega
  · rw [Nat.sub_eq_zero_of_le h, pow_zero, Nat.mul_one]
    refine ⟨le_roundQuotient hn h, roundQuotient_le h, fun k => ?_⟩
    rw [rounded, Nat.mul_assoc, spacing, ← Nat.pow_add]
    congr 2
    omega

/-- An integer below the range of doubles is rounded to the double of its rounded value. -/
theorem exists_ofQuotient (negative : Bool) {n : Nat} (hn : n ≠ 0) (hsize : n.log2 < 1023) :
    ∃ x, ofQuotient negative n 1 = some x ∧ x.negative = negative ∧
      x.significand * 2 ^ (x.exponent + 1074).toNat = rounded n * 2 ^ (52 + 1022) := by
  obtain ⟨hlow, hhigh, hvalue⟩ := roundQuotient_scaled hn
  obtain ⟨m, hm⟩ : ∃ m, roundQuotient (n * 2 ^ (52 - n.log2)) (spacing n) = m := ⟨_, rfl⟩
  rw [hm] at hlow hhigh hvalue
  rw [ofQuotient, if_neg hn, exponentFor_one hn]
  simp only [scaleQuotient_one, hm]
  by_cases hcarry : m = 2 ^ 53
  · have hstandard : Standard (2 ^ 52) ((n.log2 : Int) - 52 + 1) := by
      refine ⟨by decide, by omega, by omega, .inl (by decide)⟩
    have hexponent : ((n.log2 : Int) - 52 + 1 + 1074).toNat = n.log2 + 1022 + 1 := by omega
    simp only [Nat.pow_eq, if_pos hcarry, dif_pos hstandard]
    refine ⟨_, rfl, rfl, ?_⟩
    calc
      2 ^ 52 * 2 ^ ((n.log2 : Int) - 52 + 1 + 1074).toNat = 2 ^ 53 * 2 ^ (n.log2 + 1022) := by
        rw [hexponent, Nat.pow_succ 2 (n.log2 + 1022)]
        omega
      _ = rounded n * 2 ^ (52 + 1022) := by
        rw [← hcarry]
        exact hvalue 1022
  · have hstandard : Standard m ((n.log2 : Int) - 52) := by
      refine ⟨?_, by omega, by omega, .inl ?_⟩
      · rw [Nat.pow_eq]
        omega
      · rwa [Nat.pow_eq]
    have hexponent : ((n.log2 : Int) - 52 + 1074).toNat = n.log2 + 1022 := by omega
    simp only [Nat.pow_eq, if_neg hcarry, dif_pos hstandard]
    refine ⟨_, rfl, rfl, ?_⟩
    rw [hexponent]
    exact hvalue 1022

/-- The integer nearest to another one that is a double. -/
def nearest (n : Int) : Int := if n < 0 then -(rounded n.natAbs : Int) else rounded n.natAbs

/-- Rounding does not exchange integers. -/
theorem nearest_mono {a b : Int} (h : a ≤ b) : nearest a ≤ nearest b := by
  unfold nearest
  by_cases ha : a < 0
  · by_cases hb : b < 0
    · have hround : rounded b.natAbs ≤ rounded a.natAbs := rounded_mono (by omega)
      rw [if_pos ha, if_pos hb]
      omega
    · rw [if_pos ha, if_neg hb]
      omega
  · have hround : rounded a.natAbs ≤ rounded b.natAbs := rounded_mono (by omega)
    rw [if_neg ha, if_neg (by omega)]
    omega

theorem nearest_eq_zero {n : Int} : nearest n = 0 ↔ n = 0 := by
  unfold nearest
  by_cases hn : n = 0
  · subst hn
    simp [rounded_of_log2_le]
  · have hpos := rounded_pos (Int.natAbs_ne_zero.mpr hn)
    refine iff_of_false ?_ hn
    split_ifs <;> omega

/-- The units in which doubles are compared, counted in an integer. -/
def unitsOfOne : Int := 2 ^ (52 + 1022)

theorem unitsOfOne_pos : 0 < unitsOfOne := Int.pow_pos (by decide)

theorem exists_ofInt? {n : Int} (hsize : n.natAbs.log2 < 1023) :
    ∃ x, ofInt? n = some x ∧ x.units = nearest n * unitsOfOne := by
  by_cases hn : n = 0
  · subst hn
    exact ⟨zero false, rfl, by simp [units, zero, nearest_eq_zero.mpr rfl]⟩
  · obtain ⟨x, hx, hnegative, hvalue⟩ :=
      exists_ofQuotient (decide (n < 0)) (Int.natAbs_ne_zero.mpr hn) hsize
    refine ⟨x, hx, ?_⟩
    have hcast : ((x.significand * 2 ^ (x.exponent + 1074).toNat : Nat) : Int) =
        rounded n.natAbs * unitsOfOne := by
      rw [hvalue, Nat.cast_mul, Nat.cast_pow]
      rfl
    rw [units, hnegative, nearest]
    simp only [Nat.pow_eq, hcast, decide_eq_true_eq]
    split_ifs with hsign
    · rw [neg_mul]
    · rfl

/-- Of two standard forms of one value neither has the lesser exponent, since then its significand
would have too many bits. -/
theorem Standard.exponent_le {m m' : Nat} {e e' : Int} (h : Standard m e) (h' : Standard m' e')
    (hvalue : m * 2 ^ (e + 1074).toNat = m' * 2 ^ (e' + 1074).toNat) : e' ≤ e := by
  obtain ⟨hsize, hleast, -, -⟩ := h
  obtain ⟨-, hleast', -, hnormal'⟩ := h'
  rw [Nat.pow_eq] at hsize hnormal'
  apply Int.not_lt.mp
  intro hlt
  have hnormal' : 2 ^ 52 ≤ m' := hnormal'.resolve_right (by omega)
  have hexponent : (e' + 1074).toNat = (e' - e - 1).toNat + 1 + (e + 1074).toNat := by omega
  rw [hexponent, Nat.pow_add, ← Nat.mul_assoc] at hvalue
  have hm : m = m' * 2 ^ ((e' - e - 1).toNat + 1) :=
    Nat.eq_of_mul_eq_mul_right (Nat.two_pow_pos _) hvalue
  have htwo : 2 ≤ 2 ^ ((e' - e - 1).toNat + 1) := by
    calc
      2 = 2 ^ 1 := rfl
      _ ≤ 2 ^ ((e' - e - 1).toNat + 1) := Nat.pow_le_pow_right Nat.two_pos (by omega)
  have hlarge : m' * 2 ≤ m := hm ▸ Nat.mul_le_mul_left m' htwo
  omega

/-- A double that is not zero is told by its value. -/
theorem eq_of_units {x y : Binary64} (h : x.units = y.units) (hzero : x.units ≠ 0) : x = y := by
  obtain ⟨s, m, e, hstandard⟩ := x
  obtain ⟨s', m', e', hstandard'⟩ := y
  simp only [units, Nat.pow_eq] at h hzero
  obtain ⟨hvalue, hsign⟩ :
      m * 2 ^ (e + 1074).toNat = m' * 2 ^ (e' + 1074).toNat ∧ s = s' := by
    cases s <;> cases s' <;>
      simp only [Bool.false_eq_true, ↓reduceIte, reduceCtorEq, and_true, and_false] at h hzero ⊢ <;>
      omega
  have hexponent : e = e' := Int.le_antisymm
    (hstandard'.exponent_le hstandard hvalue.symm) (hstandard.exponent_le hstandard' hvalue)
  subst hsign hexponent
  have hsignificand : m = m' := Nat.eq_of_mul_eq_mul_right (Nat.two_pow_pos _) hvalue
  subst hsignificand
  rfl

/-- Integers have the same nearest double exactly if they are rounded to the same integer. -/
theorem ofInt?_eq_iff {a b : Int} (ha : a.natAbs.log2 < 1023) (hb : b.natAbs.log2 < 1023) :
    ofInt? a = ofInt? b ↔ nearest a = nearest b := by
  obtain ⟨x, hx, hxunits⟩ := exists_ofInt? ha
  obtain ⟨y, hy, hyunits⟩ := exists_ofInt? hb
  rw [hx, hy, Option.some.injEq]
  constructor
  · rintro rfl
    rw [hxunits] at hyunits
    exact Int.eq_of_mul_eq_mul_right unitsOfOne_pos.ne' hyunits
  · intro h
    by_cases hzero : nearest a = 0
    · obtain rfl := nearest_eq_zero.mp hzero
      obtain rfl := nearest_eq_zero.mp (h ▸ hzero)
      exact Option.some.inj (hx.symm.trans hy)
    · apply eq_of_units
      · rw [hxunits, hyunits, h]
      · rw [hxunits]
        exact mul_ne_zero hzero unitsOfOne_pos.ne'

/-- The nearest doubles of two integers are in the order of the rounded integers. -/
theorem exists_order_ofInt? {a b : Int} (ha : a.natAbs.log2 < 1023) (hb : b.natAbs.log2 < 1023) :
    ∃ x y, ofInt? a = some x ∧ ofInt? b = some y ∧ x.order y = compare (nearest a) (nearest b) := by
  obtain ⟨x, hx, hxunits⟩ := exists_ofInt? ha
  obtain ⟨y, hy, hyunits⟩ := exists_ofInt? hb
  refine ⟨x, y, hx, hy, ?_⟩
  rw [order, hxunits, hyunits, ← cmp_eq_compare, ← cmp_eq_compare]
  exact cmp_mul_pos_right unitsOfOne_pos (nearest a) (nearest b)

end FilterLogic.Binary64
