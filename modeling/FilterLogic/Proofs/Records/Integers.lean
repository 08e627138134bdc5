import FilterLogic.Proofs.Json.Order
import FilterLogic.Proofs.Records.Fields
import FilterLogic.Proofs.Resolution.Operands

/-!
# Comparing integer fields

A filter whose operands are compared exactly with the integer in a field says of them what integer
arithmetic says. Other operands pass for equal to the integer, which they are not.
-/

namespace FilterLogic

/-- The JSON value of an integer. -/
def Json.Value.ofInt (n : Int) : Value := .number (.integer n)

/-- What an operator says of an integer and the integers that it is compared with. -/
def Operator.Says (n : Int) : Operator → List Int → Prop
  | .equals, [v] => n = v
  | .notEquals, [v] => n ≠ v
  | .greaterThan, [v] => v < n
  | .greaterThanOrEqual, [v] => v ≤ n
  | .lessThan, [v] => n < v
  | .lessThanOrEqual, [v] => n ≤ v
  | .isIn, vs => n ∈ vs
  | .notIn, vs => n ∉ vs
  | .between, [low, high] => low ≤ n ∧ n ≤ high
  | .notBetween, [low, high] => ¬ (low ≤ n ∧ n ≤ high)
  | .isNotNull, _ => True
  | _, _ => False

namespace Predicate

open Json (IsWord ComparedExactly)
open Json.Value (ofInt)

/-- An integer that is compared with another one as it is. -/
def Distinguishes (n v : Int) : Prop := IsWord v ∧ ComparedExactly n v

instance (n v : Int) : Decidable (Distinguishes n v) := inferInstanceAs (Decidable (_ ∧ _))

variable {n : Int}

/-- Two integers are ordered as they are, unless they pass for equal. -/
theorem order?_ofInt (hn : IsWord n) {v : Int} (hv : IsWord v) :
    (ofInt n).order? (ofInt v) = some (if ComparedExactly n v then compare n v else .eq) :=
  Json.Number.order?_of_word hn hv

theorem order?_of_distinguishes (hn : IsWord n) {v : Int} (hv : Distinguishes n v) :
    (ofInt n).order? (ofInt v) = some (compare n v) := by
  obtain ⟨hword, hexact⟩ := hv
  rw [order?_ofInt hn hword, if_pos hexact]

theorem compares_ofInt (hn : IsWord n) {v : Int} (hv : Distinguishes n v)
    (accept : Ordering → Bool) : compares (ofInt v) accept (ofInt n) = accept (compare n v) :=
  compares_of_order (order?_of_distinguishes hn hv)

theorem isAmong_ofInt (hn : IsWord n) {vs : List Int} (h : ∀ v ∈ vs, Distinguishes n v) :
    isAmong (vs.map ofInt) (ofInt n) = true ↔ n ∈ vs := by
  induction vs with
  | nil => simp [isAmong]
  | cons v vs ih =>
      obtain ⟨hv, hvs⟩ := List.forall_mem_cons.mp h
      have hsplit : isAmong ((v :: vs).map ofInt) (ofInt n) = true ↔
          (ofInt n).order? (ofInt v) = some .eq ∨ isAmong (vs.map ofInt) (ofInt n) = true := by
        simp [isAmong]
      rw [hsplit, order?_of_distinguishes hn hv, ih hvs, Option.some.injEq, compare_eq_iff_eq,
        List.mem_cons]

theorem isWithin_ofInt (hn : IsWord n) {low high : Int} (hlow : Distinguishes n low)
    (hhigh : Distinguishes n high) :
    isWithin (ofInt low) (ofInt high) (ofInt n) = true ↔ low ≤ n ∧ n ≤ high := by
  rw [isWithin, compares_ofInt hn hlow, compares_ofInt hn hhigh, Bool.and_eq_true,
    Std.isGE_compare, Std.isLE_compare]

/-- A filter's predicate, which exists, says of an integer in the field what the operator says of it
and the operands, if those are told apart from it. -/
def Decides (property : Property) (op : Operator) (value : Json.Value) (vs : List Int) : Prop :=
  ∃ p, build property op value = .ok p ∧
    ∀ n record, IsWord n → present? property.name record = some (ofInt n) →
      (∀ v ∈ vs, Distinguishes n v) → (p.holds record = true ↔ op.Says n vs)

variable {property : Property} {op : Operator}

theorem decides_comparison {v : Int} {accept : Ordering → Bool}
    (hbuild : build property op (ofInt v) = .ok (comparison property.name (ofInt v) accept))
    (hmeaning : ∀ n, accept (compare n v) = true ↔ op.Says n [v]) :
    Decides property op (ofInt v) [v] := by
  refine ⟨_, hbuild, fun n record hn hfield hv => ?_⟩
  rw [comparison, holds_onField hfield, compares_ofInt hn (hv v (List.mem_singleton.mpr rfl))]
  exact hmeaning n

theorem decides_membership {vs : List Int} {expected : Bool}
    (hbuild : build property op (.array (vs.map ofInt)) =
      .ok (membership property.name (.array (vs.map ofInt)) expected))
    (hmeaning : ∀ n, (n ∈ vs ↔ expected = true) ↔ op.Says n vs) :
    Decides property op (.array (vs.map ofInt)) vs := by
  refine ⟨_, hbuild, fun n record hn hfield hvs => ?_⟩
  rw [membership, holds_onField hfield, beq_iff_eq, Bool.eq_iff_iff, ← hmeaning n]
  exact iff_congr (isAmong_ofInt hn hvs) Iff.rfl

theorem decides_range {low high : Int} {expected : Bool}
    (hbuild : build property op (.array [ofInt low, ofInt high]) =
      range property.name op (.array [ofInt low, ofInt high]) expected)
    (hmeaning : ∀ n, ((low ≤ n ∧ n ≤ high) ↔ expected = true) ↔ op.Says n [low, high]) :
    Decides property op (.array [ofInt low, ofInt high]) [low, high] := by
  refine ⟨_, hbuild, fun n record hn hfield hbounds => ?_⟩
  have hlow := hbounds low (List.mem_cons_self ..)
  have hhigh := hbounds high (List.mem_cons_of_mem _ (List.mem_singleton.mpr rfl))
  rw [holds_onField hfield, beq_iff_eq, Bool.eq_iff_iff, ← hmeaning n]
  exact iff_congr (isWithin_ofInt hn hlow hhigh) Iff.rfl

section Operands

variable {value : Json.Value} {vs : List Int}

theorem exists_ofInt_of_single (hadmits : Cardinality.single.admits value = true)
    (hvs : Property.operands value = vs.map ofInt) : ∃ v, value = ofInt v ∧ vs = [v] := by
  rw [Cardinality.operands_of_single hadmits] at hvs
  obtain ⟨v, rfl, hv⟩ := List.map_eq_singleton_iff.mp hvs.symm
  exact ⟨v, hv.symm, rfl⟩

theorem eq_array_of_list (hadmits : Cardinality.list.admits value = true)
    (hvs : Property.operands value = vs.map ofInt) : value = .array (vs.map ofInt) := by
  obtain ⟨items, rfl⟩ := Cardinality.exists_of_list hadmits
  exact congrArg Json.Value.array hvs

theorem exists_ofInt_of_range (hadmits : Cardinality.range.admits value = true)
    (hvs : Property.operands value = vs.map ofInt) :
    ∃ low high, value = .array [ofInt low, ofInt high] ∧ vs = [low, high] := by
  obtain ⟨v, w, rfl⟩ := Cardinality.exists_of_range hadmits
  obtain ⟨low, rest, rfl, rfl, hrest⟩ := List.map_eq_cons_iff.mp hvs.symm
  obtain ⟨high, rfl, rfl⟩ := List.map_eq_singleton_iff.mp hrest
  exact ⟨low, high, rfl, rfl⟩

/-- Of the operators for a value of the right shape, only those of patterns do not decide. -/
theorem decides_of_admits (hadmits : op.cardinality.admits value = true)
    (hvs : Property.operands value = vs.map ofInt) (hlike : op ≠ .like)
    (hnotLike : op ≠ .notLike) : Decides property op value vs := by
  cases op with
  | equals =>
      obtain ⟨v, rfl, rfl⟩ := exists_ofInt_of_single hadmits hvs
      exact decides_comparison rfl fun n => by simp [Operator.Says]
  | notEquals =>
      obtain ⟨v, rfl, rfl⟩ := exists_ofInt_of_single hadmits hvs
      exact decides_comparison rfl fun n => by simp [Operator.Says]
  | greaterThan =>
      obtain ⟨v, rfl, rfl⟩ := exists_ofInt_of_single hadmits hvs
      exact decides_comparison rfl fun n => by simp [Operator.Says, compare_gt_iff_gt]
  | greaterThanOrEqual =>
      obtain ⟨v, rfl, rfl⟩ := exists_ofInt_of_single hadmits hvs
      exact decides_comparison rfl fun n => Std.isGE_compare
  | lessThan =>
      obtain ⟨v, rfl, rfl⟩ := exists_ofInt_of_single hadmits hvs
      exact decides_comparison rfl fun n => by simp [Operator.Says, compare_lt_iff_lt]
  | lessThanOrEqual =>
      obtain ⟨v, rfl, rfl⟩ := exists_ofInt_of_single hadmits hvs
      exact decides_comparison rfl fun n => Std.isLE_compare
  | like => exact absurd rfl hlike
  | notLike => exact absurd rfl hnotLike
  | isIn =>
      rw [eq_array_of_list hadmits hvs]
      exact decides_membership rfl fun n => by simp [Operator.Says]
  | notIn =>
      rw [eq_array_of_list hadmits hvs]
      exact decides_membership rfl fun n => by simp [Operator.Says]
  | isNull => exact ⟨_, rfl, fun n record _ hfield _ => by simp [hfield, Operator.Says]⟩
  | isNotNull => exact ⟨_, rfl, fun n record _ hfield _ => by simp [hfield, Operator.Says]⟩
  | between =>
      obtain ⟨low, high, rfl, rfl⟩ := exists_ofInt_of_range hadmits hvs
      exact decides_range rfl fun n => by simp [Operator.Says]
  | notBetween =>
      obtain ⟨low, high, rfl, rfl⟩ := exists_ofInt_of_range hadmits hvs
      exact decides_range rfl fun n => by simp [Operator.Says]

end Operands

theorem exists_map_ofInt {values : List Json.Value}
    (h : ∀ v ∈ values, PropertyType.integer.accepts v = true) :
    ∃ vs : List Int, values = vs.map ofInt := by
  induction values with
  | nil => exact ⟨[], rfl⟩
  | cons value values ih =>
      obtain ⟨hvalue, hvalues⟩ := List.forall_mem_cons.mp h
      obtain ⟨vs, rfl⟩ := ih hvalues
      cases value with
      | number number =>
          cases number with
          | integer v => exact ⟨v :: vs, rfl⟩
          | double x => exact nomatch hvalue
      | _ => exact nomatch hvalue

/-- Two integers of a word are ordered as they are exactly if they are equal, both fit signed words
or have different nearest doubles; else they pass for equal. A valid filter on an integer property
has integers for operands, and says of an integer in the field what its operator says, as far as the
operands are ordered with it as they are. -/
theorem decides_integers {n v : Int} (hn : IsWord n) (hv : IsWord v) :
    ((ofInt n).order? (ofInt v) = some (compare n v) ↔ ComparedExactly n v) ∧
    (¬ ComparedExactly n v → (ofInt n).order? (ofInt v) = some .eq) ∧
    ∀ f : Filter, f.validate = .ok () → f.property.type = .integer →
      f.operator ≠ .like → f.operator ≠ .notLike →
      ∃ vs : List Int, Property.operands f.value = vs.map ofInt ∧
        Decides f.property f.operator f.value vs := by
  rw [order?_ofInt hn hv]
  refine ⟨⟨fun h => ?_, fun h => by rw [if_pos h]⟩, fun h => by rw [if_neg h],
    fun f hvalid htype hlike hnotLike => ?_⟩
  · by_contra hnot
    rw [if_neg hnot, Option.some.injEq, eq_comm, compare_eq_iff_eq] at h
    exact hnot (.inl h)
  · have haccepts : ∀ v ∈ Property.operands f.value, PropertyType.integer.accepts v = true :=
      fun v hv => htype ▸ Filter.accepts_of_validate hvalid hv
    obtain ⟨vs, hvs⟩ := exists_map_ofInt haccepts
    exact ⟨vs, hvs, decides_of_admits (Filter.admits_of_validate hvalid) hvs hlike hnotLike⟩

/-- Beyond the signed words an integer is outside of a range whose upper bound has another nearest
double. -/
theorem decides_integers_beyond_signed :
    let n := 18446744073709551615
    let v := 18446744073709547520
    let f : Filter := ⟨.withDefaults "id" .integer, .notBetween,
      .array [ofInt 9223372036854775808, ofInt v]⟩
    (ofInt n).order? (ofInt v) = some (compare n v) ∧ f.validate = .ok () ∧
      ∃ p, build f.property f.operator f.value = .ok p ∧
        p.holds (.object [("id", ofInt n)]) = true := by
  intro n v f
  have hn : IsWord n := by decide
  have hv : IsWord v := by decide
  have hexact : ComparedExactly n v := by decide +kernel
  obtain ⟨horder, -, hfilters⟩ := decides_integers hn hv
  obtain ⟨vs, hvs, p, hp, hdecides⟩ := hfilters f rfl rfl (by decide) (by decide)
  obtain ⟨low, high, hvalue, rfl⟩ := exists_ofInt_of_range rfl hvs
  cases hvalue
  have hoperands : ∀ w ∈ [9223372036854775808, v], Distinguishes n w := by decide +kernel
  have houtside : ¬ (9223372036854775808 ≤ n ∧ n ≤ v) := by decide
  exact ⟨horder.mpr hexact, rfl, p, hp, (hdecides n _ hn rfl hoperands).mpr houtside⟩

/-- The least integer beyond the signed words passes for equal to the greatest one among them, so
that a filter for the one finds the other. -/
theorem order?_ofInt_least_unsigned :
    let n := 9223372036854775808
    let v := 9223372036854775807
    IsWord n ∧ IsWord v ∧ (ofInt n).order? (ofInt v) = some .eq ∧ compare n v = .gt ∧
      let f : Filter := ⟨.withDefaults "id" .integer, .equals, ofInt v⟩
      f.validate = .ok () ∧ ∃ p, build f.property f.operator f.value = .ok p ∧
        p.holds (.object [("id", ofInt n)]) = true ∧ ¬ f.operator.Says n [v] := by
  intro n v
  have hne : n ≠ v := by decide
  exact ⟨by decide, by decide, by decide +kernel, by decide, rfl, _, rfl, by decide +kernel, hne⟩

end Predicate

end FilterLogic
