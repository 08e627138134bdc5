import FilterLogic.Proofs.Json.Reading
import FilterLogic.Proofs.Records.Fields

/-!
# Negated operators and comparisons

NOT IN and NOT BETWEEN deny of a field that is there what IN and BETWEEN say of it. The comparisons
say nothing of a field that cannot be compared with the operand, so there, and nowhere else, the two
ways of negating part.
-/

namespace FilterLogic

open Json

/-- The scale that the operands of a type are on. -/
def PropertyType.scale : PropertyType → Value.Scale
  | .text => .texts
  | .integer | .number => .numbers
  | .boolean => .booleans

theorem PropertyType.scale?_of_accepts {t : PropertyType} {v : Value} (h : t.accepts v = true) :
    v.scale? = some t.scale := by
  cases t <;> cases v <;> first | rfl | exact absurd h Bool.false_ne_true

/-- Whether a value is an operand for a type, as one is read from text. -/
def PropertyType.Takes (t : PropertyType) (v : Value) : Prop := t.accepts v = true ∧ v.Readable

/-- What a value can be compared with does not depend on the operand, but on the type only. -/
theorem PropertyType.Takes.order?_eq_none_iff {t : PropertyType} {x v : Value} (hv : t.Takes v)
    (hx : x.Readable) : x.order? v = none ↔ x.scale? ≠ some t.scale :=
  Value.order?_eq_none_iff hx hv.2 (t.scale?_of_accepts hv.1)

namespace Predicate

section Values

variable {x v low high : Value}

/-- Not to be among one value is to differ from it or to be incomparable with it. -/
theorem isAmong_singleton_eq_false :
    isAmong [v] x = false ↔ compares v Ordering.isNe x = true ∨ x.order? v = none := by
  cases h : x.order? v with
  | none => simp [isAmong, h]
  | some o => cases o <;> simp [isAmong, compares, h]

/-- Not to lie within bounds is to lie below the one or above the other, or to be incomparable with
one of them. -/
theorem isWithin_eq_false : isWithin low high x = false ↔
    compares low Ordering.isLT x = true ∨ compares high Ordering.isGT x = true ∨
      x.order? low = none ∨ x.order? high = none := by
  cases hlow : x.order? low with
  | none => simp [isWithin, compares, hlow]
  | some o =>
      cases hhigh : x.order? high with
      | none => simp [isWithin, compares, hhigh]
      | some o' => cases o <;> cases o' <;> simp [isWithin, compares, hlow, hhigh]

end Values

/-- A field that is there, but with a value that no operand of its type can be compared with. -/
def Misfit (property : Property) (record : Value) : Prop :=
  ∃ x, present? property.name record = some x ∧ x.scale? ≠ some property.type.scale

variable {property : Property} {record v low high : Value}

theorem misfit_iff {x : Value} (hfield : present? property.name record = some x) :
    Misfit property record ↔ x.scale? ≠ some property.type.scale := by
  simp [Misfit, hfield]

/-- NOT IN with one operand is the same as !=, and NOT BETWEEN as < or >, on every record whose
field is missing, null or comparable with operands of its type. On any other record NOT IN and
NOT BETWEEN hold, and the comparisons do not. -/
theorem holds_negated (hv : property.type.Takes v) (hlow : property.type.Takes low)
    (hhigh : property.type.Takes high) :
    ∃ others different outside below above : Predicate,
      build property .notIn (.array [v]) = .ok others ∧
      build property .notEquals v = .ok different ∧
      build property .notBetween (.array [low, high]) = .ok outside ∧
      build property .lessThan low = .ok below ∧
      build property .greaterThan high = .ok above ∧
      ∀ record : Value, record.ReadableFields →
        (others.holds record = true ↔
          different.holds record = true ∨ Misfit property record) ∧
        (outside.holds record = true ↔
          (below.holds record = true ∨ above.holds record = true) ∨ Misfit property record) ∧
        (Misfit property record → different.holds record = false ∧
          below.holds record = false ∧ above.holds record = false) := by
  refine ⟨_, _, _, _, _, rfl, rfl, rfl, rfl, rfl, fun record hreadable => ?_⟩
  cases hfield : present? property.name record with
  | none =>
      simp [membership, comparison, holds_onField_of_absent hfield, Misfit, hfield]
  | some x =>
      have hx := hreadable _ x (Option.filter_eq_some_iff.mp hfield).1
      have hmisfit := misfit_iff hfield
      have hvalue := hv.order?_eq_none_iff hx
      have hbelow := hlow.order?_eq_none_iff hx
      have habove := hhigh.order?_eq_none_iff hx
      simp only [membership, comparison, holds_onField hfield, hmisfit, Operand.candidates]
      refine ⟨?_, ?_, fun h => ?_⟩
      · rw [beq_iff_eq, isAmong_singleton_eq_false, hvalue]
      · rw [beq_iff_eq, isWithin_eq_false, hbelow, habove, or_self, or_assoc]
      · exact ⟨compares_of_incomparable (hvalue.mpr h), compares_of_incomparable (hbelow.mpr h),
          compares_of_incomparable (habove.mpr h)⟩

/-- An age of 70 is found by both ways of negating, one that is a text by NOT IN and NOT BETWEEN
only. -/
theorem holds_negated_age :
    let property := Property.withDefaults "age" .integer
    let age (n : Int) : Value := .number (.integer n)
    ∃ others different outside below above : Predicate,
      build property .notIn (.array [age 18]) = .ok others ∧
      build property .notEquals (age 18) = .ok different ∧
      build property .notBetween (.array [age 18, age 65]) = .ok outside ∧
      build property .lessThan (age 18) = .ok below ∧
      build property .greaterThan (age 65) = .ok above ∧
      (others.holds (.object [("age", age 70)]) = true ∧
        outside.holds (.object [("age", age 70)]) = true) ∧
      ∃ record, Value.parse? "\x7b\"age\": \"x\"\x7d" = some record ∧
        others.holds record = true ∧ different.holds record = false ∧
        outside.holds record = true := by
  intro property age
  have hage (n : Int) (hn : IsWord n) : property.type.Takes (age n) := ⟨rfl, hn⟩
  obtain ⟨others, different, outside, below, above, ho, hd, hr, hb, ha, hrecords⟩ :=
    holds_negated (hage 18 (by decide)) (hage 18 (by decide)) (hage 65 (by decide))
  refine ⟨others, different, outside, below, above, ho, hd, hr, hb, ha, ?_, ?_⟩
  · have hreadable : (Value.object [("age", age 70)]).ReadableFields := by
      intro name x hx
      obtain ⟨-, rfl⟩ : "age" = name ∧ age 70 = x := by
        simpa [Value.field?, AscendingKeys.find?] using hx
      exact (by decide : IsWord 70)
    obtain ⟨hothers, houtside, -⟩ := hrecords _ hreadable
    cases hd
    cases ha
    exact ⟨hothers.mpr (.inl (by decide +kernel)), houtside.mpr (.inl (.inr (by decide +kernel)))⟩
  · have htext : ((Value.parse? "\x7b\"age\": \"x\"\x7d").bind (present? "age")).bind
        Value.scale? = some .texts := by decide +kernel
    obtain ⟨x, hx, hscale⟩ := Option.bind_eq_some_iff.mp htext
    obtain ⟨record, hrecord, hfield⟩ := Option.bind_eq_some_iff.mp hx
    have hmisfit : Misfit property record := ⟨x, hfield, by rw [hscale]; decide⟩
    obtain ⟨hothers, houtside, hnever⟩ :=
      hrecords record (Value.readableFields_of_parse? hrecord)
    exact ⟨record, hrecord, hothers.mpr (.inr hmisfit), (hnever hmisfit).1,
      houtside.mpr (.inr hmisfit)⟩

/-- An age that is a text is not 18 by NOT IN, and is not from 18 to 65 by NOT BETWEEN, but neither
differs from 18 nor is less than 18 nor greater than 65. -/
theorem negations_part_on_text :
    let property := Property.withDefaults "age" .integer
    let age (n : Int) : Value := .number (.integer n)
    let record := Value.object [("age", .text "x")]
    property.type.accepts (age 18) = true ∧ property.type.accepts (age 65) = true ∧
    ∃ others different outside below above : Predicate,
      build property .notIn (.array [age 18]) = .ok others ∧
      build property .notEquals (age 18) = .ok different ∧
      build property .notBetween (.array [age 18, age 65]) = .ok outside ∧
      build property .lessThan (age 18) = .ok below ∧
      build property .greaterThan (age 65) = .ok above ∧
      others.holds record = true ∧ different.holds record = false ∧
      outside.holds record = true ∧ below.holds record = false ∧ above.holds record = false :=
  ⟨rfl, rfl, _, _, _, _, _, rfl, rfl, rfl, rfl, rfl, by decide⟩

end Predicate

end FilterLogic
