import FilterLogic.Condition.Operand
import FilterLogic.Proofs.Property.Validation

/-!
# The values that a filter compares with

A valid filter has a value of the shape that its operator needs, so it is known which values its
condition compares the field with, and each of them fits the type of the property.
-/

namespace FilterLogic

/-- A range has bounds exactly if it is a list of two. -/
theorem Operand.bounds_eq_ok {op : Operator} {value low high : Json.Value} :
    bounds op value = .ok (low, high) ↔ value = .array [low, high] := by
  constructor
  · intro h
    unfold bounds at h
    split at h
    · cases h
      rfl
    · exact nomatch h
  · rintro rfl
    rfl

/-- What is no range is refused with the number of its values, counted as they are elsewhere. -/
theorem Operand.bounds_of_ne {op : Operator} {value : Json.Value}
    (h : ∀ low high, value ≠ .array [low, high]) :
    bounds op value = .error (.valueCardinality op "exactly 2 values" value.operandCount) := by
  cases value with
  | array items =>
      match items with
      | [] | [_] | _ :: _ :: _ :: _ => rfl
      | [low, high] => exact absurd rfl (h low high)
  | _ => rfl

/-- What has no two bounds is refused as the shape of a range is by the check for it. -/
theorem Operand.bounds_eq_error {op : Operator} {value : Json.Value} {e : Error} :
    bounds op value = .error e ↔ (∀ vs, ¬ Cardinality.range.Supplies value vs) ∧
      e = .valueCardinality op "exactly 2 values" value.operandCount := by
  rw [Cardinality.not_supplies_range]
  constructor
  · intro h
    have hrange : ∀ low high, value ≠ .array [low, high] := by
      rintro low high rfl
      exact nomatch h
    rw [bounds_of_ne hrange] at h
    exact ⟨hrange, (Except.error.inj h).symm⟩
  · rintro ⟨hrange, rfl⟩
    exact bounds_of_ne hrange

namespace Filter

/-- The values that a valid filter compares with. -/
def operandValues (f : Filter) : List Json.Value :=
  match f.operator.cardinality, f.value with
  | .none, _ => []
  | .single, value => [value]
  | .list, .array items => items
  | .range, .array [low, high] => [low, high]
  | _, _ => []

theorem operandValues_of_supplies {f : Filter} {vs : List Json.Value}
    (h : f.operator.cardinality.Supplies f.value vs) : f.operandValues = vs := by
  unfold operandValues
  generalize f.operator.cardinality = c, f.value = value at h
  cases h <;> rfl

theorem admits_of_validate {f : Filter} (h : f.validate = .ok ()) :
    f.operator.cardinality.admits f.value = true := by
  obtain ⟨-, vs, hvs, -⟩ := Property.validateValue_eq_ok.mp h
  exact (Cardinality.supplies_iff.mp hvs).1

/-- Each value that a valid filter supplies fits the type of the property. -/
theorem accepts_of_validate {f : Filter} (h : f.validate = .ok ()) {v : Json.Value}
    (hv : v ∈ Property.operands f.value) : f.property.type.accepts v = true := by
  obtain ⟨-, vs, hvs, hfits⟩ := Property.validateValue_eq_ok.mp h
  rw [(Cardinality.supplies_iff.mp hvs).2] at hv
  exact PropertyType.accepts_iff_fits.mpr (hfits v hv)

end Filter

end FilterLogic
