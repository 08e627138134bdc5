import FilterLogic.Condition.Memory

/-!
# Conditions on one field

What the comparisons of a field come to, when it is absent and when it holds a value that can or
cannot be compared with the operand.
-/

namespace FilterLogic.Predicate

variable {name : String} {record x v : Json.Value}

/-- A field that a record does not have, be it no object, or that is null. -/
inductive Absent (name : String) (record : Json.Value) : Prop
  | noObject (h : ∀ fields, record ≠ .object fields)
  | missing (h : record.field? name = none)
  | null (h : record.field? name = some .null)

/-- A field that a record has with a value that is not null. -/
structure Present (name : String) (x record : Json.Value) : Prop where
  field : record.field? name = some x
  ne_null : x ≠ .null

section Presence

variable {test : Json.Value → Bool}

theorem present?_eq_some_iff : present? name record = some x ↔ Present name x record := by
  have hnull : x.isNull = false ↔ x ≠ .null := by cases x <;> simp [Json.Value.isNull]
  rw [present?, Option.filter_eq_some_iff, Bool.not_eq_true', hnull]
  exact ⟨fun h => ⟨h.1, h.2⟩, fun h => ⟨h.field, h.ne_null⟩⟩

theorem present?_eq_none_iff : present? name record = none ↔ Absent name record := by
  constructor
  · intro h
    cases hfield : record.field? name with
    | none => exact .missing hfield
    | some x =>
        by_cases hx : x = .null
        · subst hx
          exact .null hfield
        · rw [present?_eq_some_iff.mpr ⟨hfield, hx⟩] at h
          exact nomatch h
  · intro h
    cases h with
    | noObject h =>
        cases record with
        | object fields => exact absurd rfl (h fields)
        | _ => rfl
    | missing h => simp [present?, h]
    | null h => simp [present?, h, Json.Value.isNull]

/-- A condition on a field that is missing or null does not hold. -/
theorem holds_onField_of_absent (h : present? name record = none) :
    (onField name test).holds record = false := by
  simp [onField, h]

theorem holds_onField (h : present? name record = some x) :
    (onField name test).holds record = test x := by
  simp [onField, h]

end Presence

section Comparison

variable {accept : Ordering → Bool} {o : Ordering}

theorem compares_of_order (h : x.order? v = some o) : compares v accept x = accept o := by
  simp [compares, h]

/-- Incomparable values satisfy no comparison. -/
theorem compares_of_incomparable (h : x.order? v = none) : compares v accept x = false := by
  simp [compares, h]

end Comparison

end FilterLogic.Predicate
