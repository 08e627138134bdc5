import FilterLogic.Proofs.Outcome
import FilterLogic.Request
import Mathlib.Data.List.Nodup
import Mathlib.Data.List.Perm.Basic

/-!
# What validation admits

An operator and its value are admitted for a property exactly if the operator is supported, the
value has the shape that the operator needs, and each operand is of a kind that fits the type. Of
these the first that fails is reported, and of several operands that do not fit the first one.
-/

namespace FilterLogic

namespace Json.Value

/-- How many operands a value is said to supply: none by null, as many as there are items by an
array, and one by anything else. -/
inductive Counts : Value → Nat → Prop
  | null : Counts .null 0
  | array (items : List Value) : Counts (.array items) items.length
  | other {v} (hnull : v ≠ .null) (harray : ∀ items, v ≠ .array items) : Counts v 1

theorem counts_operandCount (v : Value) : v.Counts v.operandCount := by
  cases v with
  | null => exact .null
  | array items => exact .array items
  | _ => exact .other nofun nofun

theorem counts_iff {v : Value} {n : Nat} : v.Counts n ↔ v.operandCount = n := by
  constructor
  · intro h
    cases h with
    | other hnull harray =>
        cases v with
        | null => exact absurd rfl hnull
        | array items => exact absurd rfl (harray items)
        | _ => rfl
    | _ => rfl
  · rintro rfl
    exact v.counts_operandCount

/-- Whether a value is neither null nor made of other values. -/
def IsScalar (v : Value) : Prop := v.kind ≠ .null ∧ v.kind ≠ .array ∧ v.kind ≠ .object

theorem kind_eq_text {v : Value} : v.kind = .text ↔ ∃ s, v = .text s := by
  cases v with
  | number n => cases n <;> simp [kind]
  | _ => simp [kind]

end Json.Value

namespace PropertyType

/-- The kinds of the values that fit a type. -/
def kinds : PropertyType → List Json.Kind
  | .text => [.text]
  | .integer => [.integer]
  | .number => [.integer, .number]
  | .boolean => [.boolean]

/-- Whether a value is of a kind that fits a type. -/
def Fits (t : PropertyType) (v : Json.Value) : Prop := v.kind ∈ t.kinds

variable {t : PropertyType} {v : Json.Value}

theorem accepts_iff_fits : t.accepts v = true ↔ t.Fits v := by
  cases v with
  | number n => cases n <;> cases t <;> simp [accepts, Fits, kinds, Json.Value.kind]
  | _ => cases t <;> simp [accepts, Fits, kinds, Json.Value.kind]

theorem text_mem_kinds : Json.Kind.text ∈ t.kinds ↔ t = .text := by
  cases t <;> decide

theorem Fits.isScalar (h : t.Fits v) : v.IsScalar := by
  have hnever : Json.Kind.null ∉ t.kinds ∧ Json.Kind.array ∉ t.kinds ∧
      Json.Kind.object ∉ t.kinds := by
    cases t <;> decide
  exact ⟨fun hkind => hnever.1 (hkind ▸ h), fun hkind => hnever.2.1 (hkind ▸ h),
    fun hkind => hnever.2.2 (hkind ▸ h)⟩

/-- Texts fit the type of texts and no other one. -/
theorem Fits.eq_text_iff (h : t.Fits v) : t = .text ↔ ∃ s, v = .text s := by
  rw [← Json.Value.kind_eq_text]
  constructor
  · rintro rfl
    exact List.mem_singleton.mp h
  · intro hkind
    rw [Fits, hkind] at h
    exact text_mem_kinds.mp h

end PropertyType

namespace Cardinality

/-- The operators that take a number of operands. -/
def operators : Cardinality → List Operator
  | .none => [.isNull, .isNotNull]
  | .single =>
    [.equals, .notEquals, .greaterThan, .greaterThanOrEqual, .lessThan, .lessThanOrEqual, .like,
      .notLike]
  | .list => [.isIn, .notIn]
  | .range => [.between, .notBetween]

theorem mem_operators {c : Cardinality} {op : Operator} :
    op ∈ c.operators ↔ op.cardinality = c := by
  cases op <;> cases c <;> decide

section Shapes

variable {value : Json.Value}

theorem admits_single : single.admits value = true ↔
    value ≠ .null ∧ ∀ items, value ≠ .array items := by
  cases value <;> simp [admits]

theorem operands_of_single (h : single.admits value = true) :
    Property.operands value = [value] := by
  cases value with
  | null => exact nomatch h
  | array items => exact nomatch h
  | _ => rfl

theorem exists_of_list (h : list.admits value = true) : ∃ items, value = .array items := by
  cases value with
  | array items => exact ⟨items, rfl⟩
  | _ => exact nomatch h

theorem exists_of_range (h : range.admits value = true) :
    ∃ low high, value = .array [low, high] := by
  cases value with
  | array items =>
      match items, h with
      | [low, high], _ => exact ⟨low, high, rfl⟩
  | _ => exact nomatch h

end Shapes

/-- A value in the shape for a number of operands, with the operands that it supplies. -/
inductive Supplies : Cardinality → Json.Value → List Json.Value → Prop
  | none : Supplies .none .null []
  | single {v} (hnull : v ≠ .null) (harray : ∀ items, v ≠ .array items) : Supplies .single v [v]
  | list {v vs} : Supplies .list (.array (v :: vs)) (v :: vs)
  | range {low high} : Supplies .range (.array [low, high]) [low, high]

variable {c : Cardinality} {value : Json.Value} {vs : List Json.Value}

theorem supplies_of_admits (h : c.admits value = true) :
    c.Supplies value (Property.operands value) := by
  cases c with
  | none =>
      cases value with
      | null => exact .none
      | _ => exact nomatch h
  | single =>
      obtain ⟨hnull, harray⟩ := admits_single.mp h
      rw [operands_of_single h]
      exact .single hnull harray
  | list =>
      obtain ⟨items, rfl⟩ := exists_of_list h
      cases items with
      | nil => exact nomatch h
      | cons v vs => exact .list
  | range =>
      obtain ⟨low, high, rfl⟩ := exists_of_range h
      exact .range

/-- A value has the right shape exactly if it supplies operands, and these are then checked. -/
theorem supplies_iff :
    c.Supplies value vs ↔ c.admits value = true ∧ Property.operands value = vs := by
  constructor
  · intro h
    cases h with
    | single hnull harray =>
        have hadmits := admits_single.mpr ⟨hnull, harray⟩
        exact ⟨hadmits, operands_of_single hadmits⟩
    | _ => exact ⟨rfl, rfl⟩
  · rintro ⟨hadmits, rfl⟩
    exact supplies_of_admits hadmits

theorem not_supplies_range :
    (∀ vs, ¬ range.Supplies value vs) ↔ ∀ low high, value ≠ .array [low, high] := by
  constructor
  · rintro h low high rfl
    exact h _ .range
  · rintro h vs ⟨⟩
    exact h _ _ rfl

theorem exists_supplies_iff : (∃ vs, c.Supplies value vs) ↔ c.admits value = true := by
  simp [supplies_iff]

end Cardinality

namespace Operator

variable {op : Operator} {value : Json.Value} {e : Error}

theorem checkCardinality_eq_ok :
    op.checkCardinality value = .ok () ↔ ∃ vs, op.cardinality.Supplies value vs := by
  rw [checkCardinality, Cardinality.exists_supplies_iff]
  by_cases h : op.cardinality.admits value = true
  · simp [h]
  · simp [h]

theorem checkCardinality_eq_error : op.checkCardinality value = .error e ↔
    (∀ vs, ¬ op.cardinality.Supplies value vs) ∧
      e = .valueCardinality op op.cardinality.requirement value.operandCount := by
  rw [← not_exists, checkCardinality, Cardinality.exists_supplies_iff]
  by_cases h : op.cardinality.admits value = true
  · simp [h]
  · simp [h, eq_comm]

end Operator

namespace Property

variable {p : Property} {op : Operator} {value : Json.Value} {vs : List Json.Value} {e : Error}

/-- A property lists its operators in order of declaration. -/
theorem filter_mem_operators (p : Property) :
    Operator.all.filter (fun op => op ∈ p.operators) = p.operators := by
  have hnodup : Operator.all.Nodup := by decide
  have hfilter := List.filter_sublist (p := fun op => op ∈ p.operators) (l := Operator.all)
  apply (hnodup.perm_iff_eq_of_sublist hfilter p.ordered).mp
  apply (List.perm_ext_iff_of_nodup (hfilter.nodup hnodup) (p.ordered.nodup hnodup)).mpr
  intro op
  simp [Operator.mem_all]

theorem supports_iff_mem : p.supports op = true ↔ op ∈ p.operators := by
  rw [supports, List.contains_iff_mem]

theorem validate_eq_ok : p.validate op = .ok () ↔ op ∈ p.operators := by
  rw [validate, ← supports_iff_mem]
  by_cases h : p.supports op = true
  · simp [h]
  · simp [h]

theorem validate_eq_error : p.validate op = .error e ↔
    op ∉ p.operators ∧ e = .operatorNotSupported p.name op p.operators := by
  rw [validate, ← supports_iff_mem]
  by_cases h : p.supports op = true
  · simp [h]
  · simp [h, eq_comm]

/-- Checks that operands fit the type of a property. -/
def checkOperands (p : Property) (vs : List Json.Value) : Except Error Unit :=
  match vs.find? fun v => !p.type.accepts v with
  | some bad => .error (.valueType p.name p.type bad.kind)
  | none => .ok ()

/-- Validation is three checks one after the other. -/
theorem validateValue_eq (p : Property) (op : Operator) (value : Json.Value) :
    p.validateValue op value = p.validate op >>= fun _ =>
      op.checkCardinality value >>= fun _ => p.checkOperands (operands value) := rfl

theorem checkOperands_eq_ok : p.checkOperands vs = .ok () ↔ ∀ v ∈ vs, p.type.Fits v := by
  rw [checkOperands]
  cases hbad : vs.find? fun v => !p.type.accepts v with
  | none => simpa [PropertyType.accepts_iff_fits] using List.find?_eq_none.mp hbad
  | some bad =>
      have hnot : p.type.accepts bad = false := by simpa using List.find?_some hbad
      refine iff_of_false (fun h => nomatch h) fun hfits => ?_
      have hfit := PropertyType.accepts_iff_fits.mpr (hfits bad (List.mem_of_find?_eq_some hbad))
      exact Bool.false_ne_true (hnot.symm.trans hfit)

/-- The first operand that does not fit is reported. -/
theorem checkOperands_eq_error : p.checkOperands vs = .error e ↔
    ∃ before bad after, vs = before ++ bad :: after ∧ (∀ v ∈ before, p.type.Fits v) ∧
      ¬ p.type.Fits bad ∧ e = .valueType p.name p.type bad.kind := by
  have hfind (bad : Json.Value) : (vs.find? fun v => !p.type.accepts v) = some bad ↔
      ¬ p.type.Fits bad ∧ ∃ before after, vs = before ++ bad :: after ∧
        ∀ v ∈ before, p.type.Fits v := by
    simp [List.find?_eq_some_iff_append, ← PropertyType.accepts_iff_fits]
  rw [checkOperands]
  cases hbad : vs.find? fun v => !p.type.accepts v with
  | none =>
      refine iff_of_false (fun h => nomatch h) ?_
      rintro ⟨before, bad, after, hvs, hbefore, hnot, -⟩
      rw [(hfind bad).mpr ⟨hnot, before, after, hvs, hbefore⟩] at hbad
      exact nomatch hbad
  | some bad =>
      constructor
      · intro h
        cases h
        obtain ⟨hnot, before, after, hvs, hbefore⟩ := (hfind bad).mp hbad
        exact ⟨before, bad, after, hvs, hbefore, hnot, rfl⟩
      · rintro ⟨before, first, after, hvs, hbefore, hnot, rfl⟩
        have hfirst := (hfind first).mpr ⟨hnot, before, after, hvs, hbefore⟩
        rw [Option.some.inj (hbad.symm.trans hfirst)]

/-- What is reported of an operator and its value that are not admitted: that the operator is not
supported, or else that the value has not the right shape, or else the first operand of a kind that
does not fit. -/
inductive Refusal (p : Property) (op : Operator) (value : Json.Value) : Error → Prop
  | operator (h : op ∉ p.operators) :
      Refusal p op value
        (.operatorNotSupported p.name op (Operator.all.filter fun op => op ∈ p.operators))
  | shape {actual} (hop : op ∈ p.operators) (h : ∀ vs, ¬ op.cardinality.Supplies value vs)
      (hactual : value.Counts actual) :
      Refusal p op value (.valueCardinality op op.cardinality.requirement actual)
  | type {before bad after} (hop : op ∈ p.operators)
      (hshape : op.cardinality.Supplies value (before ++ bad :: after))
      (hbefore : ∀ v ∈ before, p.type.Fits v) (h : bad.kind ∉ p.type.kinds) :
      Refusal p op value (.valueType p.name p.type bad.kind)

theorem validateValue_eq_ok : p.validateValue op value = .ok () ↔
    op ∈ p.operators ∧
      ∃ vs, op.cardinality.Supplies value vs ∧ ∀ v ∈ vs, p.type.Fits v := by
  rw [validateValue_eq, Outcome.bind_eq_ok]
  constructor
  · rintro ⟨⟨⟩, hop, h⟩
    obtain ⟨⟨⟩, hshape, htypes⟩ := Outcome.bind_eq_ok.mp h
    obtain ⟨vs, hvs⟩ := Operator.checkCardinality_eq_ok.mp hshape
    rw [(Cardinality.supplies_iff.mp hvs).2] at htypes
    exact ⟨validate_eq_ok.mp hop, vs, hvs, checkOperands_eq_ok.mp htypes⟩
  · rintro ⟨hop, vs, hvs, hfits⟩
    refine ⟨(), validate_eq_ok.mpr hop, Outcome.bind_eq_ok.mpr ⟨(), ?_, ?_⟩⟩
    · exact Operator.checkCardinality_eq_ok.mpr ⟨vs, hvs⟩
    · rw [(Cardinality.supplies_iff.mp hvs).2]
      exact checkOperands_eq_ok.mpr hfits

theorem validateValue_eq_error : p.validateValue op value = .error e ↔ p.Refusal op value e := by
  rw [validateValue_eq, Outcome.bind_eq_error]
  constructor
  · rintro (hop | ⟨⟨⟩, hop, h⟩)
    · obtain ⟨hunsupported, rfl⟩ := validate_eq_error.mp hop
      rw [← p.filter_mem_operators]
      exact .operator hunsupported
    · have hsupported := validate_eq_ok.mp hop
      rcases Outcome.bind_eq_error.mp h with hshape | ⟨⟨⟩, hshape, htypes⟩
      · obtain ⟨hnone, rfl⟩ := Operator.checkCardinality_eq_error.mp hshape
        exact .shape hsupported hnone value.counts_operandCount
      · obtain ⟨vs, hvs⟩ := Operator.checkCardinality_eq_ok.mp hshape
        rw [(Cardinality.supplies_iff.mp hvs).2] at htypes
        obtain ⟨before, bad, after, rfl, hbefore, hbad, rfl⟩ := checkOperands_eq_error.mp htypes
        exact .type hsupported hvs hbefore hbad
  · intro h
    cases h with
    | operator hunsupported =>
        rw [p.filter_mem_operators]
        exact .inl (validate_eq_error.mpr ⟨hunsupported, rfl⟩)
    | shape hsupported hnone hactual =>
        obtain rfl := Json.Value.counts_iff.mp hactual
        refine .inr ⟨(), validate_eq_ok.mpr hsupported, Outcome.bind_eq_error.mpr (.inl ?_)⟩
        exact Operator.checkCardinality_eq_error.mpr ⟨hnone, rfl⟩
    | @type before bad after hsupported hvs hbefore hbad =>
        refine .inr ⟨(), validate_eq_ok.mpr hsupported,
          Outcome.bind_eq_error.mpr (.inr ⟨(), ?_, ?_⟩)⟩
        · exact Operator.checkCardinality_eq_ok.mpr ⟨_, hvs⟩
        · rw [(Cardinality.supplies_iff.mp hvs).2]
          exact checkOperands_eq_error.mpr ⟨before, bad, after, rfl, hbefore, hbad, rfl⟩

/-- An operator and its value are admitted exactly if the property supports the operator and the
value supplies operands in the right shape, all of which fit the type and so are scalars. Otherwise
the first of these that fails is reported, with the kind of the first operand that does not fit. -/
theorem validateValue_decided (p : Property) (op : Operator) (value : Json.Value) :
    (∀ c, op.cardinality = c ↔ op ∈ c.operators) ∧
    (∀ v, p.type.accepts v = true ↔ p.type.Fits v) ∧ (∀ v, p.type.Fits v → v.IsScalar) ∧
    (p.validateValue op value = .ok () ↔ op ∈ p.operators ∧
      ∃ vs, op.cardinality.Supplies value vs ∧ ∀ v ∈ vs, p.type.Fits v) ∧
    ∀ e, p.validateValue op value = .error e ↔ p.Refusal op value e :=
  ⟨fun _ => Cardinality.mem_operators.symm, fun _ => PropertyType.accepts_iff_fits,
    fun _ h => h.isScalar, validateValue_eq_ok, fun _ => validateValue_eq_error⟩

/-- A list with two operands that do not fit is refused for the first of them. For a comparison it
is no single value, and a pattern is not looked for in integers at all. -/
theorem validateValue_decided_list :
    let p := Property.withDefaults "age" .integer
    let value := Json.Value.array [.number (.integer 18), .text "x", .null]
    p.validateValue .isIn value = .error (.valueType "age" .integer .text) ∧
      p.validateValue .equals value =
        .error (.valueCardinality .equals "a single value" 3) ∧
      p.validateValue .like value = .error (.operatorNotSupported "age" .like
        [.equals, .notEquals, .greaterThan, .greaterThanOrEqual, .lessThan, .lessThanOrEqual,
          .isIn, .notIn, .isNull, .isNotNull, .between, .notBetween]) := by
  intro p value
  have hdecided (op : Operator) := (validateValue_decided p op value).2.2.2.2
  refine ⟨(hdecided .isIn _).mpr ?_, (hdecided .equals _).mpr ?_, (hdecided .like _).mpr ?_⟩
  · have hshape : Operator.isIn.cardinality.Supplies value
        ([.number (.integer 18)] ++ .text "x" :: [.null]) := Cardinality.Supplies.list
    have hfits : ∀ v ∈ [Json.Value.number (.integer 18)], p.type.Fits v := by
      simp [p, Property.withDefaults, PropertyType.Fits, PropertyType.kinds, Json.Value.kind]
    exact .type (by decide) hshape hfits (by decide)
  · refine .shape (by decide) (fun vs hvs => ?_) (.array _)
    cases hvs with
    | single hnull harray => exact harray _ rfl
  · exact .operator (by decide)

end Property

end FilterLogic
