import FilterLogic.Proofs.Records.Operators
import FilterLogic.Proofs.Sql.Parameters

/-!
# Conditions of validated values

What validation admits can be written in SQL, with operands of the property's type for parameters.
A predicate on records can be built from it too, unless it is a pattern for a property that holds no
texts: validation wants a value of the property's type there, and the predicate wants a text. The
bounds of a range are looked for twice, by validation and by the builders, with the same result.
-/

namespace FilterLogic

namespace Operator

variable {op : Operator} {value : Json.Value} {e : Error}

/-- The operators whose operand is a range. -/
def ranges : List Operator := [.between, .notBetween]

theorem mem_ranges : op ∈ ranges ↔ op.cardinality = .range :=
  Cardinality.mem_operators (c := .range)

theorem cardinality_of_mem_patterns (h : op ∈ patterns) : op.cardinality = .single := by
  revert h
  cases op <;> decide

/-- The check for the shape of a range and the search for its bounds fail alike, though each has
its own words for what is required and counts by itself what was given. -/
theorem checkCardinality_eq_error_iff_bounds (hop : op.cardinality = .range) :
    op.checkCardinality value = .error e ↔ Operand.bounds op value = .error e := by
  rw [checkCardinality_eq_error, Operand.bounds_eq_error, hop, Cardinality.requirement]

end Operator

variable {p : Property} {op : Operator} {value : Json.Value} {e : Error}

/-- A validated value is written in SQL with operands that fit the type for parameters. -/
theorem Sql.Fragment.exists_build_of_validateValue (h : p.validateValue op value = .ok ())
    (dialect : Dialect) : ∃ f, build dialect p op value = .ok f ∧
      op.cardinality.Supplies value f.parameters ∧
      ∀ v ∈ f.parameters, v.IsScalar ∧ p.type.accepts v = true := by
  obtain ⟨-, vs, hvs, hfits⟩ := Property.validateValue_eq_ok.mp h
  obtain ⟨f, hf, rfl⟩ := exists_build_of_supplies hvs dialect p
  refine ⟨f, hf, hvs, fun v hv => ⟨(hfits v hv).isScalar, ?_⟩⟩
  exact PropertyType.accepts_iff_fits.mpr (hfits v hv)

theorem Sql.Fragment.build_eq_error_iff_checkCardinality (hop : op.cardinality = .range)
    (dialect : Dialect) :
    build dialect p op value = .error e ↔ op.checkCardinality value = .error e := by
  rw [build_eq_error, Operator.checkCardinality_eq_error_iff_bounds hop]
  exact and_iff_right hop

namespace Predicate

/-- The operand of a pattern fits the type, so it is a text for the properties that hold texts. -/
theorem text_of_validateValue (h : p.validateValue op value = .ok ())
    (hop : op ∈ Operator.patterns) : p.type = .text ↔ ∃ pattern, value = .text pattern := by
  obtain ⟨-, vs, hvs, hfits⟩ := Property.validateValue_eq_ok.mp h
  rw [Operator.cardinality_of_mem_patterns hop] at hvs
  cases hvs with
  | single => exact (hfits value (List.mem_singleton.mpr rfl)).eq_text_iff

theorem build_eq_error_of_validateValue (h : p.validateValue op value = .ok ()) :
    build p op value = .error e ↔ op ∈ Operator.patterns ∧ p.type ≠ .text ∧
      e = .valueType p.name .text value.kind := by
  rw [build_eq_error]
  constructor
  · intro hrefused
    cases hrefused with
    | pattern hop hpattern =>
        refine ⟨hop, fun htext => ?_, rfl⟩
        obtain ⟨pattern, hvalue⟩ := (text_of_validateValue h hop).mp htext
        exact hpattern pattern hvalue
    | range hop hbounds =>
        -- The shape was checked, and the operands that it supplies are the bounds.
        obtain ⟨-, vs, hvs, -⟩ := Property.validateValue_eq_ok.mp h
        exact absurd (hop ▸ hvs) ((Operand.bounds_eq_error.mp hbounds).1 vs)
  · rintro ⟨hop, htext, rfl⟩
    exact .pattern hop fun pattern hvalue =>
      htext ((text_of_validateValue h hop).mpr ⟨pattern, hvalue⟩)

theorem exists_build_of_validateValue (h : p.validateValue op value = .ok ()) :
    (∃ c, build p op value = .ok c) ↔ (op ∈ Operator.patterns → p.type = .text) := by
  rw [Outcome.exists_eq_ok]
  constructor
  · intro hnever hop
    by_contra htext
    exact hnever _ ((build_eq_error_of_validateValue h).mpr ⟨hop, htext, rfl⟩)
  · intro htext e herror
    obtain ⟨hop, hother, -⟩ := (build_eq_error_of_validateValue h).mp herror
    exact hother (htext hop)

theorem build_eq_error_iff_checkCardinality (hop : op.cardinality = .range) :
    build p op value = .error e ↔ op.checkCardinality value = .error e := by
  rw [build_eq_error, Operator.checkCardinality_eq_error_iff_bounds hop]
  constructor
  · intro hrefused
    cases hrefused with
    | pattern hpattern => cases hop.symm.trans (Operator.cardinality_of_mem_patterns hpattern)
    | range _ hbounds => exact hbounds
  · exact .range hop

end Predicate

namespace Property

/-- A validated value is written in SQL with no, one, two or a list of parameters, as the operator
needs, all of them scalars that the type of the property accepts. A predicate on records is built
from it, but for a pattern where the property holds no texts. Of all values, validated or not, those
are refused as ranges by either builder that the check for their shape refuses, with its error. -/
theorem validation_suffices :
    (∀ (p : Property) (op : Operator) (value : Json.Value), p.validateValue op value = .ok () →
      (∀ dialect, ∃ f, Sql.Fragment.build dialect p op value = .ok f ∧
        op.cardinality.Supplies value f.parameters ∧
        ∀ v ∈ f.parameters, v.IsScalar ∧ p.type.accepts v = true) ∧
      ((∃ c, Predicate.build p op value = .ok c) ↔ (op ∈ Operator.patterns → p.type = .text)) ∧
      ∀ e, Predicate.build p op value = .error e ↔ op ∈ Operator.patterns ∧ p.type ≠ .text ∧
        e = .valueType p.name .text value.kind) ∧
    ∀ (p : Property) (op : Operator) (value : Json.Value) (e : Error), op ∈ Operator.ranges →
      (∀ dialect, Sql.Fragment.build dialect p op value = .error e ↔
        op.checkCardinality value = .error e) ∧
      (Predicate.build p op value = .error e ↔ op.checkCardinality value = .error e) ∧
      (op.checkCardinality value = .error e ↔ (∀ low high, value ≠ .array [low, high]) ∧
        ∃ actual, value.Counts actual ∧
          e = .valueCardinality op "exactly 2 values" actual) := by
  refine ⟨fun p op value h => ⟨?_, ?_, ?_⟩, fun p op value e hop => ?_⟩
  · exact Sql.Fragment.exists_build_of_validateValue h
  · exact Predicate.exists_build_of_validateValue h
  · exact fun e => Predicate.build_eq_error_of_validateValue h
  · have hrange := Operator.mem_ranges.mp hop
    refine ⟨Sql.Fragment.build_eq_error_iff_checkCardinality hrange,
      Predicate.build_eq_error_iff_checkCardinality hrange, ?_⟩
    rw [Operator.checkCardinality_eq_error_iff_bounds hrange, Operand.bounds_eq_error,
      Cardinality.not_supplies_range]
    simp only [Json.Value.counts_iff, exists_eq_left']

/-- Where an age is asked for by a pattern, SQL takes a number for it and records do not. A range
makes a condition of either kind, and both refuse a list of one as a range in the same way. -/
theorem validation_suffices_pattern :
    let age : Property := ⟨"age", .integer, [.like, .between], by decide, by decide⟩
    let one : Json.Value := .number (.integer 1)
    (∃ f, Sql.Fragment.build .sqlite age .like one = .ok f ∧
        Cardinality.single.Supplies one f.parameters) ∧
      Predicate.build age .like one = .error (.valueType "age" .text .integer) ∧
      (∃ c, Predicate.build age .between (.array [one, one]) = .ok c) ∧
      Sql.Fragment.build .postgres age .notBetween (.array [one]) =
        .error (.valueCardinality .notBetween "exactly 2 values" 1) ∧
      Predicate.build age .notBetween (.array [one]) =
        .error (.valueCardinality .notBetween "exactly 2 values" 1) := by
  intro age one
  obtain ⟨hvalid, hrange⟩ := validation_suffices
  have hlike : age.validateValue .like one = .ok () := by decide
  have hbetween : age.validateValue .between (.array [one, one]) = .ok () := by decide
  obtain ⟨hsql, -, hmemory⟩ := hvalid age .like one hlike
  obtain ⟨f, hf, hparameters, -⟩ := hsql .sqlite
  obtain ⟨hsql', hmemory', hshape⟩ := hrange age .notBetween (.array [one])
    (.valueCardinality .notBetween "exactly 2 values" 1) (by decide)
  have hrefused := hshape.mpr ⟨nofun, 1, .array _, rfl⟩
  refine ⟨⟨f, hf, hparameters⟩, (hmemory _).mpr ⟨by decide, by decide, rfl⟩, ?_,
    (hsql' .postgres).mpr hrefused, hmemory'.mpr hrefused⟩
  exact (hvalid age .between _ hbetween).2.1.mpr fun hop => absurd hop (by decide)

end Property

end FilterLogic
