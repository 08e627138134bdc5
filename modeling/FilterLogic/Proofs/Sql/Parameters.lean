import FilterLogic.Proofs.Expr.Lexemes
import FilterLogic.Proofs.Resolution.Operands
import FilterLogic.Proofs.Sql.Alignment

/-!
# The parameters of a request

A request that resolves to SQL has the operand values of its filters for parameters, in the order in
which the keys stand in the expression. The dialect decides about the placeholders only.
-/

namespace FilterLogic

/-- A value in the right shape is written with its operands for parameters. -/
theorem Sql.operatorPart_of_supplies {op : Operator} {value : Json.Value} {vs : List Json.Value}
    (h : op.cardinality.Supplies value vs) :
    ∃ segments, operatorPart op value = .ok (segments, vs) := by
  generalize hcardinality : op.cardinality = c at h
  cases h with
  | none => exact ⟨_, operatorPart_of_none _ hcardinality⟩
  | single => exact ⟨_, operatorPart_of_single _ hcardinality⟩
  | list => exact ⟨_, operatorPart_of_list _ hcardinality⟩
  | range => exact ⟨_, operatorPart_of_range _ hcardinality⟩

theorem Sql.Fragment.exists_build_of_supplies {op : Operator} {value : Json.Value}
    {vs : List Json.Value} (h : op.cardinality.Supplies value vs) (dialect : Dialect)
    (property : Property) :
    ∃ f, build dialect property op value = .ok f ∧ f.parameters = vs := by
  obtain ⟨segments, hpart⟩ := operatorPart_of_supplies h
  exact ⟨_, Outcome.bind_eq_ok.mpr ⟨_, hpart, rfl⟩, rfl⟩

/-- Nothing but a range without bounds cannot be written. -/
theorem Sql.operatorPart_eq_error {op : Operator} {value : Json.Value} {e : Error} :
    operatorPart op value = .error e ↔
      op.cardinality = .range ∧ Operand.bounds op value = .error e := by
  cases hcardinality : op.cardinality with
  | none => simp [operatorPart_of_none value hcardinality]
  | single => simp [operatorPart_of_single value hcardinality]
  | list => simp [operatorPart_of_list value hcardinality]
  | range =>
      rw [operatorPart_of_range value hcardinality, eq_self, true_and]
      exact Outcome.bind_ok_eq_error

theorem Sql.Fragment.build_eq_error {dialect : Dialect} {property : Property} {op : Operator}
    {value : Json.Value} {e : Error} : build dialect property op value = .error e ↔
      op.cardinality = .range ∧ Operand.bounds op value = .error e := by
  rw [← operatorPart_eq_error]
  exact Outcome.bind_ok_eq_error

/-- The parameters of a filter's fragment are the values it compares with. -/
theorem Filter.parameters_of_build {f : Filter} {dialect : Sql.Dialect} {c : Sql.Fragment}
    (hvalid : f.validate = .ok ())
    (h : Sql.Fragment.build dialect f.property f.operator f.value = .ok c) :
    c.parameters = f.operandValues := by
  obtain ⟨-, vs, hvs, -⟩ := Property.validateValue_eq_ok.mp hvalid
  obtain ⟨c', hc', hparameters⟩ := Sql.Fragment.exists_build_of_supplies hvs dialect f.property
  obtain rfl : c = c' := Except.ok.inj (h.symm.trans hc')
  rw [hparameters, operandValues_of_supplies hvs]

/-- The values that the filter under a key compares with. -/
def Request.operandValues (request : Request) (key : String) : List Json.Value :=
  match request.filters.get? key with
  | some f => f.operandValues
  | none => []

namespace Sql.Fragment

theorem dialect_of_build {dialect : Dialect} {property : Property} {op : Operator}
    {value : Json.Value} {f : Fragment} (h : build dialect property op value = .ok f) :
    f.dialect = dialect := by
  obtain ⟨_, -, hf⟩ := Outcome.bind_eq_ok.mp h
  cases hf
  rfl

/-- Composed fragments of one dialect combine to such a fragment. -/
theorem composed_combine {dialect : Dialect} {t : Expr.Tree} {leaf : String → Fragment}
    (h : ∀ key ∈ t.leaves, (leaf key).Composed ∧ (leaf key).dialect = dialect) :
    (t.combine leaf).Composed ∧ (t.combine leaf).dialect = dialect := by
  induction t with
  | leaf name => exact h name (List.mem_singleton.mpr rfl)
  | not t ih =>
      obtain ⟨hcomposed, hdialect⟩ := ih h
      exact ⟨hcomposed.negate, hdialect⟩
  | and l r ihl ihr =>
      obtain ⟨hl, hldialect⟩ := ihl fun key hkey => h key (List.mem_append_left _ hkey)
      obtain ⟨hr, hrdialect⟩ := ihr fun key hkey => h key (List.mem_append_right _ hkey)
      have hkind := congrArg Dialect.kind (hldialect.trans hrdialect.symm)
      exact ⟨hl.conjoin hr (Condition.conjoin_eq_ok.mpr ⟨hkind, rfl⟩), hldialect⟩
  | or l r ihl ihr =>
      obtain ⟨hl, hldialect⟩ := ihl fun key hkey => h key (List.mem_append_left _ hkey)
      obtain ⟨hr, hrdialect⟩ := ihr fun key hkey => h key (List.mem_append_right _ hkey)
      have hkind := congrArg Dialect.kind (hldialect.trans hrdialect.symm)
      exact ⟨hl.disjoin hr (Condition.disjoin_eq_ok.mpr ⟨hkind, rfl⟩), hldialect⟩

end Sql.Fragment

end FilterLogic
