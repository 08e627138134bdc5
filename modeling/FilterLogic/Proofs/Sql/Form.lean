import FilterLogic.Proofs.Sql.Parameters

/-!
# What SQL text depends on

The text of a filter's fragment is put together from the name of the property, the operator and the
number of values. The values themselves go to the parameters only, and combining fragments looks at
neither. So requests that differ in their values resolve to the same text.
-/

namespace FilterLogic

namespace Sql

/-- The text between a column and the first value of an operator. -/
def introduction (op : Operator) : String :=
  match op.cardinality with
  | .single => " " ++ comparisonSymbol op ++ " "
  | .list => " " ++ op.symbol ++ " ("
  | .none => " " ++ op.symbol
  | .range => " " ++ op.symbol ++ " "

/-- The places of an operator's values with the text between and after them. -/
def operandPlaces (op : Operator) (count : Nat) : List Segment :=
  match op.cardinality with
  | .single => [.placeholder]
  | .list => placeholderList count ++ [.text ")"]
  | .none => []
  | .range => [.placeholder, .text " AND ", .placeholder]

/-- The segments of a filter on a property with an operator and a number of values. -/
def filterSegments (name : String) (op : Operator) (count : Nat) : List Segment :=
  .text (quoteIdentifier name) :: .text (introduction op) :: operandPlaces op count

/-- Only lists vary in the number of their values. -/
theorem operandPlaces_congr {op : Operator} {count count' : Nat}
    (h : op.cardinality = .list → count = count') :
    operandPlaces op count = operandPlaces op count' := by
  unfold operandPlaces
  cases hcardinality : op.cardinality with
  | list => rw [h hcardinality]
  | _ => rfl

theorem segments_of_operatorPart {op : Operator} {value : Json.Value} {segments : List Segment}
    {parameters : List Json.Value} (h : operatorPart op value = .ok (segments, parameters)) :
    segments = .text (introduction op) :: operandPlaces op parameters.length := by
  rw [introduction, operandPlaces]
  cases hcardinality : op.cardinality with
  | none =>
      rw [operatorPart_of_none value hcardinality] at h
      cases h
      rfl
  | single =>
      rw [operatorPart_of_single value hcardinality] at h
      cases h
      rfl
  | list =>
      rw [operatorPart_of_list value hcardinality] at h
      cases h
      rfl
  | range =>
      rw [operatorPart_of_range value hcardinality] at h
      obtain ⟨⟨low, high⟩, -, hparts⟩ := Outcome.bind_eq_ok.mp h
      cases hparts
      rfl

namespace Fragment

/-- What is built shows the name, the operator and the number of values, and no more. -/
theorem segments_of_build {dialect : Dialect} {property : Property} {op : Operator}
    {value : Json.Value} {f : Fragment} (h : build dialect property op value = .ok f) :
    f.segments = filterSegments property.name op f.parameters.length := by
  obtain ⟨⟨segments, parameters⟩, hpart, hf⟩ := Outcome.bind_eq_ok.mp h
  cases hf
  rw [filterSegments, segments_of_operatorPart hpart]

/-- Fragments of one dialect that differ in their parameters only. -/
def SameText (dialect : Dialect) (f g : Fragment) : Prop :=
  f.dialect = dialect ∧ g = { f with parameters := g.parameters }

theorem correspondence_sameText (dialect : Dialect) :
    Condition.Correspondence (SameText dialect) where
  kind_left := by
    rintro a a' b b' ⟨hdialect, -⟩ ⟨hdialect', -⟩
    exact congrArg Dialect.kind (hdialect.trans hdialect'.symm)
  kind_right := by
    rintro a a' b b' ⟨hdialect, hb⟩ ⟨hdialect', hb'⟩
    rw [hb, hb']
    exact congrArg Dialect.kind (hdialect.trans hdialect'.symm)
  both := by
    rintro a a' b b' ⟨hdialect, hb⟩ ⟨-, hb'⟩
    rw [hb, hb']
    exact ⟨hdialect, rfl⟩
  either := by
    rintro a a' b b' ⟨hdialect, hb⟩ ⟨-, hb'⟩
    rw [hb, hb']
    exact ⟨hdialect, rfl⟩
  negate := by
    rintro a b ⟨hdialect, hb⟩
    rw [hb]
    exact ⟨hdialect, rfl⟩

end Fragment

end Sql

namespace Filter

/-- Two filters that differ at most in their values and in what these are checked against. Where an
operator takes a list, the lists have one length. -/
structure SameForm (f g : Filter) : Prop where
  name : f.property.name = g.property.name
  operator : f.operator = g.operator
  count : f.operator.cardinality = .list → f.value.operandCount = g.value.operandCount

/-- A valid list has its items for values. -/
theorem length_operandValues {f : Filter} (hvalid : f.validate = .ok ())
    (hlist : f.operator.cardinality = .list) :
    f.operandValues.length = f.value.operandCount := by
  have hadmits := admits_of_validate hvalid
  rw [hlist] at hadmits
  rw [operandValues, hlist]
  cases hvalue : f.value with
  | array items => rfl
  | _ =>
      rw [hvalue] at hadmits
      exact absurd hadmits Bool.false_ne_true

/-- Valid filters of one form are built into fragments of one text. -/
theorem SameForm.sameText {f g : Filter} (h : f.SameForm g) {dialect : Sql.Dialect}
    {c d : Sql.Fragment} (hf : f.validate = .ok ()) (hg : g.validate = .ok ())
    (hc : Sql.Fragment.build dialect f.property f.operator f.value = .ok c)
    (hd : Sql.Fragment.build dialect g.property g.operator g.value = .ok d) :
    Sql.Fragment.SameText dialect c d := by
  have hcount : f.operator.cardinality = .list → c.parameters.length = d.parameters.length := by
    intro hlist
    have hlist' : g.operator.cardinality = .list := h.operator ▸ hlist
    rw [parameters_of_build hf hc, parameters_of_build hg hd, length_operandValues hf hlist,
      length_operandValues hg hlist', h.count hlist]
  have hsegments : c.segments = d.segments := by
    rw [Sql.Fragment.segments_of_build hc, Sql.Fragment.segments_of_build hd, ← h.name,
      ← h.operator, Sql.filterSegments, Sql.filterSegments, Sql.operandPlaces_congr hcount]
  have hdialect := Sql.Fragment.dialect_of_build hc
  have hdialect' := Sql.Fragment.dialect_of_build hd
  obtain ⟨_, segments, parameters⟩ := c
  obtain ⟨_, segments', parameters'⟩ := d
  obtain rfl : segments = segments' := hsegments
  obtain rfl := hdialect
  obtain rfl := hdialect'
  exact ⟨rfl, rfl⟩

end Filter

namespace Sql.Fragment

/-- Requests with one expression and filters of one form resolve to one text. Only the parameters
differ. -/
theorem toSql_eq_of_sameForm {dialect : Dialect} {request request' : Request} {f g : Fragment}
    (hexpression : request.combineWith = request'.combineWith)
    (hfilters : ∀ key, Option.Rel Filter.SameForm (request.filters.get? key)
      (request'.filters.get? key))
    (hf : (request.resolve (build dialect)).outcome = .ok f)
    (hg : (request'.resolve (build dialect)).outcome = .ok g) :
    f.toSql = g.toSql ∧ g = { f with parameters := g.parameters } := by
  obtain ⟨t, leaf, hparse, hleaves, rfl⟩ := Request.resolve_eq_ok hf
  obtain ⟨t', leaf', hparse', hleaves', rfl⟩ := Request.resolve_eq_ok hg
  obtain rfl : t = t' := by
    rw [← hexpression, hparse] at hparse'
    exact Except.ok.inj hparse'
  have hleaf : ∀ key ∈ t.leaves, SameText dialect (leaf key) (leaf' key) := by
    intro key hkey
    obtain ⟨p, hp, hvalid, hbuilt⟩ := hleaves key hkey
    obtain ⟨q, hq, hvalid', hbuilt'⟩ := hleaves' key hkey
    have hform := hfilters key
    rw [hp, hq] at hform
    cases hform with
    | some hform => exact hform.sameText hvalid hvalid' hbuilt hbuilt'
  obtain ⟨-, htext⟩ := Expr.Tree.combine_correspond (correspondence_sameText dialect) hleaf
  refine ⟨?_, htext⟩
  rw [htext]
  rfl

/-- Values that would end a literal or name a placeholder leave no trace in the text. -/
theorem toSql_eq_of_sameForm_hostile :
    let request (first second low high : Json.Value) := Request.ofList
      [("names", ⟨.withDefaults "na\"me" .text, .isIn, .array [first, second]⟩),
        ("range", ⟨.withDefaults "age" .integer, .between, .array [low, high]⟩)] "range & !names"
    let plain := request (.text "Ann") (.text "Bob") (.number (.integer 1)) (.number (.integer 5))
    let hostile := request (.text "') OR 1 = 1 --") (.text "$1") (.number (.integer 7))
      (.number (.integer 2))
    ∃ f g,
      (plain.resolve (build .postgres)).outcome = .ok f ∧
      (hostile.resolve (build .postgres)).outcome = .ok g ∧
      f.toSql = "(\"age\" BETWEEN $1 AND $2 AND NOT (\"na\"\"me\" IN ($3, $4)))" ∧
      f.toSql = g.toSql ∧ g = { f with parameters := g.parameters } := by
  intro request plain hostile
  have htokens : Expr.tokenize "range & !names" = .ok
      [⟨.identifier "range", 0⟩, ⟨.and, 6⟩, ⟨.not, 8⟩, ⟨.identifier "names", 9⟩] :=
    Expr.tokenize_eq_ok.mpr ⟨by decide, by decide +kernel⟩
  have htree (first second low high : Json.Value) : (request first second low high).tree =
      .ok (.and (.leaf "range") (.not (.leaf "names"))) :=
    Request.tree_eq_ok.mpr (Expr.parse_of_tokenize htokens)
  obtain ⟨f, hf, htext⟩ : ∃ f, (plain.resolve (build .postgres)).outcome = .ok f ∧
      f.toSql = "(\"age\" BETWEEN $1 AND $2 AND NOT (\"na\"\"me\" IN ($3, $4)))" := by
    rw [Request.outcome_resolve, htree]
    exact ⟨_, rfl, by decide +kernel⟩
  obtain ⟨g, hg⟩ : ∃ g, (hostile.resolve (build .postgres)).outcome = .ok g := by
    rw [Request.outcome_resolve, htree]
    exact ⟨_, rfl⟩
  have hexpression : plain.combineWith = hostile.combineWith := rfl
  refine ⟨f, g, hf, hg, htext, toSql_eq_of_sameForm hexpression (fun key => ?_) hf hg⟩
  apply AscendingKeys.find?_of_forall₂
  exact .cons ⟨rfl, rfl, rfl, fun _ => rfl⟩ (.cons ⟨rfl, rfl, rfl, fun _ => rfl⟩ .nil)

end Sql.Fragment

end FilterLogic
