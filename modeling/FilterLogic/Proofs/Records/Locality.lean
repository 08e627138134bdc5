import FilterLogic.Proofs.Expr.Conservation
import FilterLogic.Proofs.Records.Operators
import FilterLogic.Proofs.Resolution.Backends
import FilterLogic.Proofs.Resolution.Memory

/-!
# What a resolved predicate looks at

A predicate that a request resolves to looks at the fields of those properties only that its
expression refers to, and depends on no other filter of the request. So two records that have these
fields alike are told apart by no request.
-/

namespace FilterLogic

namespace Predicate

/-- A field that two records have with one value, or that neither of them has. -/
inductive SameField (name : String) (record record' : Json.Value) : Prop
  | present {x} (h : Present name x record) (h' : Present name x record')
  | absent (h : Absent name record) (h' : Absent name record')

variable {name : String} {record record' : Json.Value}

theorem SameField.present? (h : SameField name record record') :
    present? name record = Predicate.present? name record' := by
  cases h with
  | present h h' => rw [present?_eq_some_iff.mpr h, present?_eq_some_iff.mpr h']
  | absent h h' => rw [present?_eq_none_iff.mpr h, present?_eq_none_iff.mpr h']

/-- The predicate of a filter looks at the field of its property only. -/
theorem holds_eq_of_sameField {property : Property} {op : Operator} {v : Json.Value}
    {p : Predicate} (hbuild : build property op v = .ok p)
    (h : SameField property.name record record') : p.holds record = p.holds record' := by
  by_cases hop : op = .isNull
  · subst hop
    cases hbuild
    exact congrArg Option.isNone h.present?
  · obtain ⟨test, rfl⟩ := exists_onField_of_build hop hbuild
    exact congrArg (Option.any test) h.present?

/-- To hold alike for two records is kept by all combinations. -/
theorem correspondence_holds (record record' : Json.Value) :
    Condition.Correspondence fun p q : Predicate => p.holds record = q.holds record' where
  kind_left _ _ := rfl
  kind_right _ _ := rfl
  both h h' := congrArg₂ Bool.and h h'
  either h h' := congrArg₂ Bool.or h h'
  negate h := congrArg Bool.not h

end Predicate

namespace Request

variable {C : Type} [Condition C] [LawfulCondition C] {builder : Builder C} {kind : String}
  {request : Request}

/-- A filter that the expression does not refer to can be any filter that is valid and built. -/
theorem resolve_insert (hbuilder : builder.Regular kind) {c : C} {t : Expr.Tree}
    (hparse : Expr.parse request.combineWith = .ok t)
    (h : (request.resolve builder).outcome = .ok c) {key : String} (hkey : key ∉ t.leaves)
    {f : Filter} (hf : f.Usable builder) :
    (({ request with filters := request.filters.insert key f } : Request).resolve
      builder).outcome = .ok c := by
  obtain ⟨t', leaf, hparse', husable, hleaves, hc⟩ := (resolve_eq_ok_iff hbuilder).mp h
  obtain rfl : t = t' := Except.ok.inj (hparse.symm.trans hparse')
  refine (resolve_eq_ok_iff hbuilder).mpr ⟨t, leaf, hparse, fun name g hg => ?_,
    fun name hname => ?_, hc⟩
  · rw [KeyMap.get?_insert] at hg
    split_ifs at hg
    · cases hg
      exact hf
    · exact husable name g hg
  · have hne : key ≠ name := fun heq => hkey (heq ▸ hname)
    rw [KeyMap.get?_insert, if_neg hne]
    exact hleaves name hname

/-- A resolved predicate holds alike for records that have alike the fields of all properties that
the expression refers to. A filter that it does not refer to can be replaced by any other one that
is valid and built, and the request still resolves to the same predicate. -/
theorem resolve_local {c : Predicate} (h : (request.resolve Predicate.build).outcome = .ok c) :
    ∃ t, Expr.parse request.combineWith = .ok t ∧
      (∀ record record',
        (∀ key ∈ t.identifiers, ∀ f, request.filters.get? key = some f →
          Predicate.SameField f.property.name record record') →
        c.holds record = c.holds record') ∧
      ∀ key f, key ∉ t.identifiers → f.Usable Predicate.build →
        (({ request with filters := request.filters.insert key f } : Request).resolve
          Predicate.build).outcome = .ok c := by
  obtain ⟨t, leaf, hparse, hleaves, hc⟩ := resolve_eq_ok h
  refine ⟨t, hparse, fun record record' hfields => ?_, fun key f hkey hf => ?_⟩
  · rw [hc]
    refine Expr.Tree.combine_correspond (Predicate.correspondence_holds record record')
      fun key hkey => ?_
    obtain ⟨f, hf, -, hbuilt⟩ := hleaves key hkey
    have hsame := hfields key (Expr.Tree.mem_identifiers.mpr hkey) f hf
    exact Predicate.holds_eq_of_sameField hbuilt hsame
  · rw [Expr.Tree.mem_identifiers] at hkey
    exact resolve_insert Predicate.regular_build hparse h hkey hf

/-- A request about an age takes no notice of names, neither in a record nor in a filter beside. -/
theorem resolve_local_age :
    let request (op : Operator) (name : String) := Request.ofList
      [("adult", ⟨.withDefaults "age" .integer, .lessThan, .number (.integer 18)⟩),
        ("other", ⟨.withDefaults "name" .text, op, .text name⟩)] "!adult"
    ∃ c, ((request .equals "Bob").resolve Predicate.build).outcome = .ok c ∧
      c.holds (.object [("age", .null), ("name", .text "Bob")]) = c.holds (.text "Ann") ∧
      ((request .notLike "B%").resolve Predicate.build).outcome = .ok c := by
  intro request
  have htokens : Expr.tokenize "!adult" = .ok [⟨.not, 0⟩, ⟨.identifier "adult", 1⟩] :=
    Expr.tokenize_eq_ok.mpr ⟨by decide, by decide +kernel⟩
  have hparse : Expr.parse "!adult" = .ok (.not (.leaf "adult")) := Expr.parse_of_tokenize htokens
  obtain ⟨c, hc⟩ : ∃ c, ((request .equals "Bob").resolve Predicate.build).outcome = .ok c := by
    rw [outcome_resolve, tree_eq_ok.mpr hparse]
    exact ⟨_, rfl⟩
  obtain ⟨t, ht, hrecords, hfilters⟩ := resolve_local hc
  obtain rfl := Except.ok.inj (hparse.symm.trans ht)
  refine ⟨c, hc, hrecords _ _ fun key hkey f hf => ?_, ?_⟩
  · obtain rfl : key = "adult" := List.mem_singleton.mp hkey
    cases hf
    exact .absent (.null rfl) (.noObject nofun)
  · exact hfilters "other" ⟨.withDefaults "name" .text, .notLike, .text "B%"⟩ (by decide)
      ⟨rfl, _, rfl⟩

end Request

end FilterLogic
