import FilterLogic.Proofs.Expr.Lexemes
import FilterLogic.Proofs.Records.Operators
import FilterLogic.Proofs.Resolution.Faults
import FilterLogic.Proofs.Sql.Parameters
import FilterLogic.Registry

/-!
# When a backend resolves a request

The builders for records and for SQL make conditions of one kind each, and they refuse nothing but
an operator or its value. For such a builder it depends on the expression and on the filters alone
whether a request is resolved, and which error is reported if it is not.
-/

namespace FilterLogic

/-- Whether an error is about an operator or its value, as those of single filters are. -/
def Error.isValueFault : Error → Bool
  | .operatorNotSupported .. => true
  | .valueCardinality .. => true
  | .valueType .. => true
  | _ => false

namespace Filter

/-- Each check of a filter reports the operator or its value. -/
theorem isValueFault_of_validate {f : Filter} {e : Error} (h : f.validate = .error e) :
    e.isValueFault = true := by
  cases Property.validateValue_eq_error.mp h <;> rfl

end Filter

theorem Operand.isValueFault_of_bounds {op : Operator} {value : Json.Value} {e : Error}
    (h : bounds op value = .error e) : e.isValueFault = true := by
  obtain ⟨-, rfl⟩ := Operand.bounds_eq_error.mp h
  rfl

namespace Builder

variable {C : Type} [Condition C] {builder : Builder C} {kind : String}

/-- A builder whose conditions have one kind, and that refuses operators and values only. -/
structure Regular (builder : Builder C) (kind : String) : Prop where
  kind_eq {property op value c} (h : builder property op value = .ok c) : Condition.kind c = kind
  isValueFault {property op value e} (h : builder property op value = .error e) :
    e.isValueFault = true

/-- What decides how a request is resolved with a builder. -/
structure Decided (builder : Builder C) : Prop where
  /-- A request is resolved exactly if its expression is one, all of its filters can be used, also
  those that the expression does not refer to, and every leaf is the key of a filter. -/
  ok_iff (request : Request) : (∃ c, (request.resolve builder).outcome = .ok c) ↔
    ∃ t, Expr.parse request.combineWith = .ok t ∧
      (∀ key f, request.filters.get? key = some f → f.Usable builder) ∧
      ∀ key ∈ t.leaves, request.filters.contains key = true
  /-- A fault of the expression is reported before anything is called. -/
  parse_error {request : Request} {fault} (h : Expr.parse request.combineWith = .error fault) :
    request.resolve builder = ⟨[], .error (.expression fault)⟩
  /-- An error is the first fault: of the expression, of the filters by key, or of the leaves. -/
  fault {request : Request} {e} (h : (request.resolve builder).outcome = .error e) :
    request.Fault builder e
  /-- Conditions of different kinds never meet. -/
  compatible (request : Request) (left right : String) :
    (request.resolve builder).outcome ≠ .error (.incompatibleKinds left right)
  /-- What is wrong with a filter is neither another filter nor an expression. -/
  source {request : Request} {key source}
    (h : (request.resolve builder).outcome = .error (.filter key source)) :
    source.isValueFault = true ∧ (∀ key e, source ≠ .filter key e) ∧ source.isSyntaxError = false
  /-- The expression of a request that a registry has resolved is never at fault. -/
  registered {registry : Registry} {raw : RawRequest} {request : Request} {e}
    (hraw : registry.resolveRequest raw = .ok request)
    (h : (request.resolve builder).outcome = .error e) : e.isSyntaxError = false

end Builder

theorem Filter.Fault.isValueFault {C : Type} [Condition C] {builder : Builder C} {kind : String}
    (hbuilder : builder.Regular kind) {f : Filter} {e : Error} (h : f.Fault builder e) :
    e.isValueFault = true := by
  cases h with
  | invalid h => exact Filter.isValueFault_of_validate h
  | unbuilt _ h => exact hbuilder.isValueFault h

namespace Context

variable {C : Type} {builder : Builder C}

theorem uniform_of_build [Condition C] {kind : String} (hbuilder : builder.Regular kind)
    {request : Request} {ctx : Context C} (h : (build builder request).outcome = .ok ctx) :
    ctx.Uniform kind := by
  intro key c hc
  obtain ⟨f, -, hbuilt⟩ := (get?_build h).mp hc
  exact hbuilder.kind_eq (Filter.build_eq_ok.mp hbuilt).2

/-- A leaf without a condition in the context of a request is a leaf without a filter. -/
theorem FirstMissing.fault {request : Request} {ctx : Context C}
    (hctx : (build builder request).outcome = .ok ctx) {t : Expr.Tree} {e : Error}
    (hparse : Expr.parse request.combineWith = .ok t) (h : ctx.FirstMissing t.leaves e) :
    request.Fault builder e := by
  obtain ⟨before, key, after, hleaves, hbefore, hkey, rfl⟩ := h
  have husable := exists_build_eq_ok.mp ⟨ctx, hctx⟩
  have hmissing : request.filters.contains key = false := by
    rw [Bool.eq_false_iff, Ne, ← contains_of_build hctx key, hkey]
    simp
  refine .unknownKey hparse husable hleaves (fun name hname => ?_) hmissing
  exact (contains_of_build hctx name).mp (hbefore name hname)

end Context

namespace Request

variable {C : Type} [Condition C] {builder : Builder C} {kind : String} {request : Request}

/-- The expression of a request that a registry has resolved was checked. -/
theorem exists_parse_of_resolveRequest {registry : Registry} {raw : RawRequest}
    (h : registry.resolveRequest raw = .ok request) :
    ∃ t, Expr.parse request.combineWith = .ok t := by
  obtain ⟨t, ht, h⟩ := Outcome.bind_eq_ok.mp h
  obtain ⟨filters, -, hrequest⟩ := Outcome.bind_eq_ok.mp h
  cases hrequest
  exact ⟨t, Outcome.mapError_eq_ok.mp ht⟩

variable [LawfulCondition C]

/-- Each stage of a resolution fails with a fault of its own, after the stages before it passed. -/
theorem fault_of_resolve (hbuilder : builder.Regular kind) {e : Error}
    (h : (request.resolve builder).outcome = .error e) : request.Fault builder e := by
  rw [outcome_resolve, Outcome.bind_eq_error] at h
  rcases h with htree | ⟨t, htree, h⟩
  · obtain ⟨fault, hfault, rfl⟩ := Outcome.mapError_eq_error.mp htree
    exact .expression hfault
  · have hparse := tree_eq_ok.mp htree
    rcases Outcome.bind_eq_error.mp h with hctx | ⟨ctx, hctx, hgenerate⟩
    · obtain ⟨key, f, source, hf, hfault, hleast, rfl⟩ := Context.build_eq_error hctx
      exact .filter hparse hf hfault hleast
    · have huniform := Context.uniform_of_build hbuilder hctx
      exact (Expr.Tree.generate_eq_error huniform hgenerate).fault hctx hparse

theorem exists_resolve_eq_ok (hbuilder : builder.Regular kind) :
    (∃ c, (request.resolve builder).outcome = .ok c) ↔
      ∃ t, Expr.parse request.combineWith = .ok t ∧
        (∀ key f, request.filters.get? key = some f → f.Usable builder) ∧
        ∀ key ∈ t.leaves, request.filters.contains key = true := by
  constructor
  · rintro ⟨c, hc⟩
    rw [outcome_resolve, Outcome.bind_eq_ok] at hc
    obtain ⟨t, htree, hc⟩ := hc
    obtain ⟨ctx, hctx, hgenerate⟩ := Outcome.bind_eq_ok.mp hc
    refine ⟨t, tree_eq_ok.mp htree, Context.exists_build_eq_ok.mp ⟨ctx, hctx⟩, fun key hkey => ?_⟩
    exact (Context.contains_of_build hctx key).mp (Expr.Tree.leaves_of_generate hgenerate key hkey)
  · rintro ⟨t, hparse, husable, hleaves⟩
    obtain ⟨ctx, hctx⟩ := Context.exists_build_eq_ok.mpr husable
    have huniform := Context.uniform_of_build hbuilder hctx
    obtain ⟨c, hc⟩ := (Expr.Tree.exists_generate_eq_ok huniform).mpr fun key hkey =>
      (Context.contains_of_build hctx key).mpr (hleaves key hkey)
    refine ⟨c, ?_⟩
    rw [outcome_resolve, tree_eq_ok.mpr hparse, Outcome.ok_bind, hctx, Outcome.ok_bind, hc]

/-- A request is resolved to the combination of its filters' conditions, and to nothing else. -/
theorem resolve_eq_ok_iff (hbuilder : builder.Regular kind) {c : C} :
    (request.resolve builder).outcome = .ok c ↔
      ∃ (t : Expr.Tree) (leaf : String → C),
        Expr.parse request.combineWith = .ok t ∧
        (∀ key f, request.filters.get? key = some f → f.Usable builder) ∧
        (∀ key ∈ t.leaves, ∃ f, request.filters.get? key = some f ∧
          builder f.property f.operator f.value = .ok (leaf key)) ∧
        c = t.combine leaf := by
  constructor
  · intro h
    obtain ⟨t, leaf, hparse, hleaves, hc⟩ := resolve_eq_ok h
    obtain ⟨-, -, husable, -⟩ := (exists_resolve_eq_ok hbuilder).mp ⟨c, h⟩
    refine ⟨t, leaf, hparse, husable, fun key hkey => ?_, hc⟩
    obtain ⟨f, hf, -, hbuilt⟩ := hleaves key hkey
    exact ⟨f, hf, hbuilt⟩
  · rintro ⟨t, leaf, hparse, husable, hleaves, rfl⟩
    have hcontains : ∀ key ∈ t.leaves, request.filters.contains key = true := by
      intro key hkey
      obtain ⟨f, hf, -⟩ := hleaves key hkey
      rw [KeyMap.contains, hf]
      rfl
    obtain ⟨c, hc⟩ := (exists_resolve_eq_ok hbuilder).mpr ⟨t, hparse, husable, hcontains⟩
    obtain ⟨t', leaf', hparse', hleaves', rfl⟩ := resolve_eq_ok hc
    obtain rfl : t = t' := Except.ok.inj (hparse.symm.trans hparse')
    rw [hc, Expr.Tree.combine_congr fun key hkey => ?_]
    obtain ⟨f, hf, hbuilt⟩ := hleaves key hkey
    obtain ⟨f', hf', -, hbuilt'⟩ := hleaves' key hkey
    obtain rfl : f = f' := Option.some.inj (hf.symm.trans hf')
    exact Except.ok.inj (hbuilt'.symm.trans hbuilt)

end Request

namespace Builder

variable {C : Type} [Condition C] {builder : Builder C} {kind : String}

/-- For a regular builder nothing but the expression and the filters decides. -/
theorem Regular.decided [LawfulCondition C] (hbuilder : builder.Regular kind) :
    builder.Decided where
  ok_iff request := Request.exists_resolve_eq_ok hbuilder
  parse_error h := Request.resolve_of_parse_error h
  fault h := Request.fault_of_resolve hbuilder h
  compatible request left right h := by
    cases Request.fault_of_resolve hbuilder h
  source {request key source} h := by
    have hvalue : source.isValueFault = true := by
      cases Request.fault_of_resolve hbuilder h with
      | filter _ _ hfault _ => exact hfault.isValueFault hbuilder
    refine ⟨hvalue, ?_, ?_⟩
    · rintro key e rfl
      cases hvalue
    · cases source with
      | expression => cases hvalue
      | _ => rfl
  registered {registry raw request e} hraw h := by
    obtain ⟨t, ht⟩ := Request.exists_parse_of_resolveRequest hraw
    cases Request.fault_of_resolve hbuilder h with
    | expression hfault =>
        rw [ht] at hfault
        cases hfault
    | filter => rfl
    | unknownKey => rfl

end Builder

namespace Predicate

/-- Only the patterns and the ranges can be refused. -/
theorem regular_build : build.Regular kind where
  kind_eq _ := rfl
  isValueFault h := by
    cases build_eq_error.mp h with
    | pattern => rfl
    | range _ hbounds => exact Operand.isValueFault_of_bounds hbounds

end Predicate

namespace Sql.Fragment

theorem regular_build (dialect : Dialect) : (build dialect).Regular dialect.kind where
  kind_eq h := congrArg Dialect.kind (dialect_of_build h)
  isValueFault h := Operand.isValueFault_of_bounds (build_eq_error.mp h).2

end Sql.Fragment

namespace Builder

/-- For records and for either dialect of SQL, whether a request is resolved and what is reported
otherwise is decided by its expression, then its filters by key, then its leaves. -/
theorem decided_backends :
    Decided Predicate.build ∧ ∀ dialect, Decided (Sql.Fragment.build dialect) :=
  ⟨Predicate.regular_build.decided, fun dialect => (Sql.Fragment.regular_build dialect).decided⟩

/-- Two filters that cannot be used, neither of them referred to, and a leaf without a filter: the
lesser of the two keys is reported. A connective too many comes before both. -/
theorem decided_backends_faults :
    let filters := [("low", ⟨.withDefaults "age" .integer, .like, .text "1%"⟩),
      ("high", ⟨.withDefaults "age" .integer, .between, .number (.integer 1)⟩),
      ("adult", ⟨.withDefaults "age" .integer, .equals, .number (.integer 18)⟩)]
    let request := Request.ofList filters "adult & none"
    (∃ source, (request.resolve Predicate.build).outcome = .error (.filter "high" source) ∧
      source.isValueFault = true ∧ request.Fault Predicate.build (.filter "high" source)) ∧
    (∃ source, (request.resolve (Sql.Fragment.build .sqlite)).outcome =
        .error (.filter "high" source) ∧
      source.isValueFault = true) ∧
    (Request.ofList filters "adult &").resolve Predicate.build =
      ⟨[], .error (.expression (.missingOperand .and))⟩ := by
  have htokens : Expr.tokenize "adult & none" = .ok
      [⟨.identifier "adult", 0⟩, ⟨.and, 6⟩, ⟨.identifier "none", 8⟩] :=
    Expr.tokenize_eq_ok.mpr ⟨by decide, by decide +kernel⟩
  have htokens' : Expr.tokenize "adult &" = .ok [⟨.identifier "adult", 0⟩, ⟨.and, 6⟩] :=
    Expr.tokenize_eq_ok.mpr ⟨by decide, by decide +kernel⟩
  intro filters request
  have htree : request.tree = .ok (.and (.leaf "adult") (.leaf "none")) :=
    Request.tree_eq_ok.mpr (Expr.parse_of_tokenize htokens)
  obtain ⟨hmemory, hsql⟩ := decided_backends
  refine ⟨?_, ?_, hmemory.parse_error (Expr.parse_of_tokenize htokens')⟩
  · have herror : ∃ source, (request.resolve Predicate.build).outcome =
        .error (.filter "high" source) := by
      rw [Request.outcome_resolve, htree]
      exact ⟨_, rfl⟩
    obtain ⟨source, hsource⟩ := herror
    exact ⟨source, hsource, (hmemory.source hsource).1, hmemory.fault hsource⟩
  · have herror : ∃ source, (request.resolve (Sql.Fragment.build .sqlite)).outcome =
        .error (.filter "high" source) := by
      rw [Request.outcome_resolve, htree]
      exact ⟨_, rfl⟩
    obtain ⟨source, hsource⟩ := herror
    exact ⟨source, hsource, ((hsql .sqlite).source hsource).1⟩

end Builder

end FilterLogic
