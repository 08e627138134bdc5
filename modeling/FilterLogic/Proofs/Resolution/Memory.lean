import FilterLogic.Condition.Memory
import FilterLogic.Proofs.Expr.Lexemes
import FilterLogic.Proofs.Resolution.Generation

/-!
# What the records of a request are

A request that resolves to a predicate on records means what its expression says: a record satisfies
the predicate exactly if the expression is true with each key read as the predicate of its filter.
-/

namespace FilterLogic

/-- The truth value of a tree for given values of its leaves. -/
def Expr.Tree.eval (value : String → Bool) : Expr.Tree → Bool
  | .leaf name => value name
  | .not t => !t.eval value
  | .and l r => l.eval value && r.eval value
  | .or l r => l.eval value || r.eval value

namespace Predicate

/-- Combining predicates is evaluating the tree at each record. -/
theorem holds_combine (t : Expr.Tree) (leaf : String → Predicate) (record : Json.Value) :
    (t.combine leaf).holds record = t.eval fun key => (leaf key).holds record := by
  induction t with
  | leaf name => rfl
  | not t ih =>
      change (!(t.combine leaf).holds record) = _
      rw [ih]
      rfl
  | and l r ihl ihr =>
      change ((l.combine leaf).holds record && (r.combine leaf).holds record) = _
      rw [ihl, ihr]
      rfl
  | or l r ihl ihr =>
      change ((l.combine leaf).holds record || (r.combine leaf).holds record) = _
      rw [ihl, ihr]
      rfl

end Predicate

/-- A resolved predicate is true of a record exactly if the expression is, with the predicates of
the filters for its keys. The records it selects are those, in their order and number. -/
theorem Request.holds_resolve {request : Request} {c : Predicate}
    (h : (request.resolve Predicate.build).outcome = .ok c) :
    ∃ (t : Expr.Tree) (leaf : String → Predicate),
      Expr.parse request.combineWith = .ok t ∧
      (∀ key ∈ t.leaves, ∃ f, request.filters.get? key = some f ∧
        Predicate.build f.property f.operator f.value = .ok (leaf key)) ∧
      (∀ record, c.holds record = t.eval fun key => (leaf key).holds record) ∧
      ∀ records, c.filter records =
        records.filter fun record => t.eval fun key => (leaf key).holds record := by
  obtain ⟨t, leaf, hparse, hleaves, rfl⟩ := resolve_eq_ok h
  have hholds := Predicate.holds_combine t leaf
  refine ⟨t, leaf, hparse, fun key hkey => ?_, hholds, fun records => ?_⟩
  · obtain ⟨f, hf, -, hbuilt⟩ := hleaves key hkey
    exact ⟨f, hf, hbuilt⟩
  · exact congrArg records.filter (funext hholds)

/-- A comparison under a NOT, joined with a second filter. -/
theorem Request.holds_resolve_negation :
    let request := Request.ofList
      [("adult", ⟨.withDefaults "age" .integer, .greaterThan, .number (.integer 18)⟩),
        ("bob", ⟨.withDefaults "name" .text, .equals, .text "Bob"⟩)] "!adult & bob"
    ∃ c, (request.resolve Predicate.build).outcome = .ok c ∧
      ∃ (t : Expr.Tree) (leaf : String → Predicate),
        Expr.parse request.combineWith = .ok t ∧
        (∀ key ∈ t.leaves, ∃ f, request.filters.get? key = some f ∧
          Predicate.build f.property f.operator f.value = .ok (leaf key)) ∧
        (∀ record, c.holds record = t.eval fun key => (leaf key).holds record) ∧
        ∀ records, c.filter records =
          records.filter fun record => t.eval fun key => (leaf key).holds record := by
  intro request
  have htokens : Expr.tokenize "!adult & bob" = .ok
      [⟨.not, 0⟩, ⟨.identifier "adult", 1⟩, ⟨.and, 7⟩, ⟨.identifier "bob", 9⟩] :=
    Expr.tokenize_eq_ok.mpr ⟨by decide, by decide +kernel⟩
  have htree : request.tree = .ok (.and (.not (.leaf "adult")) (.leaf "bob")) :=
    tree_eq_ok.mpr (Expr.parse_of_tokenize htokens)
  have hresolve : ∃ c, (request.resolve Predicate.build).outcome = .ok c := by
    rw [outcome_resolve, htree]
    exact ⟨_, rfl⟩
  obtain ⟨c, hc⟩ := hresolve
  exact ⟨c, hc, holds_resolve hc⟩

end FilterLogic
