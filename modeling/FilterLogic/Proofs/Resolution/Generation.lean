import FilterLogic.Resolver
import FilterLogic.Proofs.Resolution.Contexts

/-!
# What a request resolves to

A resolved condition is put together as the tree of the request prescribes, from the conditions of
the filters at the leaves. The combination itself does not fail once every leaf has a condition and
the kinds are the same.
-/

namespace FilterLogic

variable {C : Type} [Condition C]

namespace Condition

theorem ensureCompatible_eq_ok {l r : C} : ensureCompatible l r = .ok () ↔ kind l = kind r := by
  rw [ensureCompatible]
  by_cases hkind : kind l = kind r
  · rw [if_pos hkind]
    exact iff_of_true rfl hkind
  · rw [if_neg hkind]
    exact iff_of_false (fun h => nomatch h) hkind

theorem ensureCompatible_eq_error {l r : C} {e : Error} :
    ensureCompatible l r = .error e ↔ kind l ≠ kind r ∧ e = .incompatibleKinds (kind l) (kind r) := by
  rw [ensureCompatible]
  by_cases hkind : kind l = kind r
  · rw [if_pos hkind]
    exact iff_of_false (fun h => nomatch h) (fun h => h.1 hkind)
  · rw [if_neg hkind]
    constructor
    · intro h
      cases h
      exact ⟨hkind, rfl⟩
    · rintro ⟨-, rfl⟩
      rfl

theorem conjoin_eq_ok {l r c : C} :
    conjoin l r = .ok c ↔ kind l = kind r ∧ both l r = c := by
  rw [conjoin, Outcome.bind_eq_ok]
  constructor
  · rintro ⟨⟨⟩, hkind, hc⟩
    exact ⟨ensureCompatible_eq_ok.mp hkind, Except.ok.inj hc⟩
  · rintro ⟨hkind, rfl⟩
    exact ⟨(), ensureCompatible_eq_ok.mpr hkind, rfl⟩

theorem disjoin_eq_ok {l r c : C} :
    disjoin l r = .ok c ↔ kind l = kind r ∧ either l r = c := by
  rw [disjoin, Outcome.bind_eq_ok]
  constructor
  · rintro ⟨⟨⟩, hkind, hc⟩
    exact ⟨ensureCompatible_eq_ok.mp hkind, Except.ok.inj hc⟩
  · rintro ⟨hkind, rfl⟩
    exact ⟨(), ensureCompatible_eq_ok.mpr hkind, rfl⟩

/-- A combination is refused for the kinds of its operands only. -/
theorem conjoin_eq_error {l r : C} {e : Error} :
    conjoin l r = .error e ↔ kind l ≠ kind r ∧ e = .incompatibleKinds (kind l) (kind r) := by
  rw [conjoin, Outcome.bind_eq_error, ensureCompatible_eq_error]
  exact or_iff_left fun ⟨_, _, hnever⟩ => nomatch hnever

theorem disjoin_eq_error {l r : C} {e : Error} :
    disjoin l r = .error e ↔ kind l ≠ kind r ∧ e = .incompatibleKinds (kind l) (kind r) := by
  rw [disjoin, Outcome.bind_eq_error, ensureCompatible_eq_error]
  exact or_iff_left fun ⟨_, _, hnever⟩ => nomatch hnever

end Condition

/-- Two computations one after the other have a result exactly if both have one and the rest does. -/
theorem Logged.outcome_bind₂_eq_ok {κ α : Type} {x y : Logged κ α} {f : α → α → Logged κ α} {c : α} :
    (x >>= fun a => y >>= fun b => f a b).outcome = .ok c ↔
      ∃ a b, x.outcome = .ok a ∧ y.outcome = .ok b ∧ (f a b).outcome = .ok c := by
  simp only [Logged.outcome_bind, Outcome.bind_eq_ok]
  constructor
  · rintro ⟨a, ha, b, hb, hc⟩
    exact ⟨a, b, ha, hb, hc⟩
  · rintro ⟨a, b, ha, hb, hc⟩
    exact ⟨a, ha, b, hb, hc⟩

namespace Expr.Tree

/-- The combination that a tree prescribes for the conditions at its leaves. -/
def combine (leaf : String → C) : Tree → C
  | .leaf name => leaf name
  | .not t => Condition.negate (t.combine leaf)
  | .and l r => Condition.both (l.combine leaf) (r.combine leaf)
  | .or l r => Condition.either (l.combine leaf) (r.combine leaf)

/-- A combination does not depend on conditions for names that are at no leaf. -/
theorem combine_congr {leaf leaf' : String → C} {t : Tree}
    (h : ∀ name ∈ t.leaves, leaf name = leaf' name) : t.combine leaf = t.combine leaf' := by
  induction t with
  | leaf name => exact h name (List.mem_singleton.mpr rfl)
  | not t ih => exact congrArg Condition.negate (ih h)
  | and l r ihl ihr =>
      obtain ⟨hl, hr⟩ := List.forall_mem_append.mp h
      exact congrArg₂ Condition.both (ihl hl) (ihr hr)
  | or l r ihl ihr =>
      obtain ⟨hl, hr⟩ := List.forall_mem_append.mp h
      exact congrArg₂ Condition.either (ihl hl) (ihr hr)

/-- A generated condition is the combination of the conditions that the context holds for the
leaves, and it holds one for each leaf. -/
theorem generate_eq_ok {ctx : Context C} {leaf : String → C}
    (hleaf : ∀ name c, ctx.get? name = some c → leaf name = c) {t : Tree} {c : C}
    (h : (t.generate ctx).outcome = .ok c) :
    c = t.combine leaf ∧ ∀ name ∈ t.leaves, ctx.get? name = some (leaf name) := by
  induction t generalizing c with
  | leaf name =>
      have hget := Context.resolve_eq_ok.mp h
      have hname := hleaf name c hget
      refine ⟨hname.symm, fun key hkey => ?_⟩
      obtain rfl : key = name := List.mem_singleton.mp hkey
      rw [hget, hname]
  | not t ih =>
      rw [generate, Logged.outcome_bind, Outcome.bind_eq_ok] at h
      obtain ⟨d, hd, hc⟩ := h
      obtain ⟨rfl, hleaves⟩ := ih hd
      exact ⟨(Except.ok.inj hc).symm, hleaves⟩
  | and l r ihl ihr =>
      obtain ⟨a, b, ha, hb, hc⟩ := Logged.outcome_bind₂_eq_ok.mp h
      obtain ⟨rfl, hl⟩ := ihl ha
      obtain ⟨rfl, hr⟩ := ihr hb
      refine ⟨(Condition.conjoin_eq_ok.mp hc).2.symm, fun key hkey => ?_⟩
      exact (List.mem_append.mp hkey).elim (hl key) (hr key)
  | or l r ihl ihr =>
      obtain ⟨a, b, ha, hb, hc⟩ := Logged.outcome_bind₂_eq_ok.mp h
      obtain ⟨rfl, hl⟩ := ihl ha
      obtain ⟨rfl, hr⟩ := ihr hb
      refine ⟨(Condition.disjoin_eq_ok.mp hc).2.symm, fun key hkey => ?_⟩
      exact (List.mem_append.mp hkey).elim (hl key) (hr key)

theorem exists_combine_of_generate {ctx : Context C} {t : Tree} {c : C}
    (h : (t.generate ctx).outcome = .ok c) :
    ∃ leaf : String → C, c = t.combine leaf ∧
      ∀ name ∈ t.leaves, ctx.get? name = some (leaf name) := by
  -- Names that the context does not have stand at no leaf, so any condition will do for them.
  have hleaf : ∀ name d, ctx.get? name = some d → (ctx.get? name).getD c = d := by
    intro name d hd
    rw [hd, Option.getD_some]
  exact ⟨fun name => (ctx.get? name).getD c, generate_eq_ok hleaf h⟩

/-- The name at the leftmost leaf. -/
def leftmost : Tree → String
  | .leaf name => name
  | .not t => t.leftmost
  | .and l _ => l.leftmost
  | .or l _ => l.leftmost

theorem leftmost_mem_leaves (t : Tree) : t.leftmost ∈ t.leaves := by
  induction t with
  | leaf name => exact List.mem_singleton.mpr rfl
  | not t ih => exact ih
  | and l r ihl _ => exact List.mem_append_left r.leaves ihl
  | or l r ihl _ => exact List.mem_append_left r.leaves ihl

/-- Every leaf of a tree has a condition of the given kind. -/
def HasKind (ctx : Context C) (t : Tree) (kind : String) : Prop :=
  ∀ name ∈ t.leaves, ∃ c, ctx.get? name = some c ∧ Condition.kind c = kind

section Kinds

variable [LawfulCondition C] {ctx : Context C}

/-- A generated condition has the kind of every leaf. -/
theorem hasKind_of_generate {t : Tree} {c : C} (h : (t.generate ctx).outcome = .ok c) :
    t.HasKind ctx (Condition.kind c) := by
  induction t generalizing c with
  | leaf name =>
      intro key hkey
      obtain rfl : key = name := List.mem_singleton.mp hkey
      exact ⟨c, Context.resolve_eq_ok.mp h, rfl⟩
  | not t ih =>
      rw [generate, Logged.outcome_bind, Outcome.bind_eq_ok] at h
      obtain ⟨d, hd, hc⟩ := h
      cases hc
      rw [LawfulCondition.kind_negate]
      exact ih hd
  | and l r ihl ihr =>
      obtain ⟨a, b, ha, hb, hc⟩ := Logged.outcome_bind₂_eq_ok.mp h
      obtain ⟨hkind, rfl⟩ := Condition.conjoin_eq_ok.mp hc
      rw [LawfulCondition.kind_both]
      exact List.forall_mem_append.mpr ⟨ihl ha, hkind ▸ ihr hb⟩
  | or l r ihl ihr =>
      obtain ⟨a, b, ha, hb, hc⟩ := Logged.outcome_bind₂_eq_ok.mp h
      obtain ⟨hkind, rfl⟩ := Condition.disjoin_eq_ok.mp hc
      rw [LawfulCondition.kind_either]
      exact List.forall_mem_append.mpr ⟨ihl ha, hkind ▸ ihr hb⟩

/-- Leaves of one kind are combined to a condition of that kind. -/
theorem generate_of_hasKind {t : Tree} {kind : String} (h : t.HasKind ctx kind) :
    ∃ c, (t.generate ctx).outcome = .ok c ∧ Condition.kind c = kind := by
  induction t with
  | leaf name =>
      obtain ⟨c, hc, hkind⟩ := h name (List.mem_singleton.mpr rfl)
      exact ⟨c, Context.resolve_eq_ok.mpr hc, hkind⟩
  | not t ih =>
      obtain ⟨c, hc, hkind⟩ := ih h
      refine ⟨Condition.negate c, ?_, (LawfulCondition.kind_negate c).trans hkind⟩
      rw [generate, Logged.outcome_bind, hc]
      rfl
  | and l r ihl ihr =>
      obtain ⟨hl, hr⟩ := List.forall_mem_append.mp h
      obtain ⟨a, ha, hakind⟩ := ihl hl
      obtain ⟨b, hb, hbkind⟩ := ihr hr
      have hjoin := Condition.conjoin_eq_ok.mpr ⟨hakind.trans hbkind.symm, rfl⟩
      exact ⟨Condition.both a b, Logged.outcome_bind₂_eq_ok.mpr ⟨a, b, ha, hb, hjoin⟩,
        (LawfulCondition.kind_both a b).trans hakind⟩
  | or l r ihl ihr =>
      obtain ⟨hl, hr⟩ := List.forall_mem_append.mp h
      obtain ⟨a, ha, hakind⟩ := ihl hl
      obtain ⟨b, hb, hbkind⟩ := ihr hr
      have hjoin := Condition.disjoin_eq_ok.mpr ⟨hakind.trans hbkind.symm, rfl⟩
      exact ⟨Condition.either a b, Logged.outcome_bind₂_eq_ok.mpr ⟨a, b, ha, hb, hjoin⟩,
        (LawfulCondition.kind_either a b).trans hakind⟩

theorem kind_leftmost {t : Tree} {c : C} (h : (t.generate ctx).outcome = .ok c) :
    ∃ d, ctx.get? t.leftmost = some d ∧ Condition.kind d = Condition.kind c :=
  hasKind_of_generate h t.leftmost t.leftmost_mem_leaves

end Kinds

end Expr.Tree

namespace Request

theorem tree_eq_ok {request : Request} {t : Expr.Tree} :
    request.tree = .ok t ↔ Expr.parse request.combineWith = .ok t :=
  Outcome.mapError_eq_ok

/-- The outcome of a resolution: the expression first, then the context, then the condition. -/
theorem outcome_resolve (builder : Builder C) (request : Request) :
    (request.resolve builder).outcome =
      request.tree >>= fun t =>
        (Context.build builder request).outcome >>= fun ctx => (t.generate ctx).outcome := by
  simp only [resolve, Logged.outcome_bind, Logged.outcome_lift]

/-- What a request resolves to is the combination that its expression prescribes for the conditions
of its filters, each valid and built from its own property, operator and value. -/
theorem resolve_eq_ok {builder : Builder C} {request : Request} {c : C}
    (h : (request.resolve builder).outcome = .ok c) :
    ∃ (t : Expr.Tree) (leaf : String → C),
      Expr.parse request.combineWith = .ok t ∧
      (∀ key ∈ t.leaves, ∃ f, request.filters.get? key = some f ∧ f.validate = .ok () ∧
        builder f.property f.operator f.value = .ok (leaf key)) ∧
      c = t.combine leaf := by
  rw [outcome_resolve, Outcome.bind_eq_ok] at h
  obtain ⟨t, htree, h⟩ := h
  obtain ⟨ctx, hctx, hgenerate⟩ := Outcome.bind_eq_ok.mp h
  obtain ⟨leaf, hc, hleaves⟩ := Expr.Tree.exists_combine_of_generate hgenerate
  refine ⟨t, leaf, tree_eq_ok.mp htree, fun key hkey => ?_, hc⟩
  obtain ⟨f, hf, hbuilt⟩ := (Context.get?_build hctx).mp (hleaves key hkey)
  exact ⟨f, hf, Filter.build_eq_ok.mp hbuilt⟩

end Request

end FilterLogic
