import FilterLogic.Proofs.Resolution.Generation
import Mathlib.Data.List.Forall2

/-!
# Resolving one request twice

Two builders whose conditions correspond resolve every request alike: to corresponding conditions or
with the same error. The correspondence has to be kept by the combinations, and has to be between
conditions of one kind on either side, so that no combination is refused.
-/

namespace FilterLogic

variable {C D : Type}

/-- A correspondence of conditions that the combinations keep, one kind on either side. -/
structure Condition.Correspondence [Condition C] [Condition D] (R : C → D → Prop) : Prop where
  kind_left {a a' b b'} : R a b → R a' b' → kind a = kind a'
  kind_right {a a' b b'} : R a b → R a' b' → kind b = kind b'
  both {a a' b b'} : R a b → R a' b' → R (both a a') (both b b')
  either {a a' b b'} : R a b → R a' b' → R (either a a') (either b b')
  negate {a b} : R a b → R (negate a) (negate b)

namespace Condition.Correspondence

variable [Condition C] [Condition D] {R : C → D → Prop} {a a' : C} {b b' : D}

theorem conjoin (hR : Correspondence R) (h : R a b) (h' : R a' b') :
    Outcome.Agree R (Condition.conjoin a a') (Condition.conjoin b b') := by
  rw [Condition.conjoin_eq_ok.mpr ⟨hR.kind_left h h', rfl⟩,
    Condition.conjoin_eq_ok.mpr ⟨hR.kind_right h h', rfl⟩]
  exact .ok (hR.both h h')

theorem disjoin (hR : Correspondence R) (h : R a b) (h' : R a' b') :
    Outcome.Agree R (Condition.disjoin a a') (Condition.disjoin b b') := by
  rw [Condition.disjoin_eq_ok.mpr ⟨hR.kind_left h h', rfl⟩,
    Condition.disjoin_eq_ok.mpr ⟨hR.kind_right h h', rfl⟩]
  exact .ok (hR.either h h')

end Condition.Correspondence

/-- Two entries that have one key and corresponding values. -/
def Entrywise (R : C → D → Prop) (a : String × C) (b : String × D) : Prop :=
  a.1 = b.1 ∧ R a.2 b.2

namespace AscendingKeys

variable {R : C → D → Prop} {as : List (String × C)} {bs : List (String × D)}

/-- Corresponding values written under one key keep entries corresponding. -/
theorem forall₂_insert (h : List.Forall₂ (Entrywise R) as bs) (key : String) {c : C} {d : D}
    (hvalue : R c d) : List.Forall₂ (Entrywise R) (insert key c as) (insert key d bs) := by
  induction h with
  | nil => exact .cons ⟨rfl, hvalue⟩ .nil
  | @cons a b as bs hab hrest ih =>
      obtain ⟨k, v⟩ := a
      obtain ⟨k', w⟩ := b
      obtain ⟨rfl, hvw⟩ : k = k' ∧ R v w := hab
      rw [insert, insert]
      by_cases hlt : key < k
      · rw [if_pos hlt, if_pos hlt]
        exact .cons ⟨rfl, hvalue⟩ (.cons ⟨rfl, hvw⟩ hrest)
      · rw [if_neg hlt, if_neg hlt]
        by_cases hgt : k < key
        · rw [if_pos hgt, if_pos hgt]
          exact .cons ⟨rfl, hvw⟩ ih
        · rw [if_neg hgt, if_neg hgt]
          exact .cons ⟨rfl, hvalue⟩ hrest

/-- Corresponding entries have the same keys, and corresponding values under each. -/
theorem find?_of_forall₂ (h : List.Forall₂ (Entrywise R) as bs) (key : String) :
    Option.Rel R (find? key as) (find? key bs) := by
  induction h with
  | nil => exact .none
  | @cons a b as bs hab hrest ih =>
      obtain ⟨k, v⟩ := a
      obtain ⟨k', w⟩ := b
      obtain ⟨rfl, hvw⟩ : k = k' ∧ R v w := hab
      rw [find?, find?]
      by_cases hk : k = key
      · rw [if_pos hk, if_pos hk]
        exact .some hvw
      · rw [if_neg hk, if_neg hk]
        exact ih

theorem keys_of_forall₂ (h : List.Forall₂ (Entrywise R) as bs) :
    as.map (·.1) = bs.map (·.1) := by
  induction h with
  | nil => rfl
  | cons hab hrest ih => rw [List.map_cons, List.map_cons, hab.1, ih]

end AscendingKeys

/-- Two builders that build corresponding conditions, or fail alike. -/
def Builder.Agree (R : C → D → Prop) (left : Builder C) (right : Builder D) : Prop :=
  ∀ property op value, Outcome.Agree R (left property op value) (right property op value)

namespace Context

variable {R : C → D → Prop} {left : Builder C} {right : Builder D} {ctx : Context C}
  {ctx' : Context D}

/-- Two contexts with the same keys and corresponding conditions under them. -/
def Corresponding (R : C → D → Prop) (ctx : Context C) (ctx' : Context D) : Prop :=
  List.Forall₂ (Entrywise R) ctx.entries ctx'.entries

/-- A key is resolved alike, the suggestion in the error included. -/
theorem Corresponding.resolve (h : Corresponding R ctx ctx') (key : String) :
    Outcome.Agree R (ctx.resolve key) (ctx'.resolve key) := by
  have hkeys : ctx.keys = ctx'.keys := AscendingKeys.keys_of_forall₂ h
  have hget : Option.Rel R (ctx.get? key) (ctx'.get? key) := AscendingKeys.find?_of_forall₂ h key
  rw [Context.resolve, Context.resolve, hkeys, Context.resolveVisiting, Context.resolveVisiting]
  generalize ctx.get? key = found at hget ⊢
  generalize ctx'.get? key = found' at hget ⊢
  cases hget with
  | none => exact .error _
  | some hcd => exact .ok hcd

theorem Corresponding.insertWith (h : Corresponding R ctx ctx') (hbuild : left.Agree R right)
    (key : String) (f : Filter) :
    Outcome.Agree (Corresponding R) (ctx.insertWith left key f).outcome
      (ctx'.insertWith right key f).outcome := by
  have hfilter : Outcome.Agree R (f.build left).outcome (f.build right).outcome := by
    rw [Filter.build, Filter.build, Logged.outcome_bind, Logged.outcome_bind]
    apply (Outcome.Agree.refl f.validate).bind
    intro _ _ _
    exact hbuild f.property f.operator f.value
  rw [Context.insertWith, Context.insertWith, Logged.outcome_bind, Logged.outcome_bind]
  apply (hfilter.mapError (Error.filter key)).bind
  intro c d hcd
  exact .ok (AscendingKeys.forall₂_insert h key hcd)

theorem Corresponding.insertAll (h : Corresponding R ctx ctx') (hbuild : left.Agree R right)
    (filters : List (String × Filter)) :
    Outcome.Agree (Corresponding R) (ctx.insertAll left filters).outcome
      (ctx'.insertAll right filters).outcome := by
  induction filters generalizing ctx ctx' with
  | nil => exact .ok h
  | cons entry rest ih =>
      obtain ⟨key, f⟩ := entry
      rw [Context.insertAll, Context.insertAll, Logged.outcome_bind, Logged.outcome_bind]
      apply (h.insertWith hbuild key f).bind
      intro mid mid' hmid
      exact ih hmid

end Context

variable [Condition C] [Condition D] {R : C → D → Prop}

/-- Corresponding conditions at the leaves are combined to corresponding conditions. -/
theorem Expr.Tree.combine_correspond (hR : Condition.Correspondence R) {t : Tree}
    {leaf : String → C} {leaf' : String → D} (h : ∀ key ∈ t.leaves, R (leaf key) (leaf' key)) :
    R (t.combine leaf) (t.combine leaf') := by
  induction t with
  | leaf name => exact h name (List.mem_singleton.mpr rfl)
  | not t ih => exact hR.negate (ih h)
  | and l r ihl ihr =>
      obtain ⟨hl, hr⟩ := List.forall_mem_append.mp h
      exact hR.both (ihl hl) (ihr hr)
  | or l r ihl ihr =>
      obtain ⟨hl, hr⟩ := List.forall_mem_append.mp h
      exact hR.either (ihl hl) (ihr hr)

end FilterLogic
