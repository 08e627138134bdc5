import FilterLogic.Context
import FilterLogic.Proofs.KeyMap
import FilterLogic.Proofs.Outcome

/-!
# What a context holds

A context that is built for a request holds, under each key of the request and no other, the
condition that the builder made for the filter of that key.
-/

namespace FilterLogic

variable {C : Type}

/-- Building the condition of a filter is validating it and calling the builder. -/
theorem Filter.build_eq_ok {builder : Builder C} {f : Filter} {c : C} :
    (f.build builder).outcome = .ok c ↔
      f.validate = .ok () ∧ builder f.property f.operator f.value = .ok c := by
  rw [Filter.build, Logged.outcome_bind, Logged.outcome_lift, Outcome.bind_eq_ok]
  constructor
  · rintro ⟨⟨⟩, hvalid, hbuilt⟩
    exact ⟨hvalid, hbuilt⟩
  · rintro ⟨hvalid, hbuilt⟩
    exact ⟨(), hvalid, hbuilt⟩

/-- The call of a builder for a filter. -/
def Filter.call (f : Filter) : Call C := .build f.property f.operator f.value

/-- The calls of a builder for a filter: one, and only if the filter is valid. -/
def Filter.attempts (f : Filter) : List (Call C) :=
  match f.validate with
  | .ok _ => [f.call]
  | .error _ => []

theorem Filter.attempts_of_valid {f : Filter} (h : f.validate = .ok ()) :
    (f.attempts : List (Call C)) = [f.call] := by
  rw [attempts, h]

theorem Filter.calls_build (f : Filter) (builder : Builder C) :
    (f.build builder).calls = f.attempts := by
  rw [build, attempts]
  cases hvalid : f.validate with
  | ok _ =>
      rw [Logged.calls_bind_ok (Logged.outcome_lift _)]
      rfl
  | error e => rw [Logged.calls_bind_error (Logged.outcome_lift _), Logged.calls_lift]

namespace Context

theorem resolve_eq_ok {ctx : Context C} {key : String} {c : C} :
    ctx.resolve key = .ok c ↔ ctx.get? key = some c := by
  rw [resolve, resolveVisiting]
  cases ctx.get? key with
  | none => simp
  | some d => simp

theorem resolve_eq_error {ctx : Context C} {key : String} {e : Error} :
    ctx.resolve key = .error e ↔
      ctx.get? key = none ∧ e = .unknownFilterKey key (Text.suggest? key ctx.keys) := by
  rw [resolve, resolveVisiting]
  cases ctx.get? key with
  | none => simp [eq_comm]
  | some c => simp

/-- A filter is written exactly if its condition can be built. -/
theorem insertWith_eq_ok {ctx ctx' : Context C} {builder : Builder C} {key : String} {f : Filter} :
    (ctx.insertWith builder key f).outcome = .ok ctx' ↔
      ∃ c, (f.build builder).outcome = .ok c ∧ ctx.insert key c = ctx' := by
  rw [insertWith, Logged.outcome_bind, Outcome.bind_eq_ok]
  constructor
  · rintro ⟨c, hc, hctx⟩
    cases hctx
    exact ⟨c, Outcome.mapError_eq_ok.mp hc, rfl⟩
  · rintro ⟨c, hc, rfl⟩
    exact ⟨c, Outcome.mapError_eq_ok.mpr hc, rfl⟩

theorem insertWith_eq_error {ctx : Context C} {builder : Builder C} {key : String} {f : Filter}
    {e : Error} : (ctx.insertWith builder key f).outcome = .error e ↔
      ∃ source, (f.build builder).outcome = .error source ∧ e = .filter key source := by
  rw [insertWith, Logged.outcome_bind, Outcome.bind_eq_error]
  constructor
  · rintro (hbuild | ⟨c, -, hnever⟩)
    · exact Outcome.mapError_eq_error.mp hbuild
    · cases hnever
  · intro hbuild
    exact .inl (Outcome.mapError_eq_error.mpr hbuild)

/-- Writing a filter calls the builder only for the condition of the filter. -/
theorem calls_insertWith (ctx : Context C) (builder : Builder C) (key : String) (f : Filter) :
    (ctx.insertWith builder key f).calls = f.attempts := by
  have hcalls : ((f.build builder).mapError (.filter key)).calls = f.attempts := f.calls_build builder
  rw [insertWith]
  cases hbuild : ((f.build builder).mapError (.filter key)).outcome with
  | ok c => rw [Logged.calls_bind_ok hbuild, hcalls, Logged.calls_pure, List.append_nil]
  | error e => rw [Logged.calls_bind_error hbuild, hcalls]

/-- Written filters replace what was under their keys and leave the other keys alone. -/
theorem get?_insertAll {builder : Builder C} {entries : List (String × Filter)}
    (hasc : AscendingKeys entries) {ctx ctx' : Context C}
    (h : (ctx.insertAll builder entries).outcome = .ok ctx') (key : String) :
    match AscendingKeys.find? key entries with
    | some f => ∃ c, (f.build builder).outcome = .ok c ∧ ctx'.get? key = some c
    | none => ctx'.get? key = ctx.get? key := by
  induction entries generalizing ctx with
  | nil =>
      cases h
      rfl
  | cons entry rest ih =>
      obtain ⟨k, f⟩ := entry
      rw [insertAll, Logged.outcome_bind, Outcome.bind_eq_ok] at h
      obtain ⟨mid, hmid, hrest⟩ := h
      obtain ⟨c, hc, rfl⟩ := insertWith_eq_ok.mp hmid
      have hkey := ih (List.pairwise_cons.mp hasc).2 hrest
      by_cases hk : k = key
      · subst hk
        rw [hasc.find?_head] at hkey
        rw [AscendingKeys.find?, if_pos rfl]
        exact ⟨c, hc, hkey.trans (KeyMap.get?_insert_self ctx k c)⟩
      · rw [AscendingKeys.find?, if_neg hk]
        cases hfind : AscendingKeys.find? key rest with
        | some g => simpa [hfind] using hkey
        | none =>
            rw [hfind] at hkey
            rw [KeyMap.get?_insert, if_neg hk] at hkey
            exact hkey

/-- The conditions of a request's context are those of its filters. -/
theorem get?_build {builder : Builder C} {request : Request} {ctx : Context C}
    (h : (build builder request).outcome = .ok ctx) {key : String} {c : C} :
    ctx.get? key = some c ↔
      ∃ f, request.filters.get? key = some f ∧ (f.build builder).outcome = .ok c := by
  have hkey := get?_insertAll request.filters.ascending h key
  change (match request.filters.get? key with
    | some f => ∃ c, (f.build builder).outcome = .ok c ∧ ctx.get? key = some c
    | none => ctx.get? key = none) at hkey
  cases hfilter : request.filters.get? key with
  | none =>
      rw [hfilter] at hkey
      simp [hkey]
  | some f =>
      rw [hfilter] at hkey
      obtain ⟨d, hd, hget⟩ := hkey
      rw [hget]
      constructor
      · rintro ⟨⟩
        exact ⟨f, rfl, hd⟩
      · rintro ⟨g, hg, hc⟩
        cases hg
        rw [hd] at hc
        cases hc
        rfl

end Context

end FilterLogic
