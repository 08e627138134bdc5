import FilterLogic.Proofs.Resolution.Generation

/-!
# What a request fails with

A request is resolved in three stages, and it fails with the first fault of the first stage that has
one: the fault of the expression, that of the filter with the least key among those that cannot be
used, or the first leaf without a filter. Where all conditions have one kind, nothing else can fail.
-/

namespace FilterLogic

variable {C : Type}

namespace Filter

/-- What is wrong with a filter: a fault of validation, or else one of the builder. -/
inductive Fault (builder : Builder C) (f : Filter) : Error → Prop
  | invalid {e} (h : f.validate = .error e) : Fault builder f e
  | unbuilt {e} (hvalid : f.validate = .ok ())
      (h : builder f.property f.operator f.value = .error e) : Fault builder f e

/-- A filter that is valid and that the builder makes a condition of. -/
def Usable (builder : Builder C) (f : Filter) : Prop :=
  f.validate = .ok () ∧ ∃ c, builder f.property f.operator f.value = .ok c

theorem exists_build_eq_ok {builder : Builder C} {f : Filter} :
    (∃ c, (f.build builder).outcome = .ok c) ↔ f.Usable builder := by
  constructor
  · rintro ⟨c, hc⟩
    obtain ⟨hvalid, hbuilt⟩ := build_eq_ok.mp hc
    exact ⟨hvalid, c, hbuilt⟩
  · rintro ⟨hvalid, c, hbuilt⟩
    exact ⟨c, build_eq_ok.mpr ⟨hvalid, hbuilt⟩⟩

theorem fault_of_build {builder : Builder C} {f : Filter} {e : Error}
    (h : (f.build builder).outcome = .error e) : f.Fault builder e := by
  rw [build, Logged.outcome_bind, Logged.outcome_lift, Outcome.bind_eq_error] at h
  rcases h with hinvalid | ⟨⟨⟩, hvalid, hbuilt⟩
  · exact .invalid hinvalid
  · exact .unbuilt hvalid hbuilt

/-- A filter has one fault at most, since the checks stop at the first one. -/
theorem build_eq_error {builder : Builder C} {f : Filter} {e : Error} :
    (f.build builder).outcome = .error e ↔ f.Fault builder e := by
  refine ⟨fault_of_build, fun h => ?_⟩
  rw [build, Logged.outcome_bind, Logged.outcome_lift, Outcome.bind_eq_error]
  cases h with
  | invalid hinvalid => exact .inl hinvalid
  | unbuilt hvalid hbuilt => exact .inr ⟨(), hvalid, hbuilt⟩

end Filter

namespace Context

variable {builder : Builder C}

/-- Filters are written until the first one that cannot be used, and its key is reported. The builder
is called for those before it, and for the filter itself if it is valid. -/
theorem insertAll_eq_error {ctx : Context C} {entries : List (String × Filter)} {e : Error}
    (h : (ctx.insertAll builder entries).outcome = .error e) :
    ∃ before key f after source, entries = before ++ (key, f) :: after ∧
      (∀ entry ∈ before, entry.2.Usable builder) ∧ f.Fault builder source ∧
      e = .filter key source ∧
      (ctx.insertAll builder entries).calls =
        before.map (fun entry => entry.2.call) ++ f.attempts := by
  induction entries generalizing ctx with
  | nil => cases h
  | cons entry rest ih =>
      obtain ⟨key, f⟩ := entry
      rw [insertAll, Logged.outcome_bind, Outcome.bind_eq_error] at h
      rcases h with hhere | ⟨mid, hmid, hlater⟩
      · refine ⟨[], key, f, rest, ?_⟩
        have hcalls : (ctx.insertAll builder ((key, f) :: rest)).calls = f.attempts := by
          rw [insertAll, Logged.calls_bind_error hhere, calls_insertWith]
        obtain ⟨source, hsource, rfl⟩ := insertWith_eq_error.mp hhere
        exact ⟨source, rfl, by simp, Filter.fault_of_build hsource, rfl, hcalls⟩
      · obtain ⟨c, hc, -⟩ := insertWith_eq_ok.mp hmid
        have husable : f.Usable builder := Filter.exists_build_eq_ok.mp ⟨c, hc⟩
        obtain ⟨before, key', g, after, source, rfl, hbefore, hfault, he, hcalls⟩ := ih hlater
        refine ⟨(key, f) :: before, key', g, after, source, rfl,
          List.forall_mem_cons.mpr ⟨husable, hbefore⟩, hfault, he, ?_⟩
        rw [insertAll, Logged.calls_bind_ok hmid, calls_insertWith, hcalls,
          Filter.attempts_of_valid husable.1]
        rfl

/-- Filters that are all written can all be used, and the builder is called for each of them. -/
theorem usable_of_insertAll {ctx ctx' : Context C} {entries : List (String × Filter)}
    (h : (ctx.insertAll builder entries).outcome = .ok ctx') :
    (∀ entry ∈ entries, entry.2.Usable builder) ∧
      (ctx.insertAll builder entries).calls = entries.map fun entry => entry.2.call := by
  induction entries generalizing ctx with
  | nil => exact ⟨by simp, rfl⟩
  | cons entry rest ih =>
      obtain ⟨key, f⟩ := entry
      rw [insertAll, Logged.outcome_bind, Outcome.bind_eq_ok] at h
      obtain ⟨mid, hmid, hrest⟩ := h
      obtain ⟨c, hc, -⟩ := insertWith_eq_ok.mp hmid
      have husable : f.Usable builder := Filter.exists_build_eq_ok.mp ⟨c, hc⟩
      obtain ⟨hrestUsable, hcalls⟩ := ih hrest
      refine ⟨List.forall_mem_cons.mpr ⟨husable, hrestUsable⟩, ?_⟩
      rw [insertAll, Logged.calls_bind_ok hmid, calls_insertWith, hcalls,
        Filter.attempts_of_valid husable.1]
      rfl

/-- The context of a request is built exactly if all of its filters can be used. -/
theorem exists_build_eq_ok {request : Request} :
    (∃ ctx, (build builder request).outcome = .ok ctx) ↔
      ∀ key f, request.filters.get? key = some f → f.Usable builder := by
  constructor
  · rintro ⟨ctx, hctx⟩ key f hf
    exact (usable_of_insertAll hctx).1 _ (KeyMap.get?_eq_some_iff.mp hf)
  · intro husable
    cases hctx : (build builder request).outcome with
    | ok ctx => exact ⟨ctx, rfl⟩
    | error e =>
        obtain ⟨before, key, f, after, source, hentries, -, hfault, -⟩ := insertAll_eq_error hctx
        have hmem : (key, f) ∈ request.filters.entries := by simp [hentries]
        obtain ⟨hvalid, c, hbuilt⟩ := husable key f (KeyMap.get?_eq_some_iff.mpr hmem)
        cases hfault with
        | invalid hinvalid =>
            rw [hvalid] at hinvalid
            cases hinvalid
        | unbuilt _ hunbuilt =>
            rw [hbuilt] at hunbuilt
            cases hunbuilt

/-- The error of a context is that of the filter with the least key that cannot be used. -/
theorem build_eq_error {request : Request} {e : Error}
    (h : (build builder request).outcome = .error e) :
    ∃ key f source, request.filters.get? key = some f ∧ f.Fault builder source ∧
      (∀ key' f', key' < key → request.filters.get? key' = some f' → f'.Usable builder) ∧
      e = .filter key source := by
  have hasc := request.filters.ascending
  obtain ⟨before, key, f, after, source, hentries, hbefore, hfault, he, -⟩ := insertAll_eq_error h
  have hmem : (key, f) ∈ request.filters.entries := by simp [hentries]
  refine ⟨key, f, source, KeyMap.get?_eq_some_iff.mpr hmem, hfault, ?_, he⟩
  intro key' f' hlt hf'
  have hmem' := KeyMap.get?_eq_some_iff.mp hf'
  rw [hentries] at hasc hmem'
  exact hbefore _ (hasc.mem_of_lt hmem' hlt)

/-- The filter with the least key that cannot be used decides, and no other one. -/
theorem build_eq_error_iff {request : Request} {e : Error} :
    (build builder request).outcome = .error e ↔
      ∃ key f source, request.filters.get? key = some f ∧ f.Fault builder source ∧
        (∀ key' f', key' < key → request.filters.get? key' = some f' → f'.Usable builder) ∧
        e = .filter key source := by
  refine ⟨build_eq_error, ?_⟩
  have hnever {f : Filter} {source} (hfault : f.Fault builder source) : ¬ f.Usable builder := by
    rw [← Filter.exists_build_eq_ok, Filter.build_eq_error.mpr hfault]
    exact nofun
  rintro ⟨key, f, source, hf, hfault, hleast, rfl⟩
  cases hctx : (build builder request).outcome with
  | ok ctx => exact absurd (exists_build_eq_ok.mp ⟨ctx, hctx⟩ key f hf) (hnever hfault)
  | error e =>
      obtain ⟨key', f', source', hf', hfault', hleast', rfl⟩ := build_eq_error hctx
      -- Both keys are the least one of a filter that cannot be used.
      have hle : ¬ key' < key := fun hlt => hnever hfault' (hleast key' f' hlt hf')
      have hge : ¬ key < key' := fun hlt => hnever hfault (hleast' key f hlt hf)
      obtain rfl : key = key' := String.le_antisymm (String.not_lt.1 hle) (String.not_lt.1 hge)
      obtain rfl := Option.some.inj (hf.symm.trans hf')
      have hsource := Filter.build_eq_error.mpr hfault
      rw [Filter.build_eq_error.mpr hfault'] at hsource
      cases hsource
      rfl

theorem contains_of_build {request : Request} {ctx : Context C}
    (h : (build builder request).outcome = .ok ctx) (key : String) :
    (∃ c, ctx.get? key = some c) ↔ request.filters.contains key = true := by
  constructor
  · rintro ⟨c, hc⟩
    obtain ⟨f, hf, -⟩ := (get?_build h).mp hc
    rw [KeyMap.contains, hf]
    rfl
  · intro hcontains
    obtain ⟨f, hf⟩ := Option.isSome_iff_exists.mp hcontains
    obtain ⟨c, hc⟩ := Filter.exists_build_eq_ok.mpr (exists_build_eq_ok.mp ⟨ctx, h⟩ key f hf)
    exact ⟨c, (get?_build h).mpr ⟨f, hf, hc⟩⟩

/-- The error for the first of some names that a context does not have. -/
def FirstMissing (ctx : Context C) (names : List String) (e : Error) : Prop :=
  ∃ before key after, names = before ++ key :: after ∧
    (∀ name ∈ before, ∃ c, ctx.get? name = some c) ∧ ctx.get? key = none ∧
    e = .unknownFilterKey key (Text.suggest? key ctx.keys)

theorem FirstMissing.append_right {ctx : Context C} {names : List String} {e : Error}
    (h : ctx.FirstMissing names e) (more : List String) : ctx.FirstMissing (names ++ more) e := by
  obtain ⟨before, key, after, rfl, hbefore, hkey, he⟩ := h
  exact ⟨before, key, after ++ more, by simp, hbefore, hkey, he⟩

theorem FirstMissing.append_left {ctx : Context C} {names : List String} {e : Error}
    (h : ctx.FirstMissing names e) {found : List String}
    (hfound : ∀ name ∈ found, ∃ c, ctx.get? name = some c) :
    ctx.FirstMissing (found ++ names) e := by
  obtain ⟨before, key, after, rfl, hbefore, hkey, he⟩ := h
  refine ⟨found ++ before, key, after, by simp, fun name hname => ?_, hkey, he⟩
  exact (List.mem_append.mp hname).elim (hfound name) (hbefore name)

theorem FirstMissing.find? {ctx : Context C} {names : List String} {e : Error}
    (h : ctx.FirstMissing names e) :
    ∃ key, names.find? (fun name => !ctx.contains name) = some key ∧
      e = .unknownFilterKey key (Text.suggest? key ctx.keys) := by
  obtain ⟨before, key, after, rfl, hbefore, hkey, rfl⟩ := h
  refine ⟨key, List.find?_eq_some_iff_append.mpr
    ⟨?_, before, after, rfl, fun name hname => ?_⟩, rfl⟩
  · simp [KeyMap.contains, hkey]
  · obtain ⟨c, hc⟩ := hbefore name hname
    simp [KeyMap.contains, hc]

/-- A context whose conditions have one kind. -/
def Uniform [Condition C] (ctx : Context C) (kind : String) : Prop :=
  ∀ key c, ctx.get? key = some c → Condition.kind c = kind

end Context

namespace Expr.Tree

variable [Condition C] {ctx : Context C}

theorem leaves_of_generate {t : Tree} {c : C} (h : (t.generate ctx).outcome = .ok c) :
    ∀ name ∈ t.leaves, ∃ d, ctx.get? name = some d := by
  obtain ⟨leaf, -, hleaves⟩ := exists_combine_of_generate h
  intro name hname
  exact ⟨leaf name, hleaves name hname⟩

/-- What is generated from conditions of one kind has that kind. -/
theorem kind_of_generate [LawfulCondition C] {kind : String} (hctx : ctx.Uniform kind) {t : Tree}
    {c : C} (h : (t.generate ctx).outcome = .ok c) : Condition.kind c = kind := by
  obtain ⟨d, hd, hkind⟩ := kind_leftmost h
  exact hkind.symm.trans (hctx t.leftmost d hd)

/-- Two operands fail with the first missing leaf of both, if their combination cannot fail. -/
theorem firstMissing_operands {l r : Tree} {finish : C → C → Logged (Call C) C} {e : Error}
    (ihl : ∀ {e}, (l.generate ctx).outcome = .error e → ctx.FirstMissing l.leaves e)
    (ihr : ∀ {e}, (r.generate ctx).outcome = .error e → ctx.FirstMissing r.leaves e)
    (hfinish : ∀ a b, (l.generate ctx).outcome = .ok a → (r.generate ctx).outcome = .ok b →
      ∃ c, (finish a b).outcome = .ok c)
    (h : (l.generate ctx >>= fun a => r.generate ctx >>= fun b => finish a b).outcome =
      .error e) :
    ctx.FirstMissing (l.leaves ++ r.leaves) e := by
  simp only [Logged.outcome_bind, Outcome.bind_eq_error] at h
  rcases h with hl | ⟨a, ha, hr | ⟨b, hb, hnever⟩⟩
  · exact (ihl hl).append_right r.leaves
  · exact (ihr hr).append_left (leaves_of_generate ha)
  · obtain ⟨c, hc⟩ := hfinish a b ha hb
    rw [hc] at hnever
    cases hnever

/-- Over conditions of one kind only a missing leaf fails, and the first one is reported. -/
theorem generate_eq_error [LawfulCondition C] {kind : String} (hctx : ctx.Uniform kind) {t : Tree}
    {e : Error} (h : (t.generate ctx).outcome = .error e) : ctx.FirstMissing t.leaves e := by
  induction t generalizing e with
  | leaf name =>
      obtain ⟨hget, he⟩ := Context.resolve_eq_error.mp h
      exact ⟨[], name, [], rfl, by simp, hget, he⟩
  | not t ih =>
      rw [generate, Logged.outcome_bind, Outcome.bind_eq_error] at h
      rcases h with h | ⟨c, -, hnever⟩
      · exact ih h
      · cases hnever
  | and l r ihl ihr =>
      -- A combination is refused for the kinds of its operands only, and these are the same.
      refine firstMissing_operands ihl ihr (fun a b ha hb => ?_) h
      have hkind := (kind_of_generate hctx ha).trans (kind_of_generate hctx hb).symm
      exact ⟨_, Condition.conjoin_eq_ok.mpr ⟨hkind, rfl⟩⟩
  | or l r ihl ihr =>
      refine firstMissing_operands ihl ihr (fun a b ha hb => ?_) h
      have hkind := (kind_of_generate hctx ha).trans (kind_of_generate hctx hb).symm
      exact ⟨_, Condition.disjoin_eq_ok.mpr ⟨hkind, rfl⟩⟩

/-- Over conditions of one kind a tree is generated exactly if no leaf is missing. -/
theorem exists_generate_eq_ok [LawfulCondition C] {kind : String} (hctx : ctx.Uniform kind)
    {t : Tree} :
    (∃ c, (t.generate ctx).outcome = .ok c) ↔ ∀ name ∈ t.leaves, ∃ d, ctx.get? name = some d := by
  constructor
  · rintro ⟨c, hc⟩
    exact leaves_of_generate hc
  · intro hleaves
    have hkinds : t.HasKind ctx kind := by
      intro name hname
      obtain ⟨d, hd⟩ := hleaves name hname
      exact ⟨d, hd, hctx name d hd⟩
    obtain ⟨c, hc, -⟩ := generate_of_hasKind hkinds
    exact ⟨c, hc⟩

/-- Over conditions of one kind the first missing leaf decides, and no other one. -/
theorem generate_eq_error_iff [LawfulCondition C] {kind : String} (hctx : ctx.Uniform kind)
    {t : Tree} {e : Error} : (t.generate ctx).outcome = .error e ↔
      ∃ key, t.leaves.find? (fun name => !ctx.contains name) = some key ∧
        e = .unknownFilterKey key (Text.suggest? key ctx.keys) := by
  refine ⟨fun h => (generate_eq_error hctx h).find?, ?_⟩
  rintro ⟨key, hkey, rfl⟩
  cases hgenerate : (t.generate ctx).outcome with
  | ok c =>
      obtain ⟨d, hd⟩ := leaves_of_generate hgenerate key (List.mem_of_find?_eq_some hkey)
      have hmissing := List.find?_some hkey
      simp [KeyMap.contains, hd] at hmissing
  | error e =>
      obtain ⟨key', hkey', rfl⟩ := (generate_eq_error hctx hgenerate).find?
      obtain rfl := Option.some.inj (hkey.symm.trans hkey')
      rfl

end Expr.Tree

namespace Request

/-- The error that a request fails with: the fault of its expression, or else that of the filter
with the least key that cannot be used, or else the first leaf without a filter, whatever name is
suggested for it. -/
inductive Fault (builder : Builder C) (request : Request) : Error → Prop
  | expression {fault} (h : Expr.parse request.combineWith = .error fault) :
      Fault builder request (.expression fault)
  | filter {t key f source} (hparse : Expr.parse request.combineWith = .ok t)
      (hfilter : request.filters.get? key = some f) (hfault : f.Fault builder source)
      (hleast : ∀ key' f', key' < key → request.filters.get? key' = some f' → f'.Usable builder) :
      Fault builder request (.filter key source)
  | unknownKey {t before key after suggestion}
      (hparse : Expr.parse request.combineWith = .ok t)
      (husable : ∀ key f, request.filters.get? key = some f → f.Usable builder)
      (hleaves : t.leaves = before ++ key :: after)
      (hbefore : ∀ name ∈ before, request.filters.contains name = true)
      (hkey : request.filters.contains key = false) :
      Fault builder request (.unknownFilterKey key suggestion)

variable [Condition C] {builder : Builder C} {request : Request}

/-- A fault of the expression is reported before any call. -/
theorem resolve_of_parse_error {fault : SyntaxError}
    (h : Expr.parse request.combineWith = .error fault) :
    request.resolve builder = ⟨[], .error (.expression fault)⟩ := by
  have htree : request.tree = .error (.expression fault) :=
    Outcome.mapError_eq_error.mpr ⟨fault, h, rfl⟩
  rw [resolve, htree]
  rfl

end Request

end FilterLogic
