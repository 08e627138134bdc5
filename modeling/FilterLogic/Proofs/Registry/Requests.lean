import FilterLogic.Proofs.Expr.Lexemes
import FilterLogic.Proofs.Resolution.Lookup

/-!
# Requests that a registry resolves

A registry resolves a request exactly if its expression is one and both names in each of its filters
are known. Nothing is lost or changed on the way: the keys and the expression stay as they are, and
each filter gets the property that is registered, the operator that was read, and its own value.
Otherwise one fault is reported, although many filters can be at fault at once: that of the
expression, or else that of the filter with the least key among those that are.
-/

namespace FilterLogic

namespace RawFilter

variable {registry : Registry} {raw : RawFilter}

/-- Whether the property and the operator that a submitted filter names are known. -/
def Known (registry : Registry) (raw : RawFilter) : Prop :=
  registry.contains raw.property = true ∧ ∃ op, Operator.parse? raw.operator = some op

theorem exists_means_iff : (∃ f, raw.Means registry f) ↔ raw.Known registry := by
  rw [Known, Registry.contains, KeyMap.contains, Option.isSome_iff_exists]
  constructor
  · rintro ⟨f, hproperty, hoperator, -⟩
    exact ⟨⟨f.property, hproperty⟩, f.operator, hoperator⟩
  · rintro ⟨⟨p, hproperty⟩, op, hoperator⟩
    exact ⟨⟨p, op, raw.value⟩, hproperty, hoperator, rfl⟩

/-- What is wrong with the names in a filter is told without the key of the filter. -/
theorem Fault.ne_filter {e : Error} (h : raw.Fault registry e) (key : String) (source : Error) :
    e ≠ .filter key source := by
  rintro rfl
  cases h

end RawFilter

namespace RawRequest

variable {registry : Registry} {raw : RawRequest} {request : Request}

/-- Whether a submitted request means a request in a registry: it has the same expression and the
same keys, and under each key the filter that the submitted one there means. -/
structure Means (registry : Registry) (raw : RawRequest) (request : Request) : Prop where
  combineWith_eq : request.combineWith = raw.combineWith
  keys_eq : request.filters.keys = raw.filters.keys
  get?_iff {key : String} {f : Filter} : request.filters.get? key = some f ↔
    ∃ filter, raw.filters.get? key = some filter ∧ filter.Means registry f

/-- What is wrong with a submitted request: the fault of its expression, or else that of the names
in the filter with the least key among those whose names are not known. -/
inductive Fault (registry : Registry) (raw : RawRequest) : Error → Prop
  | expression {fault} (h : Expr.parse raw.combineWith = .error fault) :
      Fault registry raw (.expression fault)
  | filter {t key filter source} (hparse : Expr.parse raw.combineWith = .ok t)
      (hfilter : raw.filters.get? key = some filter) (hfault : filter.Fault registry source)
      (hleast : ∀ key' filter', key' < key → raw.filters.get? key' = some filter' →
        filter'.Known registry) :
      Fault registry raw (.filter key source)

theorem Means.unique {request' : Request} (h : raw.Means registry request)
    (h' : raw.Means registry request') : request = request' := by
  obtain ⟨filters, combineWith⟩ := request
  obtain ⟨filters', combineWith'⟩ := request'
  obtain rfl : combineWith = raw.combineWith := h.combineWith_eq
  obtain rfl : combineWith' = raw.combineWith := h'.combineWith_eq
  have hfilters : filters = filters' := by
    apply KeyMap.ext_get?
    intro key
    apply Option.ext
    intro f
    exact h.get?_iff.trans h'.get?_iff.symm
  rw [hfilters]

/-- All names in a request that means something are known. -/
theorem Means.known (h : raw.Means registry request) {key : String} {filter : RawFilter}
    (hfilter : raw.filters.get? key = some filter) : filter.Known registry := by
  have hcontains : raw.filters.contains key = true := Option.isSome_iff_exists.mpr ⟨_, hfilter⟩
  have hkey : key ∈ request.filters.keys := by
    rw [h.keys_eq]
    exact KeyMap.mem_keys.mpr hcontains
  obtain ⟨f, hf⟩ := Option.isSome_iff_exists.mp (KeyMap.mem_keys.mp hkey)
  obtain ⟨filter', hfilter', hmeans⟩ := h.get?_iff.mp hf
  obtain rfl := Option.some.inj (hfilter.symm.trans hfilter')
  exact RawFilter.exists_means_iff.mp ⟨f, hmeans⟩

end RawRequest

namespace Registry

variable {registry : Registry} {raw : RawRequest} {request : Request}

theorem exists_resolveFilters_eq_ok {filters : KeyMap RawFilter} :
    (∃ entries, registry.resolveFilters filters.entries = .ok entries) ↔
      ∀ key filter, filters.get? key = some filter → filter.Known registry := by
  have hentry (key : String) (filter : RawFilter) :
      (∃ b, registry.resolveEntry (key, filter) = .ok b) ↔ filter.Known registry := by
    rw [← RawFilter.exists_means_iff]
    constructor
    · rintro ⟨b, hb⟩
      exact ⟨b.2, (resolveEntry_eq_ok.mp hb).2⟩
    · rintro ⟨f, hf⟩
      exact ⟨(key, f), resolveEntry_eq_ok.mpr ⟨rfl, hf⟩⟩
  simp only [resolveFilters_eq_mapM, Outcome.exists_mapM_eq_ok, Prod.forall, hentry,
    KeyMap.get?_eq_some_iff]

theorem means_of_resolveFilters {entries : List (String × Filter)}
    (h : registry.resolveFilters raw.filters.entries = .ok entries) :
    raw.Means registry (Request.ofList entries raw.combineWith) where
  combineWith_eq := rfl
  keys_eq := KeyMap.keys_eq_of_contains (contains_of_resolveFilters h)
  get?_iff := get?_of_resolveFilters h

/-- A request is resolved to what it means, after its expression was found to be one. -/
theorem resolveRequest_eq_ok : registry.resolveRequest raw = .ok request ↔
    (∃ t, Expr.parse raw.combineWith = .ok t) ∧ raw.Means registry request := by
  rw [resolveRequest, Outcome.bind_eq_ok]
  constructor
  · rintro ⟨t, ht, h⟩
    obtain ⟨entries, hentries, hrequest⟩ := Outcome.bind_eq_ok.mp h
    cases hrequest
    exact ⟨⟨t, Outcome.mapError_eq_ok.mp ht⟩, means_of_resolveFilters hentries⟩
  · rintro ⟨⟨t, ht⟩, hmeans⟩
    obtain ⟨entries, hentries⟩ :=
      exists_resolveFilters_eq_ok.mpr fun _ _ hfilter => hmeans.known hfilter
    refine ⟨t, Outcome.mapError_eq_ok.mpr ht, Outcome.bind_eq_ok.mpr ⟨entries, hentries, ?_⟩⟩
    exact congrArg Except.ok ((means_of_resolveFilters hentries).unique hmeans)

theorem exists_resolveRequest_eq_ok : (∃ request, registry.resolveRequest raw = .ok request) ↔
    (∃ t, Expr.parse raw.combineWith = .ok t) ∧
      ∀ key filter, raw.filters.get? key = some filter → filter.Known registry := by
  constructor
  · rintro ⟨request, h⟩
    obtain ⟨hparse, hmeans⟩ := resolveRequest_eq_ok.mp h
    exact ⟨hparse, fun _ _ hfilter => hmeans.known hfilter⟩
  · rintro ⟨hparse, hknown⟩
    obtain ⟨entries, hentries⟩ := exists_resolveFilters_eq_ok.mpr hknown
    exact ⟨_, resolveRequest_eq_ok.mpr ⟨hparse, means_of_resolveFilters hentries⟩⟩

theorem resolveRequest_eq_error {e : Error} :
    registry.resolveRequest raw = .error e ↔ raw.Fault registry e := by
  rw [resolveRequest, Outcome.bind_eq_error]
  constructor
  · rintro (h | ⟨t, ht, h⟩)
    · obtain ⟨fault, hfault, rfl⟩ := Outcome.mapError_eq_error.mp h
      exact .expression hfault
    · obtain ⟨key, filter, source, hfilter, hfault, hleast, rfl⟩ :=
        resolveFilters_eq_error.mp (Outcome.bind_ok_eq_error.mp h)
      have hparse := Outcome.mapError_eq_ok.mp ht
      refine .filter hparse hfilter hfault fun key' filter' hlt hfilter' => ?_
      exact RawFilter.exists_means_iff.mp (hleast key' filter' hlt hfilter')
  · intro h
    cases h with
    | expression hfault => exact .inl (Outcome.mapError_eq_error.mpr ⟨_, hfault, rfl⟩)
    | @filter t key filter source hparse hfilter hfault hleast =>
        refine .inr ⟨t, Outcome.mapError_eq_ok.mpr hparse, Outcome.bind_ok_eq_error.mpr ?_⟩
        refine resolveFilters_eq_error.mpr
          ⟨key, filter, source, hfilter, hfault, fun key' filter' hlt hfilter' => ?_, rfl⟩
        exact RawFilter.exists_means_iff.mpr (hleast key' filter' hlt hfilter')

/-- Whether a request is resolved, what it is resolved to, and which error is reported if it is not.
The error of a filter is put under its key once. -/
theorem resolveRequest_decided (registry : Registry) (raw : RawRequest) :
    ((∃ request, registry.resolveRequest raw = .ok request) ↔
      (∃ t, Expr.parse raw.combineWith = .ok t) ∧
        ∀ key filter, raw.filters.get? key = some filter → filter.Known registry) ∧
    (∀ request, registry.resolveRequest raw = .ok request ↔
      (∃ t, Expr.parse raw.combineWith = .ok t) ∧ raw.Means registry request) ∧
    (∀ e, registry.resolveRequest raw = .error e ↔ raw.Fault registry e) ∧
    (∀ key source, registry.resolveRequest raw = .error (.filter key source) →
      ∀ key' source', source ≠ .filter key' source') := by
  refine ⟨exists_resolveRequest_eq_ok, fun _ => resolveRequest_eq_ok,
    fun _ => resolveRequest_eq_error, fun key source h => ?_⟩
  cases resolveRequest_eq_error.mp h with
  | filter _ _ hfault _ => exact hfault.ne_filter

/-- Two filters at fault, the lesser of them in both of its names, and then one of them alone, an
expression that is none, and a filter that can be looked up. -/
theorem resolveRequest_decided_faults :
    let registry := ofList [.withDefaults "age" .integer]
    let adult : String × RawFilter := ("adult", ⟨"age", " gte ", .number (.integer 18)⟩)
    let c : String × RawFilter := ("c", ⟨"age", " ~ ", .null⟩)
    let b : String × RawFilter := ("b", ⟨"agee", "~", .null⟩)
    registry.resolveRequest ⟨KeyMap.ofList [adult, c, b], "adult"⟩ = .error (.filter "b"
      (.unknownProperty "agee" (Text.suggest? "agee" registry.names))) ∧
    registry.resolveRequest ⟨KeyMap.ofList [adult, c], "adult"⟩ =
      .error (.filter "c" (.unknownOperator "~")) ∧
    registry.resolveRequest ⟨KeyMap.ofList [adult, c, b], "adult &"⟩ =
      .error (.expression (.missingOperand .and)) ∧
    ∃ request, registry.resolveRequest ⟨KeyMap.ofList [adult], "adult"⟩ = .ok request ∧
      request.filters.get? "adult" = some
        ⟨.withDefaults "age" .integer, .greaterThanOrEqual, .number (.integer 18)⟩ := by
  intro registry adult c b
  have htokens : Expr.tokenize "adult" = .ok [⟨.identifier "adult", 0⟩] :=
    Expr.tokenize_eq_ok.mpr ⟨by decide, by decide +kernel⟩
  have htokens' : Expr.tokenize "adult &" = .ok [⟨.identifier "adult", 0⟩, ⟨.and, 6⟩] :=
    Expr.tokenize_eq_ok.mpr ⟨by decide, by decide +kernel⟩
  have hparse : Expr.parse "adult" = .ok (.leaf "adult") := Expr.parse_of_tokenize htokens
  have hmeans : adult.2.Means registry
      ⟨.withDefaults "age" .integer, .greaterThanOrEqual, .number (.integer 18)⟩ :=
    ⟨by decide +kernel, by decide +kernel, rfl⟩
  have hadult : adult.2.Known registry := RawFilter.exists_means_iff.mp ⟨_, hmeans⟩
  have hb : b.2.Fault registry (.unknownProperty "agee" (Text.suggest? "agee" registry.names)) :=
    .property (by decide +kernel)
  have hc : c.2.Fault registry (.unknownOperator "~") := by
    have htrim : Text.trim " ~ " = "~" := by decide +kernel
    rw [← htrim]
    exact .operator (p := .withDefaults "age" .integer) (by decide +kernel) (by decide +kernel)
  have hget (filters : List (String × RawFilter)) (key : String) :
      (KeyMap.ofList filters).get? key = lastUnder filters key := KeyMap.get?_ofList filters key
  have hleast (bound : String) (rest : List (String × RawFilter))
      (hrest : ∀ entry ∈ rest, ¬ entry.1 < bound) (key : String) (filter : RawFilter)
      (hlt : key < bound) (hfilter : (KeyMap.ofList (adult :: rest)).get? key = some filter) :
      filter.Known registry := by
    rw [hget] at hfilter
    rcases List.mem_cons.mp (mem_of_lastUnder hfilter) with h | h
    · rw [(Prod.mk.inj h).2]
      exact hadult
    · exact absurd hlt (hrest _ h)
  refine ⟨?_, ?_, ?_, ?_⟩
  · exact ((resolveRequest_decided registry _).2.2.1 _).mpr
      (.filter hparse (hget _ "b") hb (hleast "b" [c, b] (by decide)))
  · exact ((resolveRequest_decided registry _).2.2.1 _).mpr
      (.filter hparse (hget _ "c") hc (hleast "c" [c] (by decide)))
  · exact ((resolveRequest_decided registry _).2.2.1 _).mpr
      (.expression (Expr.parse_of_tokenize htokens'))
  · have hknown (key : String) (filter : RawFilter)
        (h : (KeyMap.ofList [adult]).get? key = some filter) : filter.Known registry := by
      rw [hget] at h
      rw [(Prod.mk.inj (List.mem_singleton.mp (mem_of_lastUnder h))).2]
      exact hadult
    have hdecided := resolveRequest_decided registry ⟨KeyMap.ofList [adult], "adult"⟩
    obtain ⟨request, h⟩ := hdecided.1.mpr ⟨⟨_, hparse⟩, hknown⟩
    obtain ⟨-, hrequest⟩ := (hdecided.2.1 request).mp h
    exact ⟨request, h, hrequest.get?_iff.mpr ⟨adult.2, hget _ "adult", hmeans⟩⟩

end Registry

end FilterLogic
