import FilterLogic.Proofs.KeyMap
import FilterLogic.Registry

/-!
# Looking up the names in a request

A submitted filter means the property and the operator that it names. A request is looked up in a
registry exactly if its expression is one and all of its filters mean something, and then its
filters are what they mean.
-/

namespace FilterLogic

namespace RawFilter

/-- Whether a submitted filter means a filter in a registry. -/
def Means (registry : Registry) (raw : RawFilter) (f : Filter) : Prop :=
  registry.get? raw.property = some f.property ∧ Operator.parse? raw.operator = some f.operator ∧
    raw.value = f.value

/-- What is wrong with the names in a submitted filter: the property is not known, or else the
operator is not. -/
inductive Fault (registry : Registry) (raw : RawFilter) : Error → Prop
  | property (h : registry.get? raw.property = none) :
      Fault registry raw
        (.unknownProperty raw.property (Text.suggest? raw.property registry.names))
  | operator {p} (hproperty : registry.get? raw.property = some p)
      (h : Operator.parse? raw.operator = none) :
      Fault registry raw (.unknownOperator (Text.trim raw.operator))

end RawFilter

theorem Operator.require_eq_ok {text : String} {op : Operator} :
    require text = .ok op ↔ parse? text = some op := by
  rw [require]
  cases parse? text <;> simp

theorem Operator.require_eq_error {text : String} {e : Error} :
    require text = .error e ↔ parse? text = none ∧ e = .unknownOperator (Text.trim text) := by
  rw [require]
  cases parse? text <;> simp [eq_comm]

namespace Registry

variable {registry : Registry} {raw : RawFilter} {f : Filter} {e : Error}

theorem require_eq_ok {name : String} {p : Property} :
    registry.require name = .ok p ↔ registry.get? name = some p := by
  rw [require]
  cases registry.get? name <;> simp

theorem require_eq_error {name : String} : registry.require name = .error e ↔
    registry.get? name = none ∧
      e = .unknownProperty name (Text.suggest? name registry.names) := by
  rw [require]
  cases registry.get? name <;> simp [eq_comm]

theorem resolveFilter_eq_ok : registry.resolveFilter raw = .ok f ↔ raw.Means registry f := by
  rw [resolveFilter, Outcome.bind_eq_ok]
  constructor
  · rintro ⟨property, hproperty, h⟩
    obtain ⟨operator, hoperator, hf⟩ := Outcome.bind_eq_ok.mp h
    cases hf
    exact ⟨require_eq_ok.mp hproperty, Operator.require_eq_ok.mp hoperator, rfl⟩
  · rintro ⟨hproperty, hoperator, hvalue⟩
    refine ⟨f.property, require_eq_ok.mpr hproperty, ?_⟩
    rw [Operator.require_eq_ok.mpr hoperator, hvalue]
    rfl

theorem resolveFilter_eq_error :
    registry.resolveFilter raw = .error e ↔ raw.Fault registry e := by
  rw [resolveFilter, Outcome.bind_eq_error]
  constructor
  · rintro (hproperty | ⟨property, hproperty, h⟩)
    · obtain ⟨hnone, rfl⟩ := require_eq_error.mp hproperty
      exact .property hnone
    · rcases Outcome.bind_eq_error.mp h with hoperator | ⟨operator, -, hnever⟩
      · obtain ⟨hnone, rfl⟩ := Operator.require_eq_error.mp hoperator
        exact .operator (require_eq_ok.mp hproperty) hnone
      · cases hnever
  · rintro (hnone | ⟨hproperty, hnone⟩)
    · exact .inl (require_eq_error.mpr ⟨hnone, rfl⟩)
    · refine .inr ⟨_, require_eq_ok.mpr hproperty, ?_⟩
      rw [Operator.require_eq_error.mpr ⟨hnone, rfl⟩]
      rfl

/-- Looks up the names of the filter under a key. -/
def resolveEntry (registry : Registry) (entry : String × RawFilter) :
    Except Error (String × Filter) :=
  ((registry.resolveFilter entry.2).mapError (.filter entry.1)).map (Prod.mk entry.1)

theorem resolveFilters_eq_mapM (entries : List (String × RawFilter)) :
    registry.resolveFilters entries = entries.mapM registry.resolveEntry := by
  induction entries with
  | nil => rfl
  | cons entry rest ih =>
      obtain ⟨key, raw⟩ := entry
      rw [resolveFilters, List.mapM_cons, ih, resolveEntry]
      cases registry.resolveFilter raw <;> rfl

theorem resolveEntry_eq_ok {key : String} {entry : String × Filter} :
    registry.resolveEntry (key, raw) = .ok entry ↔
      entry.1 = key ∧ raw.Means registry entry.2 := by
  rw [← resolveFilter_eq_ok, resolveEntry]
  obtain ⟨key', f⟩ := entry
  cases registry.resolveFilter raw with
  | error e => simp [Except.mapError, Except.map]
  | ok g => simp [Except.mapError, Except.map, eq_comm]

theorem resolveEntry_eq_error {key : String} : registry.resolveEntry (key, raw) = .error e ↔
    ∃ source, raw.Fault registry source ∧ e = .filter key source := by
  simp only [← resolveFilter_eq_error, resolveEntry]
  cases registry.resolveFilter raw <;> simp [Except.mapError, Except.map, eq_comm]

/-- The names in submitted filters are looked up until the least key whose filter means nothing. -/
theorem resolveFilters_eq_error {filters : KeyMap RawFilter} :
    registry.resolveFilters filters.entries = .error e ↔
      ∃ key raw source, filters.get? key = some raw ∧ raw.Fault registry source ∧
        (∀ key' raw', key' < key → filters.get? key' = some raw' →
          ∃ f, raw'.Means registry f) ∧
        e = .filter key source := by
  rw [resolveFilters_eq_mapM, KeyMap.mapM_eq_error]
  constructor
  · rintro ⟨key, raw, hraw, he, hleast⟩
    obtain ⟨source, hsource, rfl⟩ := resolveEntry_eq_error.mp he
    refine ⟨key, raw, source, hraw, hsource, fun key' raw' hlt hraw' => ?_, rfl⟩
    obtain ⟨entry, hentry⟩ := hleast key' raw' hlt hraw'
    exact ⟨entry.2, (resolveEntry_eq_ok.mp hentry).2⟩
  · rintro ⟨key, raw, source, hraw, hsource, hleast, rfl⟩
    refine ⟨key, raw, hraw, resolveEntry_eq_error.mpr ⟨source, hsource, rfl⟩,
      fun key' raw' hlt hraw' => ?_⟩
    obtain ⟨f, hf⟩ := hleast key' raw' hlt hraw'
    exact ⟨(key', f), resolveEntry_eq_ok.mpr ⟨rfl, hf⟩⟩

theorem keys_of_resolveFilters {entries : List (String × RawFilter)}
    {filters : List (String × Filter)} (h : registry.resolveFilters entries = .ok filters) :
    filters.map (·.1) = entries.map (·.1) := by
  rw [resolveFilters_eq_mapM] at h
  exact Outcome.map_of_mapM h fun _ _ hentry => (resolveEntry_eq_ok.mp hentry).1

/-- Filters that were looked up are, under each key, what the submitted filter there means. -/
theorem get?_of_resolveFilters {filters : KeyMap RawFilter} {entries : List (String × Filter)}
    (h : registry.resolveFilters filters.entries = .ok entries) {key : String} {f : Filter} :
    (KeyMap.ofList entries).get? key = some f ↔
      ∃ raw, filters.get? key = some raw ∧ raw.Means registry f := by
  rw [resolveFilters_eq_mapM] at h
  have hkept (entry : String × RawFilter) (found : String × Filter)
      (hfound : registry.resolveEntry entry = .ok found) : (id found).1 = entry.1 :=
    (resolveEntry_eq_ok.mp hfound).1
  rw [KeyMap.get?_ofList, ← entries.map_id, KeyMap.lastUnder_of_mapM h hkept]
  constructor
  · rintro ⟨raw, found, hraw, hfound, rfl⟩
    exact ⟨raw, hraw, (resolveEntry_eq_ok.mp hfound).2⟩
  · rintro ⟨raw, hraw, hmeans⟩
    exact ⟨raw, (key, f), hraw, resolveEntry_eq_ok.mpr ⟨rfl, hmeans⟩, rfl⟩

theorem contains_of_resolveFilters {filters : KeyMap RawFilter}
    {entries : List (String × Filter)}
    (h : registry.resolveFilters filters.entries = .ok entries) (key : String) :
    (KeyMap.ofList entries).contains key = filters.contains key := by
  rw [Bool.eq_iff_iff, ← KeyMap.mem_keys, ← KeyMap.mem_keys, KeyMap.mem_keys_ofList,
    keys_of_resolveFilters h]
  rfl

end Registry

end FilterLogic
