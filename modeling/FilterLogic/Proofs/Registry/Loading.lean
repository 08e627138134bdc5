import FilterLogic.Proofs.KeyMap
import FilterLogic.Registry.Config

/-!
# Loading a registry

A configuration describes a registry unless it lists no operators for some property.
-/

namespace FilterLogic

/-- Whether a configuration has a list of operators that is empty. -/
def PropertyConfig.ListsNone (c : PropertyConfig) : Prop := c.operators = some []

/-- A property cannot be declared exactly if no operators are listed for it. -/
theorem Property.declare_eq_error {name : String} {type : PropertyType}
    {ops : Option (List Operator)} {e : Error} :
    declare name type ops = .error e ↔ ops = some [] ∧ e = .emptyOperatorSet name := by
  cases ops with
  | none => simp [declare]
  | some ops =>
      rw [declare, create]
      by_cases h : ops = []
      · simp [h, eq_comm]
      · simp [h]

theorem Property.exists_declare_eq_ok {name : String} {type : PropertyType}
    {ops : Option (List Operator)} : (∃ p, declare name type ops = .ok p) ↔ ops ≠ some [] := by
  cases h : declare name type ops with
  | ok p =>
      have hnone : ¬ (ops = some [] ∧ Error.emptyOperatorSet name = .emptyOperatorSet name) := by
        rw [← declare_eq_error, h]
        exact nofun
      simpa using hnone
  | error e => simpa using (declare_eq_error.mp h).1

namespace Registry

/-- Declares one property. -/
def declareEntry (entry : String × PropertyConfig) : Except Error Property :=
  Property.declare entry.1 entry.2.type entry.2.operators

theorem declareAll_eq_mapM (entries : List (String × PropertyConfig)) :
    declareAll entries = entries.mapM declareEntry := by
  induction entries with
  | nil => rfl
  | cons entry rest ih =>
      rw [declareAll, List.mapM_cons, ih]
      rfl

/-- A configuration is refused for the least property without operators. -/
theorem ofConfig_eq_error {config : KeyMap PropertyConfig} {e : Error} :
    ofConfig config = .error e ↔ ∃ name c, config.get? name = some c ∧ c.ListsNone ∧
      (∀ name' c', name' < name → config.get? name' = some c' → ¬ c'.ListsNone) ∧
      e = .emptyOperatorSet name := by
  have hwalk : ofConfig config = .error e ↔ config.entries.mapM declareEntry = .error e := by
    rw [ofConfig, declareAll_eq_mapM]
    cases config.entries.mapM declareEntry <;> simp
  rw [hwalk, KeyMap.mapM_eq_error]
  simp only [declareEntry, Property.declare_eq_error, Property.exists_declare_eq_ok,
    PropertyConfig.ListsNone]
  constructor
  · rintro ⟨name, c, hc, ⟨hnone, rfl⟩, hleast⟩
    exact ⟨name, c, hc, hnone, hleast, rfl⟩
  · rintro ⟨name, c, hc, hnone, hleast, rfl⟩
    exact ⟨name, c, hc, ⟨hnone, rfl⟩, hleast⟩

/-- A registry cannot be loaded if its text is no configuration, or if one is refused. -/
theorem load_eq_error {report : ConfigReport} {text : String} {e : Error} :
    load report text = .error e ↔
      (∃ fault, PropertyConfig.parse text = .error fault ∧
        e = .configuration (report text fault)) ∨
      ∃ config name c, PropertyConfig.parse text = .ok config ∧ config.get? name = some c ∧
        c.ListsNone ∧
        (∀ name' c', name' < name → config.get? name' = some c' → ¬ c'.ListsNone) ∧
        e = .emptyOperatorSet name := by
  rw [load, Outcome.bind_eq_error, Outcome.mapError_eq_error]
  simp only [Outcome.mapError_eq_ok, ofConfig_eq_error, exists_and_left]

end Registry

end FilterLogic
