import FilterLogic.Proofs.Property.Validation
import FilterLogic.Proofs.Registry.Loading
import FilterLogic.Proofs.Resolution.Lookup

/-!
# What a registry holds

A registry has one property for each name it was given, the last one of several. All its views
agree on the names, which are listed in ascending order, and each name has a property of that name
whose operators are listed in order of declaration. It makes no difference whether the properties
come from a list or from a configuration; a configuration without operators for a property stands
for those of its type.
-/

namespace FilterLogic

/-- Whether operators are listed in order of declaration, each once, and at least one of them. -/
structure Operator.Listed (ops : List Operator) : Prop where
  ascending : ops.Pairwise fun a b => a.ctorIdx < b.ctorIdx
  nodup : ops.Nodup
  ne_nil : ops ≠ []

theorem Operator.ascending_all : all.Pairwise fun a b => a.ctorIdx < b.ctorIdx := by decide

/-- Operators in order of declaration are told by their members. -/
theorem Operator.eq_of_mem_iff {ops ops' : List Operator} (h : ops.Sublist all)
    (h' : ops'.Sublist all) (hmem : ∀ op, op ∈ ops ↔ op ∈ ops') : ops = ops' := by
  have : Std.Irrefl fun a b : Operator => a.ctorIdx < b.ctorIdx := ⟨fun _ => Nat.lt_irrefl _⟩
  have : Std.Antisymm fun a b : Operator => a.ctorIdx < b.ctorIdx :=
    ⟨fun _ _ hab hba => absurd (Nat.lt_trans hab hba) (Nat.lt_irrefl _)⟩
  exact List.Pairwise.eq_of_mem_iff (ascending_all.sublist h) (ascending_all.sublist h') hmem

/-- Whether a property is the one that a configuration declares under a name: it has that name and
the type, and exactly the listed operators, or those of the type if none are listed. -/
structure PropertyConfig.Declares (c : PropertyConfig) (name : String) (p : Property) : Prop where
  name_eq : p.name = name
  type_eq : p.type = c.type
  mem_operators_iff {op : Operator} :
    op ∈ p.operators ↔ op ∈ c.operators.getD c.type.defaultOperators

/-- A configuration declares one property under a name. -/
theorem PropertyConfig.Declares.unique {c : PropertyConfig} {name : String} {p q : Property}
    (hp : c.Declares name p) (hq : c.Declares name q) : p = q := by
  obtain ⟨name, type, ops, ordered, nonempty⟩ := p
  obtain ⟨name', type', ops', ordered', nonempty'⟩ := q
  obtain rfl : name = name' := hp.name_eq.trans hq.name_eq.symm
  obtain rfl : type = type' := hp.type_eq.trans hq.type_eq.symm
  obtain rfl : ops = ops' := Operator.eq_of_mem_iff ordered ordered' fun _ =>
    hp.mem_operators_iff.trans hq.mem_operators_iff.symm
  rfl

namespace Property

theorem listed_operators (p : Property) : Operator.Listed p.operators where
  ascending := Operator.ascending_all.sublist p.ordered
  nodup := p.ordered.nodup (by decide)
  ne_nil := p.nonempty

theorem declares_of_declare {name : String} {c : PropertyConfig} {p : Property}
    (h : declare name c.type c.operators = .ok p) : c.Declares name p := by
  obtain ⟨type, ops⟩ := c
  cases ops with
  | none =>
      obtain rfl := Except.ok.inj h
      exact ⟨rfl, rfl, Operator.mem_sort⟩
  | some ops =>
      rw [declare, create] at h
      split at h
      · cases h
      · obtain rfl := Except.ok.inj h
        exact ⟨rfl, rfl, Operator.mem_sort⟩

theorem declare_eq_ok {name : String} {c : PropertyConfig} {p : Property} :
    declare name c.type c.operators = .ok p ↔ ¬ c.ListsNone ∧ c.Declares name p := by
  constructor
  · intro h
    exact ⟨exists_declare_eq_ok.mp ⟨p, h⟩, declares_of_declare h⟩
  · rintro ⟨hlists, hp⟩
    obtain ⟨q, hq⟩ := exists_declare_eq_ok.mpr hlists
    rw [hq, (declares_of_declare hq).unique hp]

end Property

namespace Registry

variable {name : String}

/-- What the views of a registry tell, each by the others. -/
structure Consistent (r : Registry) : Prop where
  ascending_names : r.names.Pairwise (· < ·)
  size_eq : r.size = r.names.length
  isEmpty_iff : r.isEmpty = true ↔ r.names = []
  contains_iff {name : String} : r.contains name = true ↔ name ∈ r.names
  exists_get?_iff {name : String} : (∃ p, r.get? name = some p) ↔ name ∈ r.names
  require_iff {name : String} {p : Property} : r.require name = .ok p ↔ r.get? name = some p
  name_eq {name : String} {p : Property} (h : r.get? name = some p) : p.name = name
  listed {name : String} {p : Property} (h : r.get? name = some p) : Operator.Listed p.operators

theorem consistent (r : Registry) : r.Consistent where
  ascending_names := r.properties.ascending_keys
  size_eq := (List.length_map _).symm
  isEmpty_iff := by
    rw [isEmpty, KeyMap.isEmpty, List.isEmpty_iff]
    exact List.map_eq_nil_iff.symm
  contains_iff := KeyMap.mem_keys.symm
  exists_get?_iff := Option.isSome_iff_exists.symm.trans KeyMap.mem_keys.symm
  require_iff := require_eq_ok
  name_eq h := r.named _ (KeyMap.get?_eq_some_iff.mp h)
  listed {_ p} _ := p.listed_operators

theorem properties_ofList (ps : List Property) :
    (ofList ps).properties = KeyMap.ofList (ps.map fun p => (p.name, p)) := by
  rw [KeyMap.ofList, List.foldl_map]
  exact (List.foldl_hom properties fun _ _ => rfl).symm

/-- A registry made of a list has the last property of each name. -/
theorem get?_ofList (ps : List Property) (name : String) :
    (ofList ps).get? name = ps.reverse.find? (·.name = name) := by
  rw [get?, properties_ofList, KeyMap.get?_ofList, lastUnder, ← List.map_reverse]
  induction ps.reverse with
  | nil => rfl
  | cons p ps ih =>
      rw [List.map_cons, List.lookup_cons, List.find?_cons, ih]
      by_cases h : p.name = name
      · rw [beq_iff_eq.mpr h.symm, decide_eq_true h]
      · rw [beq_eq_false_iff_ne.mpr (Ne.symm h), decide_eq_false h]

theorem ofConfig_eq_ok {config : KeyMap PropertyConfig} {r : Registry} :
    ofConfig config = .ok r ↔
      ∃ ps, config.entries.mapM declareEntry = .ok ps ∧ r = ofList ps := by
  rw [ofConfig, declareAll_eq_mapM]
  cases config.entries.mapM declareEntry <;> simp [eq_comm]

/-- A registry that a configuration describes has, under each name, what is declared there. -/
theorem rel_get?_of_ofConfig {config : KeyMap PropertyConfig} {r : Registry}
    (h : ofConfig config = .ok r) (name : String) :
    Option.Rel (fun c p => c.Declares name p) (config.get? name) (r.get? name) := by
  obtain ⟨ps, hps, rfl⟩ := ofConfig_eq_ok.mp h
  have hkept (entry : String × PropertyConfig) (p : Property) (hp : declareEntry entry = .ok p) :
      p.name = entry.1 := (Property.declares_of_declare hp).name_eq
  have hget {p : Property} : (ofList ps).get? name = some p ↔
      ∃ c, config.get? name = some c ∧ declareEntry (name, c) = .ok p := by
    rw [get?, properties_ofList, KeyMap.get?_ofList, KeyMap.lastUnder_of_mapM hps hkept]
    simp
  cases hc : config.get? name with
  | none =>
      have hnone : (ofList ps).get? name = none := by
        rw [Option.eq_none_iff_forall_ne_some]
        intro p hp
        obtain ⟨c, hc', -⟩ := hget.mp hp
        rw [hc] at hc'
        cases hc'
      rw [hnone]
      exact .none
  | some c =>
      obtain ⟨p, -, hp⟩ := Outcome.exists_of_mapM hps (KeyMap.get?_eq_some_iff.mp hc)
      rw [hget.mpr ⟨c, hc, hp⟩]
      exact .some (Property.declares_of_declare hp)

/-- A configuration describes a registry unless it lists no operators for some property. -/
theorem exists_ofConfig_eq_ok {config : KeyMap PropertyConfig} :
    (∃ r, ofConfig config = .ok r) ↔ ∀ name c, config.get? name = some c → ¬ c.ListsNone := by
  have hentries : (∃ r, ofConfig config = .ok r) ↔
      ∃ ps, config.entries.mapM declareEntry = .ok ps := by
    simp only [ofConfig_eq_ok]
    constructor
    · rintro ⟨r, ps, hps, -⟩
      exact ⟨ps, hps⟩
    · rintro ⟨ps, hps⟩
      exact ⟨_, ps, hps, rfl⟩
  rw [hentries, Outcome.exists_mapM_eq_ok, Prod.forall]
  simp only [KeyMap.get?_eq_some_iff, declareEntry, Property.exists_declare_eq_ok]
  rfl

theorem load_of_parse {report : ConfigReport} {text : String} {config : KeyMap PropertyConfig}
    (h : PropertyConfig.parse text = .ok config) : load report text = ofConfig config := by
  rw [load, h]
  rfl

/-- What registries hold that are made of a list of properties, what properties are made with listed
operators, and which registries are loaded from configurations. -/
theorem contents_decided :
    (∀ ps : List Property, (ofList ps).Consistent ∧
      ∀ name, (ofList ps).get? name = ps.reverse.find? (·.name = name)) ∧
    (∀ name type ops,
      (∀ e, Property.create name type ops = .error e ↔
        ops = [] ∧ e = .emptyOperatorSet name) ∧
      ∀ p, Property.create name type ops = .ok p ↔
        ops ≠ [] ∧ (PropertyConfig.mk type (some ops)).Declares name p ∧
          Operator.Listed p.operators) ∧
    ∀ report text config, PropertyConfig.parse text = .ok config →
      (∀ e, load report text = .error e ↔ ∃ name c, config.get? name = some c ∧ c.ListsNone ∧
        (∀ name' c', name' < name → config.get? name' = some c' → ¬ c'.ListsNone) ∧
        e = .emptyOperatorSet name) ∧
      ((∃ r, load report text = .ok r) ↔ ∀ name c, config.get? name = some c → ¬ c.ListsNone) ∧
      ∀ r, load report text = .ok r → r.Consistent ∧
        ∀ name, Option.Rel (fun c p => c.Declares name p) (config.get? name) (r.get? name) := by
  refine ⟨fun ps => ⟨(ofList ps).consistent, get?_ofList ps⟩, fun name type ops => ⟨fun e => ?_,
    fun p => ?_⟩, fun report text config h => ?_⟩
  · have hlisted : Property.create name type ops = Property.declare name type (some ops) := rfl
    rw [hlisted, Property.declare_eq_error, Option.some.injEq]
  · have hlisted : Property.create name type ops = Property.declare name type (some ops) := rfl
    rw [hlisted, Property.declare_eq_ok (c := ⟨type, some ops⟩), PropertyConfig.ListsNone,
      Option.some.injEq, and_iff_left p.listed_operators]
  · rw [load_of_parse h]
    exact ⟨fun e => ofConfig_eq_error, exists_ofConfig_eq_ok,
      fun r hr => ⟨r.consistent, rel_get?_of_ofConfig hr⟩⟩

/-- A configuration with repeated and with default operators, and one with two empty lists. -/
theorem contents_of_configurations :
    let report : ConfigReport := fun _ fault => fault.message
    let people := "[properties.name]\ntype = \"text\"\n" ++
      "operators = [\"like\", \"EQ\", \"LIKE\"]\n[properties.age]\ntype = \"integer\"\n"
    let faulty := "[properties.b]\ntype = \"text\"\noperators = []\n" ++
      "[properties.a]\ntype = \"text\"\noperators = []\n"
    (∃ r p q, load report people = .ok r ∧ r.get? "name" = some p ∧ p.operators = [.equals, .like] ∧
      r.get? "age" = some q ∧ q.operators = Operator.sort Operator.numeric) ∧
    load report faulty = .error (.emptyOperatorSet "a") := by
  intro report people faulty
  obtain ⟨config, hconfig, hentries⟩ := Outcome.map_eq_ok.mp
    (show (PropertyConfig.parse people).map KeyMap.entries =
        .ok [("age", ⟨.integer, none⟩), ("name", ⟨.text, some [.like, .equals, .like]⟩)] by
      decide +kernel)
  obtain ⟨config', hconfig', hentries'⟩ := Outcome.map_eq_ok.mp
    (show (PropertyConfig.parse faulty).map KeyMap.entries =
        .ok [("a", ⟨.text, some []⟩), ("b", ⟨.text, some []⟩)] by
      decide +kernel)
  constructor
  · obtain ⟨-, hloads, hholds⟩ := contents_decided.2.2 report people config hconfig
    obtain ⟨r, hr⟩ := hloads.mpr fun name c hc => by
      rw [KeyMap.get?_eq_some_iff, hentries] at hc
      simp only [List.mem_cons, Prod.mk.injEq, List.not_mem_nil, or_false] at hc
      rcases hc with ⟨-, rfl⟩ | ⟨-, rfl⟩ <;> simp [PropertyConfig.ListsNone]
    obtain ⟨-, hdeclares⟩ := hholds r hr
    have hname : config.get? "name" = some ⟨.text, some [.like, .equals, .like]⟩ :=
      KeyMap.get?_eq_some_iff.mpr (by rw [hentries]; simp)
    have hage : config.get? "age" = some ⟨.integer, none⟩ :=
      KeyMap.get?_eq_some_iff.mpr (by rw [hentries]; simp)
    have hp := hname ▸ hdeclares "name"
    have hq := hage ▸ hdeclares "age"
    generalize hfound : r.get? "name" = found at hp
    generalize hfound' : r.get? "age" = found' at hq
    cases hp with
    | some hp =>
        cases hq with
        | some hq =>
            refine ⟨r, _, _, hr, hfound, ?_, hfound', ?_⟩
            · refine Operator.eq_of_mem_iff (Property.ordered _) (by decide) fun op => ?_
              rw [hp.mem_operators_iff]
              cases op <;> decide
            · refine Operator.eq_of_mem_iff (Property.ordered _) (Operator.sort_sublist _)
                fun op => ?_
              rw [hq.mem_operators_iff, Operator.mem_sort]
              rfl
  · obtain ⟨hfails, -⟩ := contents_decided.2.2 report faulty config' hconfig'
    refine (hfails _).mpr ⟨"a", ⟨.text, some []⟩, ?_, rfl, fun name c hlt hc => ?_, rfl⟩
    · rw [KeyMap.get?_eq_some_iff, hentries']
      exact List.mem_cons_self ..
    · rw [KeyMap.get?_eq_some_iff, hentries'] at hc
      simp only [List.mem_cons, Prod.mk.injEq, List.not_mem_nil, or_false] at hc
      rcases hc with ⟨rfl, -⟩ | ⟨rfl, -⟩
      · exact absurd hlt (by decide)
      · exact absurd hlt (by decide)

end Registry

end FilterLogic
