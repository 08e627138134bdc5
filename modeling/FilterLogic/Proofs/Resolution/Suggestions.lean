import FilterLogic.Proofs.KeyMap
import FilterLogic.Proofs.Resolution.Lookup
import FilterLogic.Proofs.Text.Suggestion

/-!
# Suggestions for unknown properties and keys

A name that a registry does not know and a key that a context does not have are refused with a
suggestion. A registry offers its names in ascending order, so the choice among equally close names
is fixed; a context offers its keys in any order, which decides among equally close keys only.
-/

namespace FilterLogic

open Text

namespace Registry

variable {registry : Registry} {name : String}

theorem not_mem_names (h : registry.contains name = false) : name ∉ registry.names := by
  intro hmem
  have hcontains : registry.contains name = true := KeyMap.mem_keys.mp hmem
  rw [h] at hcontains
  cases hcontains

/-- A name that is not known is refused with what is suggested from the names. -/
theorem require_of_not_contains (h : registry.contains name = false) :
    registry.require name = .error (.unknownProperty name (suggest? name registry.names)) :=
  require_eq_error.mpr ⟨Option.isNone_iff_eq_none.mp (Option.isSome_eq_false_iff.mp h), rfl⟩

theorem exists_require_eq_ok (h : name ∈ registry.names) : ∃ p, registry.require name = .ok p := by
  obtain ⟨p, hp⟩ := Option.isSome_iff_exists.mp (KeyMap.mem_keys.mp h)
  exact ⟨p, require_eq_ok.mpr hp⟩

end Registry

namespace Context

variable {C : Type} {ctx : Context C} {key : String}

/-- An absent key is refused with what is suggested from the keys visited. -/
theorem resolveVisiting_of_not_contains (h : KeyMap.contains ctx key = false)
    (visited : List String) :
    ctx.resolveVisiting visited key = .error (.unknownFilterKey key (suggest? key visited)) := by
  rw [resolveVisiting, Option.isNone_iff_eq_none.mp (Option.isSome_eq_false_iff.mp h)]

/-- What is suggested for an absent key, in whatever order the keys are visited. -/
theorem suggests_of_perm (h : KeyMap.contains ctx key = false) {visited : List String}
    (hperm : visited.Perm ctx.keys) : Suggests key ctx.keys (suggest? key visited) := by
  have hkey : key ∉ visited := by
    intro hmem
    have hcontains := KeyMap.mem_keys.mp (hperm.mem_iff.mp hmem)
    rw [h] at hcontains
    cases hcontains
  exact (suggests hkey).of_perm hperm

end Context

/-- The distance of two names is the least number of edits between their lower-case forms. An
unknown property is refused with the least of the closest names, if they are close enough, and an
absent key with a closest one, which does not depend on the order of the keys if it is the only
one. -/
theorem suggestions_decided :
    (∀ a b : String,
      IsLeast {n | Edits n (lower a).toList (lower b).toList} (nameDistance a b)) ∧
    (∀ (registry : Registry) (name : String), registry.contains name = false →
      ∃ suggestion, registry.require name = .error (.unknownProperty name suggestion) ∧
        Suggests name registry.names suggestion ∧
        ∀ s, suggestion = some s → (∃ p, registry.require s = .ok p) ∧
          ∀ other ∈ registry.names, other ≠ "" →
            nameDistance name other = nameDistance name s → s ≤ other) ∧
    ∀ {C : Type} (ctx : Context C) (key : String), KeyMap.contains ctx key = false →
      ∀ visited, visited.Perm ctx.keys →
        ∃ suggestion,
          ctx.resolveVisiting visited key = .error (.unknownFilterKey key suggestion) ∧
          Suggests key ctx.keys suggestion ∧
          ∀ best ∈ ctx.keys, best ≠ "" → nameDistance key best ≤ 3 →
            (∀ other ∈ ctx.keys, other ≠ "" → other ≠ best →
              nameDistance key best < nameDistance key other) → suggestion = some best := by
  refine ⟨fun a b => isLeast_editDistance _ _, fun registry name h => ?_,
    fun ctx key h visited hperm => ?_⟩
  · have hsuggests := suggests (registry.not_mem_names h)
    refine ⟨_, registry.require_of_not_contains h, hsuggests, fun s hs => ⟨?_, ?_⟩⟩
    · exact registry.exists_require_eq_ok (hsuggests.mem hs)
    · intro other hother hne hsame
      exact suggest?_le_of_ascending registry.properties.ascending_keys hs hother hne hsame
  · have hsuggests := Context.suggests_of_perm h hperm
    exact ⟨_, Context.resolveVisiting_of_not_contains h visited, hsuggests,
      fun best hbest hne hlimit hunique =>
        hsuggests.eq_some_of_unique hbest hne hlimit hunique⟩

/-- A misspelt name and a misspelt key, where two keys are visited in descending order. -/
theorem suggestions_of_misspelt :
    let registry := Registry.ofList
      [.withDefaults "status" .text, .withDefaults "age" .integer]
    let ctx : Context Bool := KeyMap.ofList [("near", true), ("nearest", false)]
    registry.contains "stauts" = false ∧ KeyMap.contains ctx "naer" = false ∧
      ["nearest", "near"].Perm ctx.keys ∧
      (∃ s p, registry.require "stauts" = .error (.unknownProperty "stauts" (some s)) ∧
        registry.require s = .ok p) ∧
      ctx.resolveVisiting ["nearest", "near"] "naer" =
        .error (.unknownFilterKey "naer" (some "near")) := by
  intro registry ctx
  have hname : registry.contains "stauts" = false := by decide +kernel
  have hkey : KeyMap.contains ctx "naer" = false := by decide +kernel
  have hperm : ["nearest", "near"].Perm ctx.keys := by decide +kernel
  refine ⟨hname, hkey, hperm, ?_, ?_⟩
  · obtain ⟨suggestion, hrequire, hsuggests, hknown⟩ :=
      suggestions_decided.2.1 registry "stauts" hname
    obtain ⟨s, rfl⟩ := Option.isSome_iff_exists.mp (hsuggests.isSome_iff.mpr
      ⟨"status", by decide +kernel, by decide, by decide +kernel⟩)
    obtain ⟨⟨p, hp⟩, -⟩ := hknown s rfl
    exact ⟨s, p, hrequire, hp⟩
  · obtain ⟨suggestion, hresolve, -, hunique⟩ :=
      suggestions_decided.2.2 ctx "naer" hkey ["nearest", "near"] hperm
    rw [hresolve, hunique "near" (by decide +kernel) (by decide) (by decide +kernel)
      (by decide +kernel)]

end FilterLogic
