import FilterLogic.Proofs.Text.EditDistance
import Mathlib.Data.List.Induction

/-!
# Which name is suggested

The search keeps the closest of the names seen so far and changes its mind for a strictly closer one
only, so it ends at the first of the closest names. That name is suggested if it is close enough.
The order in which the names are searched decides among equally close ones and nothing else.
-/

namespace FilterLogic.Text

variable {name best : String} {names : List String}

/-- The first of the names that are closest to another. -/
def FirstClosest (name : String) (names : List String) (best : String) : Prop :=
  ∃ before after, names = before ++ best :: after ∧
    (∀ other ∈ before, nameDistance name best < nameDistance name other) ∧
    ∀ other ∈ after, nameDistance name best ≤ nameDistance name other

namespace FirstClosest

theorem mem (h : FirstClosest name names best) : best ∈ names := by
  obtain ⟨before, after, rfl, -, -⟩ := h
  exact List.mem_append_right before (List.mem_cons_self ..)

theorem le (h : FirstClosest name names best) {other : String} (hother : other ∈ names) :
    nameDistance name best ≤ nameDistance name other := by
  obtain ⟨before, after, rfl, hbefore, hafter⟩ := h
  rcases List.mem_append.mp hother with hother | hother
  · exact Nat.le_of_lt (hbefore other hother)
  · rcases List.mem_cons.mp hother with rfl | hother
    · exact Nat.le_refl _
    · exact hafter other hother

/-- Among ascending names the first of the closest is the least of them. -/
theorem le_of_ascending (h : FirstClosest name names best) (hascending : names.Pairwise (· < ·))
    {other : String} (hother : other ∈ names)
    (hsame : nameDistance name other = nameDistance name best) : best ≤ other := by
  obtain ⟨before, after, rfl, hbefore, -⟩ := h
  rcases List.mem_append.mp hother with hother | hother
  · exact absurd hsame.symm (Nat.ne_of_lt (hbefore other hother))
  · obtain ⟨-, htail, -⟩ := List.pairwise_append.mp hascending
    rcases List.mem_cons.mp hother with rfl | hother
    · exact String.le_refl _
    · exact String.not_lt.mp (String.lt_asymm ((List.pairwise_cons.mp htail).1 other hother))

theorem singleton (name best : String) : FirstClosest name [best] best :=
  ⟨[], [], rfl, by simp, by simp⟩

/-- A name that is no closer changes nothing at the end. -/
theorem concat_of_le (h : FirstClosest name names best) {other : String}
    (hle : nameDistance name best ≤ nameDistance name other) :
    FirstClosest name (names ++ [other]) best := by
  obtain ⟨before, after, rfl, hbefore, hafter⟩ := h
  refine ⟨before, after ++ [other], by simp, hbefore, fun c hc => ?_⟩
  rcases List.mem_append.mp hc with hc | hc
  · exact hafter c hc
  · rwa [List.mem_singleton.mp hc]

/-- A name that is strictly closer takes over at the end. -/
theorem concat_of_lt (h : FirstClosest name names best) {other : String}
    (hlt : nameDistance name other < nameDistance name best) :
    FirstClosest name (names ++ [other]) other :=
  ⟨names, [], rfl, fun _ hc => Nat.lt_of_lt_of_le hlt (h.le hc), by simp⟩

end FirstClosest

/-- The search finds the first of the closest names, unless there is no name. -/
theorem exists_closest?_eq_some (name : String) (h : names ≠ []) :
    ∃ best, closest? name names = some (best, nameDistance name best) ∧
      FirstClosest name names best := by
  -- the last name meets what the search has found among those before it
  induction names using List.reverseRecOn with
  | nil => exact absurd rfl h
  | append_singleton names other ih =>
      rw [closest?, List.foldl_append, List.foldl_cons, List.foldl_nil, ← closest?]
      by_cases hnames : names = []
      · subst hnames
        exact ⟨other, rfl, .singleton name other⟩
      · obtain ⟨best, hbest, hfirst⟩ := ih hnames
        rw [hbest]
        by_cases hlt : nameDistance name other < nameDistance name best
        · exact ⟨other, if_pos hlt, hfirst.concat_of_lt hlt⟩
        · exact ⟨best, if_neg hlt, hfirst.concat_of_le (Nat.le_of_not_lt hlt)⟩

/-- What is suggested in place of an unknown name: one of the known names within a distance of
three, if there is any, and none is closer. -/
structure Suggests (name : String) (known : List String) (suggestion : Option String) : Prop where
  isSome_iff : suggestion.isSome = true ↔
    ∃ other ∈ known, other ≠ "" ∧ nameDistance name other ≤ 3
  mem {s : String} (h : suggestion = some s) : s ∈ known
  ne_empty {s : String} (h : suggestion = some s) : s ≠ ""
  ne_name {s : String} (h : suggestion = some s) : s ≠ name
  closest {s : String} (h : suggestion = some s) :
    ∀ other ∈ known, other ≠ "" → nameDistance name s ≤ nameDistance name other

variable {known : List String}

theorem mem_filter_ne_empty {s : String} :
    s ∈ known.filter (· ≠ "") ↔ s ∈ known ∧ s ≠ "" := by
  rw [List.mem_filter, decide_eq_true_iff]

/-- A suggestion is the first of the closest names that are not empty. -/
theorem firstClosest_of_suggest? {s : String} (h : suggest? name known = some s) :
    FirstClosest name (known.filter (· ≠ "")) s ∧ nameDistance name s ≤ suggestionLimit ∧
      s ≠ name := by
  rw [suggest?] at h
  by_cases hnil : known.filter (· ≠ "") = []
  · rw [hnil] at h
    cases h
  · obtain ⟨best, hbest, hfirst⟩ := exists_closest?_eq_some name hnil
    rw [hbest, Option.ite_none_right_eq_some, Bool.and_eq_true, decide_eq_true_iff,
      decide_eq_true_iff] at h
    obtain ⟨⟨hne, hlimit⟩, hs⟩ := h
    cases hs
    exact ⟨hfirst, hlimit, hne⟩

/-- Where a known name is close enough, one is suggested. -/
theorem exists_suggest?_eq_some (hname : name ∉ known) {other : String} (hother : other ∈ known)
    (hne : other ≠ "") (hlimit : nameDistance name other ≤ suggestionLimit) :
    ∃ s, suggest? name known = some s := by
  have hmem : other ∈ known.filter (· ≠ "") := mem_filter_ne_empty.mpr ⟨hother, hne⟩
  obtain ⟨best, hbest, hfirst⟩ := exists_closest?_eq_some name (List.ne_nil_of_mem hmem)
  have hknown : best ∈ known := (mem_filter_ne_empty.mp hfirst.mem).1
  have hclose : nameDistance name best ≤ suggestionLimit := Nat.le_trans (hfirst.le hmem) hlimit
  -- the closest name is known and the name asked for is not, so they differ
  refine ⟨best, ?_⟩
  rw [suggest?, hbest]
  refine if_pos ?_
  rw [Bool.and_eq_true, decide_eq_true_iff, decide_eq_true_iff]
  exact ⟨fun heq => hname (heq ▸ hknown), hclose⟩

/-- What is suggested for a name that is not known. -/
theorem suggests (hname : name ∉ known) : Suggests name known (suggest? name known) where
  isSome_iff := by
    rw [Option.isSome_iff_exists]
    constructor
    · rintro ⟨s, hs⟩
      obtain ⟨hfirst, hlimit, -⟩ := firstClosest_of_suggest? hs
      obtain ⟨hmem, hne⟩ := mem_filter_ne_empty.mp hfirst.mem
      exact ⟨s, hmem, hne, hlimit⟩
    · rintro ⟨other, hother, hne, hlimit⟩
      exact exists_suggest?_eq_some hname hother hne hlimit
  mem h := (mem_filter_ne_empty.mp (firstClosest_of_suggest? h).1.mem).1
  ne_empty h := (mem_filter_ne_empty.mp (firstClosest_of_suggest? h).1.mem).2
  ne_name h := (firstClosest_of_suggest? h).2.2
  closest h other hother hne :=
    (firstClosest_of_suggest? h).1.le (mem_filter_ne_empty.mpr ⟨hother, hne⟩)

/-- Of ascending names the least of the closest is suggested. -/
theorem suggest?_le_of_ascending (hascending : known.Pairwise (· < ·)) {s : String}
    (h : suggest? name known = some s) {other : String} (hother : other ∈ known) (hne : other ≠ "")
    (hsame : nameDistance name other = nameDistance name s) : s ≤ other :=
  (firstClosest_of_suggest? h).1.le_of_ascending (hascending.filter _)
    (mem_filter_ne_empty.mpr ⟨hother, hne⟩) hsame

namespace Suggests

variable {suggestion : Option String}

/-- The order of the known names does not count. -/
theorem of_perm {visited : List String} (h : Suggests name visited suggestion)
    (hperm : visited.Perm known) : Suggests name known suggestion where
  isSome_iff := by
    rw [h.isSome_iff]
    simp only [hperm.mem_iff]
  mem hs := hperm.mem_iff.mp (h.mem hs)
  ne_empty := h.ne_empty
  ne_name := h.ne_name
  closest hs other hother := h.closest hs other (hperm.mem_iff.mpr hother)

/-- A known name that is close enough and closer than all others is the one suggested. -/
theorem eq_some_of_unique (h : Suggests name known suggestion) (hbest : best ∈ known)
    (hne : best ≠ "") (hlimit : nameDistance name best ≤ 3)
    (hunique : ∀ other ∈ known, other ≠ "" → other ≠ best →
      nameDistance name best < nameDistance name other) : suggestion = some best := by
  obtain ⟨s, hs⟩ := Option.isSome_iff_exists.mp (h.isSome_iff.mpr ⟨best, hbest, hne, hlimit⟩)
  have hle : nameDistance name s ≤ nameDistance name best := h.closest hs best hbest hne
  by_cases heq : s = best
  · rw [hs, heq]
  · exact absurd (hunique s (h.mem hs) (h.ne_empty hs) heq) (Nat.not_lt.mpr hle)

end Suggests

end FilterLogic.Text
