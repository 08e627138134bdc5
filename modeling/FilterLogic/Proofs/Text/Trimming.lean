import FilterLogic.Text.Blank

/-!
# What is left of a text without blanks at its ends

Trimming is told by its result: the text is the result between blanks, and the result has no blank
at either end. There is only one such part of a text, and nothing is left to trim of it.
-/

namespace FilterLogic.Text

/-- Whether a part of a text is what lies between the blanks at its ends. -/
structure TrimsTo (text core : String) : Prop where
  between : ∃ left right : List Char, text.toList = left ++ core.toList ++ right ∧
    (∀ c ∈ left, isBlank c = true) ∧ ∀ c ∈ right, isBlank c = true
  first : ∀ c ∈ core.toList.head?, isBlank c = false
  last : ∀ c ∈ core.toList.getLast?, isBlank c = false

section Ends

variable {left core right : List Char}

theorem dropWhile_isBlank (hleft : ∀ c ∈ left, isBlank c = true)
    (hfirst : ∀ c ∈ core.head?, isBlank c = false) :
    (left ++ core).dropWhile isBlank = core := by
  rw [List.dropWhile_append_of_pos hleft]
  cases core with
  | nil => rfl
  | cons c core => exact List.dropWhile_cons_of_neg (by rw [hfirst c rfl]; decide)

theorem head?_dropWhile_isBlank (cs : List Char) :
    ∀ c ∈ (cs.dropWhile isBlank).head?, isBlank c = false := by
  intro c hc
  have h := List.head?_dropWhile_not isBlank cs
  rw [Option.mem_def.mp hc] at h
  exact h

theorem trimChars_between (hleft : ∀ c ∈ left, isBlank c = true)
    (hright : ∀ c ∈ right, isBlank c = true) (hfirst : ∀ c ∈ core.head?, isBlank c = false)
    (hlast : ∀ c ∈ core.getLast?, isBlank c = false) :
    trimChars (left ++ core ++ right) = core := by
  cases core with
  | nil =>
      -- nothing stops the first pass, which drops the blanks of both ends
      have hblank : ∀ c ∈ left ++ right, isBlank c = true := fun c hc =>
        (List.mem_append.mp hc).elim (hleft c) (hright c)
      have hnil : (left ++ right).dropWhile isBlank = [] := by
        rw [← List.append_nil (left ++ right)]
        exact dropWhile_isBlank hblank hfirst
      rw [List.append_nil, trimChars, hnil]
      rfl
  | cons c core =>
      have hdrop : (left ++ (c :: core) ++ right).dropWhile isBlank = c :: core ++ right := by
        rw [List.append_assoc]
        exact dropWhile_isBlank hleft hfirst
      rw [trimChars, hdrop, List.reverse_append,
        dropWhile_isBlank (fun d hd => hright d (List.mem_reverse.mp hd))
          (by rwa [List.head?_reverse]),
        List.reverse_reverse]

/-- A text is what trimming leaves of it between blanks. -/
theorem exists_eq_trimChars (cs : List Char) :
    ∃ left right, cs = left ++ trimChars cs ++ right ∧
      (∀ c ∈ left, isBlank c = true) ∧ ∀ c ∈ right, isBlank c = true := by
  refine ⟨cs.takeWhile isBlank, ((cs.dropWhile isBlank).reverse.takeWhile isBlank).reverse, ?_,
    fun c hc => ?_, fun c hc => ?_⟩
  · rw [List.append_assoc, trimChars, ← List.reverse_append, List.takeWhile_append_dropWhile,
      List.reverse_reverse, List.takeWhile_append_dropWhile]
  · exact (List.all_eq_true.mp (List.all_takeWhile ..)) c hc
  · exact (List.all_eq_true.mp (List.all_takeWhile ..)) c (List.mem_reverse.mp hc)

theorem head?_trimChars (cs : List Char) :
    ∀ c ∈ (trimChars cs).head?, isBlank c = false := by
  intro c hc
  obtain ⟨rest, hrest⟩ : trimChars cs <+: cs.dropWhile isBlank := by
    rw [trimChars, ← List.reverse_suffix, List.reverse_reverse]
    exact List.dropWhile_suffix isBlank
  apply head?_dropWhile_isBlank cs
  rw [← hrest, List.head?_append, Option.mem_def.mp hc]
  rfl

theorem getLast?_trimChars (cs : List Char) :
    ∀ c ∈ (trimChars cs).getLast?, isBlank c = false := by
  rw [trimChars, List.getLast?_reverse]
  exact head?_dropWhile_isBlank _

end Ends

variable {text core : String}

theorem trim_eq_iff : trim text = core ↔ TrimsTo text core := by
  constructor
  · rintro rfl
    refine ⟨?_, ?_, ?_⟩
    · rw [trim, String.toList_ofList]
      exact exists_eq_trimChars text.toList
    · rw [trim, String.toList_ofList]
      exact head?_trimChars text.toList
    · rw [trim, String.toList_ofList]
      exact getLast?_trimChars text.toList
  · rintro ⟨⟨left, right, htext, hleft, hright⟩, hfirst, hlast⟩
    rw [trim, htext, trimChars_between hleft hright hfirst hlast, String.ofList_toList]

theorem trimsTo_trim (text : String) : TrimsTo text (trim text) := trim_eq_iff.mp rfl

/-- Nothing is left to trim of a text that was trimmed. -/
theorem trim_trim (text : String) : trim (trim text) = trim text :=
  have h := trimsTo_trim text
  trim_eq_iff.mpr ⟨⟨[], [], by simp, by simp, by simp⟩, h.first, h.last⟩

end FilterLogic.Text
