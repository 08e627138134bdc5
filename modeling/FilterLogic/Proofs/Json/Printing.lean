import FilterLogic.Json.Printer

/-!
# JSON text has no control characters

Whatever strings a value holds, its compact text is one line in which nothing can be taken for a
command of a terminal: control characters are escaped, and all that is written around strings are
brackets, digits and other visible characters.
-/

namespace FilterLogic.Json

/-- Text without control characters. -/
def ControlFree (text : List Char) : Prop := ∀ c ∈ text, 0x20 ≤ c.toNat

section ControlFree

variable {c : Char} {text left right : List Char}

@[simp]
theorem controlFree_nil : ControlFree [] := by simp [ControlFree]

@[simp]
theorem controlFree_cons : ControlFree (c :: text) ↔ 0x20 ≤ c.toNat ∧ ControlFree text := by
  simp [ControlFree]

@[simp]
theorem controlFree_append :
    ControlFree (left ++ right) ↔ ControlFree left ∧ ControlFree right := by
  simp [ControlFree, or_imp, forall_and]

theorem ControlFree.sublist (h : ControlFree right) (hsub : left.Sublist right) :
    ControlFree left := fun c hc => h c (hsub.subset hc)

theorem controlFree_replicate (n : Nat) (hc : 0x20 ≤ c.toNat) :
    ControlFree (List.replicate n c) := by
  intro d hd
  rwa [List.eq_of_mem_replicate hd]

theorem controlFree_joinChars {separator : List Char} {parts : List (List Char)}
    (hseparator : ControlFree separator) (h : ∀ part ∈ parts, ControlFree part) :
    ControlFree (joinChars separator parts) := by
  induction parts using joinChars.induct with
  | case1 => exact controlFree_nil
  | case2 part => exact h part List.mem_cons_self
  | case3 part parts hparts ih =>
      rw [joinChars.eq_3 _ _ _ hparts]
      simp only [controlFree_append]
      exact ⟨⟨h part List.mem_cons_self, hseparator⟩,
        ih fun other hother => h other (List.mem_cons_of_mem part hother)⟩

theorem controlFree_comma : ControlFree [','] := by simp

end ControlFree

theorem controlFree_toDigits (n : Nat) : ControlFree (Nat.toDigits 10 n) := by
  intro c hc
  have hdigit := Nat.isDigit_of_mem_toDigits (by decide) (by decide) hc
  have hlow : '0' ≤ c := by
    simp only [Char.isDigit, Bool.and_eq_true, decide_eq_true_eq] at hdigit
    exact hdigit.1
  exact Nat.le_trans (by decide : 0x20 ≤ '0'.toNat) hlow

section DoubleLayout

variable {layout : DoubleLayout} (hmark : 0x20 ≤ layout.mark.toNat)
include hmark

theorem controlFree_power (exponent : Int) : ControlFree (layout.power exponent) := by
  simp only [DoubleLayout.power]
  split
  · simp [hmark, controlFree_toDigits]
  · split <;> simp [hmark, controlFree_toDigits]

theorem controlFree_magnitude (d : Decimal) : ControlFree (layout.magnitude d) := by
  have hdigits := controlFree_toDigits d.digits
  have hzeros (n : Nat) : ControlFree (List.replicate n '0') := controlFree_replicate n (by decide)
  have hfront (n : Nat) := hdigits.sublist (List.take_sublist n _)
  have hback (n : Nat) := hdigits.sublist (List.drop_sublist n _)
  have htail := hdigits.sublist (List.tail_sublist _)
  simp only [DoubleLayout.magnitude]
  split
  · split
    · simp [hzeros, hdigits]
    · split <;> simp [hzeros, hfront, hback]
  · split <;> simp [hfront, htail, controlFree_power hmark]

end DoubleLayout

theorem Number.controlFree_render (n : Number) : ControlFree n.render := by
  cases n with
  | integer n =>
      simp only [render]
      split <;> simp [controlFree_toDigits]
  | double x =>
      have hmagnitude := controlFree_magnitude (by decide : 0x20 ≤ layout.mark.toNat) x.shortest
      simp only [render, DoubleLayout.render]
      split <;> simp [hmagnitude]

/-- Control characters are escaped. -/
theorem controlFree_escapeChar (c : Char) : ControlFree (escapeChar c) := by
  have hhex : ∀ n < 16, 0x20 ≤ (Nat.digitChar n).toNat := by decide
  have hdigit (n : Nat) : 0x20 ≤ (hexDigit n).toNat := hhex _ (Nat.mod_lt n (by decide))
  unfold escapeChar
  split
  case h_8 =>
    split
    · simp [hdigit]
    · rename_i hvisible
      simpa using hvisible
  all_goals simp

theorem controlFree_quote (s : String) : ControlFree (quote s) := by
  have hinside : ControlFree (s.toList.flatMap escapeChar) := by
    intro c hc
    obtain ⟨source, -, hmem⟩ := List.mem_flatMap.mp hc
    exact controlFree_escapeChar source c hmem
  simp [quote, hinside]

namespace Value

mutual

/-- The compact text of a value has no control characters. -/
theorem controlFree_compactChars : (v : Value) → ControlFree v.compactChars
  | .null => by simp [compactChars]
  | .bool true => by simp [compactChars]
  | .bool false => by simp [compactChars]
  | .number n => n.controlFree_render
  | .text s => controlFree_quote s
  | .array items => by
      have hitems := controlFree_joinChars controlFree_comma (controlFree_of_mem_compactItems items)
      simp [compactChars, hitems]
  | .object fields => by
      have hfields :=
        controlFree_joinChars controlFree_comma (controlFree_of_mem_compactFields fields)
      simp [compactChars, hfields]

theorem controlFree_of_mem_compactItems :
    (items : List Value) → ∀ part ∈ compactItems items, ControlFree part
  | [], _, h => by cases h
  | item :: items, part, h => by
      rcases List.mem_cons.mp h with rfl | h
      · exact controlFree_compactChars item
      · exact controlFree_of_mem_compactItems items part h

theorem controlFree_of_mem_compactFields :
    (fields : List (String × Value)) → ∀ part ∈ compactFields fields, ControlFree part
  | [], _, h => by cases h
  | (name, value) :: fields, part, h => by
      rcases List.mem_cons.mp h with rfl | h
      · simp [controlFree_quote, controlFree_compactChars value]
      · exact controlFree_of_mem_compactFields fields part h

end

end Value

end FilterLogic.Json
