import FilterLogic.Expr.Parser
import FilterLogic.Proofs.Expr.Grammar
import FilterLogic.Proofs.Outcome

/-!
# Tokens and what the scan finds

A text has tokens exactly if it is not blank and its scan finds nothing else. Every identifier among
the tokens is a run of letters, digits and underscores.
-/

namespace FilterLogic.Expr

/-- All tokens are collected exactly if there is no refused character among the finds. -/
theorem collect_eq_ok {found : List Lexeme} {tokens : List Token} :
    collect found = .ok tokens ↔ found = tokens.map Lexeme.token := by
  induction found generalizing tokens with
  | nil =>
      cases tokens with
      | nil => exact iff_of_true rfl rfl
      | cons t ts => exact iff_of_false (fun h => nomatch h) (fun h => nomatch h)
  | cons head rest ih =>
      cases head with
      | invalid c position =>
          constructor
          · intro h
            cases h
          · intro h
            obtain ⟨token, _, _, htoken, _⟩ := List.map_eq_cons_iff.mp h.symm
            cases htoken
      | token t =>
          rw [collect, Outcome.bind_eq_ok]
          constructor
          · rintro ⟨ts, hts, ht⟩
            cases ht
            rw [ih.mp hts, List.map_cons]
          · intro h
            obtain ⟨token, ts, rfl, htoken, hts⟩ := List.map_eq_cons_iff.mp h.symm
            cases htoken
            exact ⟨ts, ih.mpr hts.symm, rfl⟩

/-- Collecting stops at the first character that is refused. -/
theorem collect_eq_error {found : List Lexeme} {e : SyntaxError} :
    collect found = .error e ↔
      ∃ (before : List Token) (c : Char) (position : Nat) (after : List Lexeme),
        found = before.map Lexeme.token ++ .invalid c position :: after ∧
          e = .invalidCharacter c position := by
  induction found with
  | nil => simp [collect]
  | cons head rest ih =>
      cases head with
      | invalid c position =>
          constructor
          · intro h
            cases h
            exact ⟨[], c, position, rest, rfl, rfl⟩
          · rintro ⟨before, d, position', after, hfound, rfl⟩
            cases before with
            | nil =>
                cases hfound
                rfl
            | cons t before => cases hfound
      | token t =>
          have hrest : collect (.token t :: rest) = .error e ↔ collect rest = .error e :=
            Outcome.bind_ok_eq_error
          rw [hrest, ih]
          constructor
          · rintro ⟨before, c, position, after, rfl, he⟩
            exact ⟨t :: before, c, position, after, rfl, he⟩
          · rintro ⟨before, c, position, after, hfound, he⟩
            cases before with
            | nil => cases hfound
            | cons t' before => exact ⟨before, c, position, after, (List.cons.inj hfound).2, he⟩

theorem tokenize_eq_ok {text : String} {tokens : List Token} :
    tokenize text = .ok tokens ↔
      ¬ text.toList.all Text.isBlank = true ∧ lexemes text = tokens.map Lexeme.token := by
  rw [tokenize]
  by_cases hblank : text.toList.all Text.isBlank = true
  · rw [if_pos hblank]
    simp [hblank]
  · rw [if_neg hblank, collect_eq_ok]
    simp [hblank]

theorem parse_of_tokenize {text : String} {tokens : List Token} (h : tokenize text = .ok tokens) :
    parse text = Tree.ofTokens tokens := by
  rw [parse, h, Outcome.ok_bind]

/-- A run of characters of an identifier, as a scan takes it from the front of a text. -/
theorem isName_takeWhile {c : Char} (hc : isWordChar c = true) (rest : List Char) :
    IsName (String.ofList (c :: rest.takeWhile isWordChar)) := by
  refine ⟨by simp, fun d hd => ?_⟩
  rw [String.toList_ofList] at hd
  rcases List.mem_cons.mp hd with rfl | hd
  · exact hc
  · exact List.all_eq_true.mp List.all_takeWhile d hd

/-- An identifier that the scan finds is a maximal run of characters that may stand in one. -/
theorem isName_of_mem_scan {position start : Nat} {cs : List Char} {name : String}
    (h : Lexeme.token ⟨.identifier name, start⟩ ∈ scan position cs) : IsName name := by
  fun_induction scan position cs with
  | case1 => simp at h
  | case2 position c rest hlayout ih => exact ih h
  | case3 position c rest hlayout hword tail ih =>
      rcases List.mem_cons.mp h with h | h
      · obtain rfl : name = String.ofList (c :: tail) := by
          injection h with h
          injection h with h
          injection h
        exact isName_takeWhile hword rest
      · exact ih h
  | case4 position c rest hlayout hword word hof ih =>
      rcases List.mem_cons.mp h with h | h
      · obtain rfl : .identifier name = word := by
          injection h with h
          injection h
        exact absurd hof (by unfold Word.ofChar?; split <;> simp)
      · exact ih h
  | case5 position c rest hlayout hword hof ih =>
      rcases List.mem_cons.mp h with h | h
      · cases h
      · exact ih h

/-- The identifiers among the tokens of a scan can stand as such. -/
theorem isName_of_scan {position : Nat} {cs : List Char} {tokens : List Token}
    (h : scan position cs = tokens.map Lexeme.token) {name : String}
    (hname : .identifier name ∈ tokens.map Token.word) : IsName name := by
  obtain ⟨⟨word, start⟩, ht, hword⟩ := List.mem_map.mp hname
  obtain rfl : word = .identifier name := hword
  have hmem : Lexeme.token ⟨.identifier name, start⟩ ∈ scan position cs := by
    rw [h]
    exact List.mem_map_of_mem ht
  exact isName_of_mem_scan hmem

theorem isName_of_tokenize {text : String} {tokens : List Token} (h : tokenize text = .ok tokens)
    {name : String} (hname : .identifier name ∈ tokens.map Token.word) : IsName name :=
  isName_of_scan (tokenize_eq_ok.mp h).2 hname

end FilterLogic.Expr
