import FilterLogic.Proofs.Expr.Lexemes

/-!
# Scanning a text in pieces

What a text is scanned into can be read off its pieces, provided that no identifier runs across the
places where it is cut. A piece makes the same words wherever it stands, and every token that is
found spells out a piece of the text, with the finds before and after it in what remains on either
side.

## Implementation notes

What a text is scanned into depends on the text after it, since an identifier ends only where no
further character of an identifier comes. Words are therefore read off a text with its rest, and
texts are put together from the left.
-/

namespace FilterLogic.Expr

theorem isBlank_of_isWordChar {c : Char} (h : isWordChar c = true) : Text.isBlank c = false := by
  change (decide (c.val ≥ 65 ∧ c.val ≤ 90) || decide (c.val ≥ 97) && decide (c.val ≤ 122) ||
    decide (c.val ≥ 48) && decide (c.val ≤ 57) || c == '_') = true at h
  simp only [Bool.or_eq_true, Bool.and_eq_true, decide_eq_true_eq, beq_iff_eq, ge_iff_le,
    UInt32.le_iff_toNat_le] at h
  rcases h with h | rfl
  · change (65 ≤ c.toNat ∧ c.toNat ≤ 90 ∨ 97 ≤ c.toNat ∧ c.toNat ≤ 122) ∨
      48 ≤ c.toNat ∧ c.toNat ≤ 57 at h
    simp only [Text.isBlank, Bool.or_eq_false_iff, Bool.and_eq_false_iff,
      decide_eq_false_iff_not, beq_eq_false_iff_ne]
    omega
  · decide

theorem isLayout_of_isWordChar {c : Char} (h : isWordChar c = true) : Text.isLayout c = false := by
  cases hlayout : Text.isLayout c with
  | false => rfl
  | true =>
      have hblank := isBlank_of_isWordChar h
      rw [Text.isBlank_of_isLayout hlayout] at hblank
      exact hblank

theorem isWordChar_of_isLayout {c : Char} (h : Text.isLayout c = true) : isWordChar c = false := by
  rw [← Bool.not_eq_true]
  intro hword
  rw [isLayout_of_isWordChar hword] at h
  cases h

theorem scan_nil (position : Nat) : scan position [] = [] := by rw [scan]

theorem scan_layout {c : Char} (h : Text.isLayout c = true) (position : Nat) (rest : List Char) :
    scan position (c :: rest) = scan (position + 1) rest := by
  rw [scan, if_pos h]

/-- A character that is a word of its own stands in no identifier, and it is no layout. -/
theorem isLayout_isWordChar_of_ofChar? {c : Char} {word : Word} (h : Word.ofChar? c = some word) :
    Text.isLayout c = false ∧ isWordChar c = false := by
  unfold Word.ofChar? at h
  split at h
  all_goals first | exact ⟨by decide, by decide⟩ | cases h

/-- What a scan finds at a character that is a word of its own. -/
theorem scan_ofChar {c : Char} {word : Word} (h : Word.ofChar? c = some word) (position : Nat)
    (rest : List Char) :
    scan position (c :: rest) = .token ⟨word, position⟩ :: scan (position + 1) rest := by
  obtain ⟨hlayout, hword⟩ := isLayout_isWordChar_of_ofChar? h
  rw [scan, hlayout, hword, if_neg Bool.false_ne_true, if_neg Bool.false_ne_true, h]

theorem scan_invalid {c : Char} (hlayout : ¬ Text.isLayout c = true) (hword : ¬ isWordChar c = true)
    (h : Word.ofChar? c = none) (position : Nat) (rest : List Char) :
    scan position (c :: rest) = .invalid c position :: scan (position + 1) rest := by
  rw [scan, if_neg hlayout, if_neg hword, h]

/-- What a scan finds at an identifier after which no character of an identifier comes. -/
theorem scan_identifier {name : String} (hname : IsName name) {rest : List Char}
    (hrest : rest.head?.any isWordChar = false) (position : Nat) :
    scan position (name.toList ++ rest) =
      .token ⟨.identifier name, position⟩ :: scan (position + name.toList.length) rest := by
  obtain ⟨hne, hchars⟩ := hname
  cases hlist : name.toList with
  | nil => exact absurd (String.toList_eq_nil_iff.mp hlist) hne
  | cons c cs =>
      rw [hlist] at hchars
      have hc : isWordChar c = true := hchars c List.mem_cons_self
      have hcs : ∀ d ∈ cs, isWordChar d = true := fun d hd => hchars d (List.mem_cons_of_mem c hd)
      have hend : rest.takeWhile isWordChar = [] ∧ rest.dropWhile isWordChar = rest := by
        cases rest with
        | nil => exact ⟨rfl, rfl⟩
        | cons d ds =>
            have hd : isWordChar d = false := hrest
            simp [hd]
      have htail : (cs ++ rest).takeWhile isWordChar = cs := by
        rw [List.takeWhile_append_of_pos hcs, hend.1, List.append_nil]
      have hdrop : (cs ++ rest).dropWhile isWordChar = rest := by
        rw [List.dropWhile_append_of_pos hcs, hend.2]
      have hword : String.ofList (c :: cs) = name := by rw [← hlist, String.ofList_toList]
      rw [List.cons_append, scan, isLayout_of_isWordChar hc, if_neg Bool.false_ne_true, if_pos hc]
      simp only [htail, hdrop, hword, List.length_cons, Nat.add_assoc, Nat.add_comm 1]

/-- The run that begins at a character of an identifier, and the text after it. -/
theorem takeWhile_append_dropWhile_isWordChar (c : Char) (rest : List Char) :
    (String.ofList (c :: rest.takeWhile isWordChar)).toList ++ rest.dropWhile isWordChar =
      c :: rest := by
  rw [String.toList_ofList, List.cons_append, List.takeWhile_append_dropWhile]

theorem head?_dropWhile_isWordChar (cs : List Char) :
    (cs.dropWhile isWordChar).head?.any isWordChar = false := by
  have hhead := List.head?_dropWhile_not isWordChar cs
  cases hdrop : (cs.dropWhile isWordChar).head? with
  | none => rfl
  | some d =>
      rw [hdrop] at hhead
      simpa using hhead

/-- No identifier runs across the place between two texts. -/
def Cut (left right : List Char) : Prop :=
  left.getLast?.any isWordChar = false ∨ right.head?.any isWordChar = false

namespace Cut

theorem of_append {first left right : List Char} (h : Cut (first ++ left) right) :
    Cut left right := by
  rcases h with h | h
  · refine .inl ?_
    rw [List.getLast?_append] at h
    cases hlast : left.getLast? with
    | none => rfl
    | some c => simpa [hlast] using h
  · exact .inr h

theorem of_cons {c : Char} {left right : List Char} (h : Cut (c :: left) right) : Cut left right :=
  of_append (show Cut ([c] ++ left) right from h)

/-- After characters of an identifier a text is cut only where the identifier ends. -/
theorem head? {left right : List Char} (h : Cut left right) (hne : left ≠ [])
    (hleft : ∀ c ∈ left, isWordChar c = true) : right.head?.any isWordChar = false := by
  rcases h with h | h
  · have hlast := List.getLast?_eq_some_getLast hne
    rw [hlast, Option.any_some, hleft _ (List.getLast_mem hne)] at h
    cases h
  · exact h

theorem of_not_isWordChar {c : Char} (hc : isWordChar c = false) (left right : List Char) :
    Cut left (c :: right) :=
  .inr hc

theorem nil_right (left : List Char) : Cut left [] := .inr rfl

end Cut

/-- A text that is cut between its tokens is scanned piece by piece. -/
theorem scan_append {left right : List Char} (h : Cut left right) (position : Nat) :
    scan position (left ++ right) = scan position left ++ scan (position + left.length) right := by
  fun_induction scan position left with
  | case1 position => simp
  | case2 position c rest hlayout ih =>
      rw [List.cons_append, scan_layout hlayout, ih h.of_cons, List.length_cons, Nat.add_assoc,
        Nat.add_comm 1]
  | case3 position c rest hlayout hword tail ih =>
      have hname := isName_takeWhile hword rest
      have hsplit := (takeWhile_append_dropWhile_isWordChar c rest).symm
      have hend : (rest.dropWhile isWordChar ++ right).head?.any isWordChar = false := by
        cases hdrop : rest.dropWhile isWordChar with
        | nil =>
            rw [hdrop, List.append_nil] at hsplit
            rw [hsplit] at h
            exact h.head? (by simp) hname.2
        | cons d ds =>
            have hd := head?_dropWhile_isWordChar rest
            rw [hdrop] at hd
            exact hd
      have hdrop : Cut (rest.dropWhile isWordChar) right := by
        rw [hsplit] at h
        exact h.of_append
      have hlength : (c :: rest).length = tail.length + 1 + (rest.dropWhile isWordChar).length := by
        rw [hsplit, List.length_append, String.toList_ofList, List.length_cons]
      have hnext : position + (String.ofList (c :: tail)).toList.length =
          position + 1 + tail.length := by
        rw [String.toList_ofList, List.length_cons]
        omega
      have hposition : position + 1 + tail.length + (rest.dropWhile isWordChar).length =
          position + (c :: rest).length := by
        omega
      calc
        scan position (c :: rest ++ right) =
            scan position ((String.ofList (c :: tail)).toList ++
              (rest.dropWhile isWordChar ++ right)) := by
          rw [← List.append_assoc, ← hsplit]
        _ = .token ⟨.identifier (String.ofList (c :: tail)), position⟩ ::
            scan (position + 1 + tail.length) (rest.dropWhile isWordChar ++ right) := by
          rw [scan_identifier hname hend, hnext]
        _ = _ := by
          rw [ih hdrop, hposition, List.cons_append]
  | case4 position c rest hlayout hword word hof ih =>
      rw [List.cons_append, scan_ofChar hof, ih h.of_cons, List.length_cons, Nat.add_assoc,
        Nat.add_comm 1, List.cons_append]
  | case5 position c rest hlayout hword hof ih =>
      rw [List.cons_append, scan_invalid hlayout hword hof, ih h.of_cons, List.length_cons,
        Nat.add_assoc, Nat.add_comm 1, List.cons_append]

/-- A text makes the same words wherever its first character stands. -/
theorem scan_words {position : Nat} {cs : List Char} {tokens : List Token}
    (h : scan position cs = tokens.map Lexeme.token) (position' : Nat) :
    ∃ tokens' : List Token, scan position' cs = tokens'.map Lexeme.token ∧
      tokens'.map Token.word = tokens.map Token.word := by
  fun_induction scan position cs generalizing tokens position' with
  | case1 position => exact ⟨[], scan_nil position', by rw [List.map_eq_nil_iff.mp h.symm]⟩
  | case2 position c rest hlayout ih =>
      rw [scan_layout hlayout]
      exact ih h (position' + 1)
  | case3 position c rest hlayout hword tail =>
      rename_i ih
      obtain ⟨t, ts, rfl, ht, hts⟩ := List.map_eq_cons_iff.mp h.symm
      obtain ⟨ts', hscan, hwords⟩ := ih hts.symm (position' + 1 + tail.length)
      cases ht
      refine ⟨⟨.identifier (String.ofList (c :: tail)), position'⟩ :: ts', ?_, ?_⟩
      · rw [scan, if_neg hlayout, if_pos hword]
        simp only [tail, hscan, List.map_cons]
      · rw [List.map_cons, List.map_cons, hwords]
  | case4 position c rest hlayout hword word hof ih =>
      obtain ⟨t, ts, rfl, ht, hts⟩ := List.map_eq_cons_iff.mp h.symm
      obtain ⟨ts', hscan, hwords⟩ := ih hts.symm (position' + 1)
      cases ht
      refine ⟨⟨word, position'⟩ :: ts', ?_, ?_⟩
      · rw [scan_ofChar hof, hscan, List.map_cons]
      · rw [List.map_cons, List.map_cons, hwords]
  | case5 position c rest hlayout hword hof ih =>
      obtain ⟨t, ts, -, ht, -⟩ := List.map_eq_cons_iff.mp h.symm
      cases ht

theorem Word.toList_text_ofChar {c : Char} {word : Word} (h : Word.ofChar? c = some word) :
    word.text.toList = [c] := by
  unfold Word.ofChar? at h
  split at h
  all_goals first | (cases h; rfl) | cases h

theorem Word.not_all_isBlank {w : Word} (hname : ∀ name, w = .identifier name → IsName name) :
    ¬ w.text.toList.all Text.isBlank = true := by
  cases w with
  | identifier name =>
      obtain ⟨hne, hchars⟩ := hname name rfl
      obtain ⟨c, hc⟩ := List.exists_mem_of_ne_nil _ (mt String.toList_eq_nil_iff.mp hne)
      intro hall
      have hblank := List.all_eq_true.mp hall c hc
      rw [isBlank_of_isWordChar (hchars c hc)] at hblank
      cases hblank
  | _ => decide

/-- A token that is found spells out the text at its position, and what is found before and after
it is what a scan finds in the text on either side. -/
theorem scan_split {position : Nat} {cs : List Char} {before after : List Lexeme} {token : Token}
    (h : scan position cs = before ++ .token token :: after) :
    ∃ left right, cs = left ++ (token.word.text.toList ++ right) ∧
      token.position = position + left.length ∧ scan position left = before ∧
      scan (token.position + token.word.text.toList.length) right = after := by
  fun_induction scan position cs generalizing before with
  | case1 => simp at h
  | case2 position c rest hlayout ih =>
      obtain ⟨left, right, rfl, hposition, hbefore, hafter⟩ := ih h
      refine ⟨c :: left, right, rfl, ?_, ?_, hafter⟩
      · rw [hposition, List.length_cons]
        omega
      · rw [scan_layout hlayout, hbefore]
  | case3 position c rest hlayout hword tail =>
      rename_i ih
      have hname := isName_takeWhile hword rest
      have hsplit := (takeWhile_append_dropWhile_isWordChar c rest).symm
      have hnext : (String.ofList (c :: tail)).toList.length = 1 + tail.length := by
        rw [String.toList_ofList, List.length_cons, Nat.add_comm]
      cases before with
      | nil =>
          obtain ⟨htoken, rfl⟩ := List.cons.inj h
          cases htoken
          refine ⟨[], rest.dropWhile isWordChar, hsplit, rfl, scan_nil position, ?_⟩
          rw [Word.text, hnext, Nat.add_assoc]
      | cons found before =>
          obtain ⟨rfl, hfound⟩ := List.cons.inj h
          obtain ⟨left, right, hrest, hposition, hbefore, hafter⟩ := ih hfound
          have hend : left.head?.any isWordChar = false := by
            cases left with
            | nil => rfl
            | cons d ds =>
                have hd := head?_dropWhile_isWordChar rest
                rw [hrest] at hd
                exact hd
          refine ⟨(String.ofList (c :: tail)).toList ++ left, right, ?_, ?_, ?_, hafter⟩
          · rw [hsplit, hrest, List.append_assoc]
          · rw [hposition, List.length_append, hnext]
            omega
          · rw [scan_identifier hname hend, hnext, ← Nat.add_assoc, hbefore]
  | case4 position c rest hlayout hword word hof ih =>
      cases before with
      | nil =>
          obtain ⟨htoken, rfl⟩ := List.cons.inj h
          cases htoken
          exact ⟨[], rest, by rw [Word.toList_text_ofChar hof]; rfl, rfl, scan_nil position,
            by rw [Word.toList_text_ofChar hof, List.length_singleton]⟩
      | cons found before =>
          obtain ⟨rfl, hfound⟩ := List.cons.inj h
          obtain ⟨left, right, rfl, hposition, hbefore, hafter⟩ := ih hfound
          refine ⟨c :: left, right, rfl, ?_, ?_, hafter⟩
          · rw [hposition, List.length_cons]
            omega
          · rw [scan_ofChar hof, hbefore]
  | case5 position c rest hlayout hword hof ih =>
      cases before with
      | nil => cases (List.cons.inj h).1
      | cons found before =>
          obtain ⟨rfl, hfound⟩ := List.cons.inj h
          obtain ⟨left, right, rfl, hposition, hbefore, hafter⟩ := ih hfound
          refine ⟨c :: left, right, rfl, ?_, ?_, hafter⟩
          · rw [hposition, List.length_cons]
            omega
          · rw [scan_invalid hlayout hword hof, hbefore]

/-- Text that a scan reads as certain words, given what comes after it. -/
def Spells (text : List Char) (words : List Word) (rest : List Char) : Prop :=
  ∀ position, ∃ (tokens : List Token) (next : Nat), tokens.map Token.word = words ∧
    scan position (text ++ rest) = tokens.map Lexeme.token ++ scan next rest

namespace Spells

/-- A text that is scanned without a refusal spells its words before any rest from which it is cut.
-/
theorem of_scan {position : Nat} {text rest : List Char} {tokens : List Token}
    (h : scan position text = tokens.map Lexeme.token) (hcut : Cut text rest) :
    Spells text (tokens.map Token.word) rest := by
  intro position'
  obtain ⟨tokens', hscan, hwords⟩ := scan_words h position'
  refine ⟨tokens', position' + text.length, hwords, ?_⟩
  rw [scan_append hcut, hscan]

theorem identifier {name : String} (hname : IsName name) {rest : List Char}
    (hrest : rest.head?.any isWordChar = false) :
    Spells name.toList [.identifier name] rest := by
  intro position
  exact ⟨[⟨.identifier name, position⟩], _, rfl, scan_identifier hname hrest position⟩

theorem ofChar {c : Char} {word : Word} (h : Word.ofChar? c = some word) (rest : List Char) :
    Spells [c] [word] rest := by
  intro position
  exact ⟨[⟨word, position⟩], position + 1, rfl, scan_ofChar h position rest⟩

theorem layout {c : Char} (h : Text.isLayout c = true) (rest : List Char) : Spells [c] [] rest := by
  intro position
  exact ⟨[], position + 1, rfl, scan_layout h position rest⟩

theorem space (rest : List Char) : Spells [' '] [] rest := layout (by decide) rest

/-- One text after the other spells the words of both. -/
theorem append {text text' : List Char} {words words' : List Word} {rest : List Char}
    (h : Spells text words (text' ++ rest)) (h' : Spells text' words' rest) :
    Spells (text ++ text') (words ++ words') rest := by
  intro position
  obtain ⟨tokens, mid, hwords, hscan⟩ := h position
  obtain ⟨tokens', next, hwords', hscan'⟩ := h' mid
  refine ⟨tokens ++ tokens', next, ?_, ?_⟩
  · rw [List.map_append, hwords, hwords']
  · rw [List.append_assoc, hscan, hscan', List.map_append, List.append_assoc]

/-- A text that is not blank has the words it spells for tokens. -/
theorem tokenize {text : String} {words : List Word} (h : Spells text.toList words [])
    (hblank : ¬ text.toList.all Text.isBlank = true) :
    ∃ tokens, tokenize text = .ok tokens ∧ tokens.map Token.word = words := by
  obtain ⟨tokens, next, hwords, hscan⟩ := h 0
  refine ⟨tokens, tokenize_eq_ok.mpr ⟨hblank, ?_⟩, hwords⟩
  rw [List.append_nil, scan_nil, List.append_nil] at hscan
  exact hscan

end Spells

end FilterLogic.Expr
