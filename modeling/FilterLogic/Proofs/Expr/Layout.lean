import FilterLogic.Proofs.Expr.Diagnosis
import FilterLogic.Proofs.Expr.Scanning
import FilterLogic.Proofs.Expr.Surroundings

/-!
# Layout does not matter

A text has certain words for tokens exactly if it writes them in order, with layout before, between
and after them that keeps identifiers apart. How much layout there is only moves the tokens, and
where they stand decides about nothing but the position in a fault of parentheses. That position is
the one of a parenthesis, and it is the same one of the words in every layout.

## Implementation notes

Two layouts are not compared with each other: the tokens of both are those of a third sequence, in
which every word stands at its own number, moved to other places. A fault of that sequence names
the word at fault.
-/

namespace FilterLogic.Expr

/-- A run of layout, which may be empty. -/
def IsGap (cs : List Char) : Prop := ∀ c ∈ cs, Text.isLayout c = true

instance (cs : List Char) : Decidable (IsGap cs) :=
  decidable_of_iff (cs.all Text.isLayout = true) List.all_eq_true

/-- Text that writes words in order, each with a gap after it. Between two identifiers the gap is
not empty. -/
inductive Written : List Word → List Char → Prop
  | nil : Written [] []
  | cons {w gap words cs} (hgap : IsGap gap)
      (hapart : w.isIdentifier = true → words.head?.any Word.isIdentifier = true → gap ≠ [])
      (h : Written words cs) : Written (w :: words) (w.text.toList ++ (gap ++ cs))

/-- A text that writes words in order with layout before, between and after them. -/
def LaysOut (words : List Word) (text : String) : Prop :=
  ∃ gap cs, IsGap gap ∧ Written words cs ∧ text.toList = gap ++ cs

/-- Words whose identifiers can be written. -/
def Writable (words : List Word) : Prop := ∀ name, .identifier name ∈ words → IsName name

theorem Writable.head {w : Word} {words : List Word} (h : Writable (w :: words)) :
    ∀ name, w = .identifier name → IsName name := by
  rintro name rfl
  exact h name List.mem_cons_self

theorem Writable.tail {w : Word} {words : List Word} (h : Writable (w :: words)) :
    Writable words :=
  fun name hname => h name (List.mem_cons_of_mem w hname)

/-- The words other than identifiers are those of a single character. -/
theorem Word.isIdentifier_eq_false_iff {w : Word} :
    w.isIdentifier = false ↔ ∃ c, Word.ofChar? c = some w := by
  constructor
  · intro h
    cases w with
    | identifier name => cases h
    | not => exact ⟨'!', rfl⟩
    | and => exact ⟨'&', rfl⟩
    | or => exact ⟨'|', rfl⟩
    | opening => exact ⟨'(', rfl⟩
    | closing => exact ⟨')', rfl⟩
  · rintro ⟨c, h⟩
    unfold Word.ofChar? at h
    split at h
    all_goals first | (cases h; rfl) | cases h

theorem IsGap.head? {gap : List Char} (h : IsGap gap) (hne : gap ≠ []) (rest : List Char) :
    (gap ++ rest).head?.any isWordChar = false := by
  cases gap with
  | nil => exact absurd rfl hne
  | cons c gap => exact isWordChar_of_isLayout (h c List.mem_cons_self)

/-- What is written begins with a character of an identifier exactly if an identifier comes first.
-/
theorem Written.head? {words : List Word} {cs : List Char} (h : Written words cs)
    (hwords : Writable words) :
    cs.head?.any isWordChar = words.head?.any Word.isIdentifier := by
  cases h with
  | nil => rfl
  | @cons w gap words cs hgap hapart h =>
      cases hw : w.isIdentifier with
      | false =>
          obtain ⟨c, hof⟩ := Word.isIdentifier_eq_false_iff.mp hw
          rw [Word.toList_text_ofChar hof, List.head?_cons, Option.any_some, hw]
          exact (isLayout_isWordChar_of_ofChar? hof).2
      | true =>
          cases w with
          | identifier name =>
              obtain ⟨hne, hchars⟩ := hwords.head name rfl
              obtain ⟨c, rest, hname⟩ :=
                List.exists_cons_of_ne_nil (mt String.toList_eq_nil_iff.mp hne)
              have hc : isWordChar c = true := hchars c (hname ▸ List.mem_cons_self)
              rw [Word.text, hname, List.cons_append, List.head?_cons, Option.any_some, hc]
              rfl
          | _ => cases hw

namespace Spells

theorem gap {gap : List Char} (h : IsGap gap) (rest : List Char) : Spells gap [] rest := by
  induction gap with
  | nil => exact fun position => ⟨[], position, rfl, rfl⟩
  | cons c gap ih =>
      obtain ⟨hc, hgap⟩ := List.forall_mem_cons.mp h
      exact (layout hc (gap ++ rest)).append (ih hgap)

/-- A word spells itself, unless it runs on into an identifier. -/
theorem word {w : Word} (hname : ∀ name, w = .identifier name → IsName name) {rest : List Char}
    (hrest : w.isIdentifier = true → rest.head?.any isWordChar = false) :
    Spells w.text.toList [w] rest := by
  cases hw : w.isIdentifier with
  | false =>
      obtain ⟨c, hof⟩ := Word.isIdentifier_eq_false_iff.mp hw
      rw [Word.toList_text_ofChar hof]
      exact ofChar hof rest
  | true =>
      cases w with
      | identifier name => exact identifier (hname name rfl) (hrest hw)
      | _ => cases hw

/-- What is written spells its words. -/
theorem of_written {words : List Word} {cs : List Char} (h : Written words cs)
    (hwords : Writable words) : Spells cs words [] := by
  induction h with
  | nil => exact fun position => ⟨[], position, rfl, rfl⟩
  | @cons w gap words cs hgap hapart h ih =>
      have hrest (hw : w.isIdentifier = true) : (gap ++ cs).head?.any isWordChar = false := by
        by_cases hne : gap = []
        · rw [hne, List.nil_append, h.head? hwords.tail]
          exact Bool.eq_false_iff.mpr fun hnext => hapart hw hnext hne
        · exact hgap.head? hne cs
      have hcs : Spells (gap ++ cs) words [] := (Spells.gap hgap _).append (ih hwords.tail)
      rw [← List.append_nil (gap ++ cs)] at hrest
      exact (word hwords.head hrest).append hcs

end Spells

/-- A text that lays out words has them for tokens. -/
theorem tokenize_of_laysOut {words : List Word} {text : String} (h : LaysOut words text)
    (hne : words ≠ []) (hwords : Writable words) :
    ∃ tokens, tokenize text = .ok tokens ∧ tokens.map Token.word = words := by
  obtain ⟨gap, cs, hgap, hwritten, htext⟩ := h
  have hspells : Spells text.toList words [] := by
    rw [htext]
    exact (Spells.gap hgap _).append (.of_written hwritten hwords)
  refine hspells.tokenize ?_
  cases hwritten with
  | nil => exact absurd rfl hne
  | @cons w gap' words cs hgap' hapart hrest =>
      intro hblank
      rw [htext, List.all_append, List.all_append, Bool.and_eq_true, Bool.and_eq_true] at hblank
      exact Word.not_all_isBlank hwords.head hblank.2.1

/-- What a scan reads as tokens is written with the words of these tokens. -/
theorem written_of_scan {position : Nat} {cs : List Char} {tokens : List Token}
    (h : scan position cs = tokens.map Lexeme.token) :
    ∃ gap written, IsGap gap ∧ Written (tokens.map Token.word) written ∧ cs = gap ++ written := by
  fun_induction scan position cs generalizing tokens with
  | case1 position =>
      rw [List.map_eq_nil_iff.mp h.symm]
      exact ⟨[], [], List.forall_mem_nil _, .nil, rfl⟩
  | case2 position c rest hlayout ih =>
      obtain ⟨gap, written, hgap, hwritten, rfl⟩ := ih h
      exact ⟨c :: gap, written, List.forall_mem_cons.mpr ⟨hlayout, hgap⟩, hwritten, rfl⟩
  | case3 position c rest hlayout hword tail =>
      rename_i ih
      obtain ⟨t, ts, rfl, ht, hts⟩ := List.map_eq_cons_iff.mp h.symm
      cases ht
      obtain ⟨gap, written, hgap, hwritten, hrest⟩ := ih hts.symm
      have hwords : Writable (ts.map Token.word) := fun name => isName_of_scan hts.symm
      refine ⟨[], _, List.forall_mem_nil _, .cons hgap (fun _ hnext hnil => ?_) hwritten, ?_⟩
      · have hend := head?_dropWhile_isWordChar rest
        rw [hrest, hnil, List.nil_append, hwritten.head? hwords, hnext] at hend
        cases hend
      · rw [← hrest]
        exact (takeWhile_append_dropWhile_isWordChar c rest).symm
  | case4 position c rest hlayout hword word hof ih =>
      obtain ⟨t, ts, rfl, ht, hts⟩ := List.map_eq_cons_iff.mp h.symm
      cases ht
      obtain ⟨gap, written, hgap, hwritten, rfl⟩ := ih hts.symm
      refine ⟨[], _, List.forall_mem_nil _, .cons hgap (fun hidentifier => ?_) hwritten, ?_⟩
      · rw [Word.isIdentifier_eq_false_iff.mpr ⟨c, hof⟩] at hidentifier
        cases hidentifier
      · rw [Word.toList_text_ofChar hof]
        rfl
  | case5 position c rest hlayout hword hof ih =>
      obtain ⟨t, ts, -, ht, -⟩ := List.map_eq_cons_iff.mp h.symm
      cases ht

/-- A text has certain words for tokens exactly if they can be written and it lays them out. -/
theorem words_iff_laysOut {words : List Word} {text : String} :
    (∃ tokens, tokenize text = .ok tokens ∧ tokens.map Token.word = words) ↔
      words ≠ [] ∧ Writable words ∧ LaysOut words text := by
  constructor
  · rintro ⟨tokens, htokens, rfl⟩
    obtain ⟨hblank, hscan⟩ := tokenize_eq_ok.mp htokens
    obtain ⟨gap, cs, hgap, hwritten, htext⟩ := written_of_scan hscan
    refine ⟨fun hnil => hblank ?_, fun name => isName_of_scan hscan, gap, cs, hgap, hwritten, htext⟩
    rw [hnil] at hwritten
    cases hwritten
    rw [htext, List.append_nil]
    exact List.all_eq_true.mpr fun c hc => Text.isBlank_of_isLayout (hgap c hc)
  · rintro ⟨hne, hwords, hlaid⟩
    exact tokenize_of_laysOut hlaid hne hwords

/-- A fault of parentheses is at the position of one of them. -/
theorem parenthesis_of_toPostfix {tokens : List Token} {position : Nat}
    (h : toPostfix tokens = .error (.mismatchedParentheses position)) :
    ∃ w, w.isParenthesis = true ∧ ⟨w, position⟩ ∈ tokens := by
  have hword {i : Nat} {t : Token} {w : Word} (ht : tokens[i]? = some t)
      (hw : (tokens.map Token.word)[i]? = some w) : ⟨w, t.position⟩ ∈ tokens := by
    rw [List.getElem?_map, ht] at hw
    cases hw
    exact List.mem_of_getElem? ht
  cases toPostfix_eq_error.mp h with
  | place hfault =>
      cases hfault with
      | unopened ht _ hunopened => exact ⟨.closing, rfl, hword ht hunopened.1⟩
  | unclosed _ _ ht hunclosed _ => exact ⟨.opening, rfl, hword ht hunclosed.1⟩

namespace Subtree

variable {position : Nat}

theorem push_ne_mismatched (node : Subtree) (stack : List Subtree) :
    push node stack ≠ .error (.mismatchedParentheses position) := by
  intro h
  rw [push] at h
  split at h <;> cases h

theorem step_ne_mismatched (stack : List Subtree) (entry : Postfix) :
    step stack entry ≠ .error (.mismatchedParentheses position) := by
  intro h
  unfold step at h
  split at h
  all_goals first | exact push_ne_mismatched _ _ h | cases h

theorem run_ne_mismatched (entries : List Postfix) (stack : List Subtree) :
    entries.foldlM step stack ≠ .error (.mismatchedParentheses position) := by
  induction entries generalizing stack with
  | nil =>
      intro h
      cases h
  | cons entry entries ih =>
      rw [List.foldlM_cons, ne_eq, Outcome.bind_eq_error]
      rintro (hstep | ⟨next, -, hrun⟩)
      · exact step_ne_mismatched stack entry hstep
      · exact ih next hrun

end Subtree

/-- Postfix entries have no parentheses that could be at fault. -/
theorem buildTree_ne_mismatched (entries : List Postfix) (position : Nat) :
    buildTree entries ≠ .error (.mismatchedParentheses position) := by
  rw [buildTree, ne_eq, Outcome.bind_eq_error]
  rintro (hrun | ⟨stack, -, hsingle⟩)
  · exact Subtree.run_ne_mismatched entries [] hrun
  · unfold Subtree.single at hsingle
    split at hsingle <;> cases hsingle

/-- The same answer to two sequences of tokens: the same tree or the same fault. A fault of
parentheses is at the same one of the tokens, and shows where it stands in each of the sequences. -/
inductive SameOutcome (tokens tokens' : List Token) :
    Except SyntaxError Tree → Except SyntaxError Tree → Prop
  | tree (t : Tree) : SameOutcome tokens tokens' (.ok t) (.ok t)
  | fault (e : SyntaxError) (h : ∀ position, e ≠ .mismatchedParentheses position) :
      SameOutcome tokens tokens' (.error e) (.error e)
  | parenthesis {n : Nat} {w : Word} {position position' : Nat} (hw : w.isParenthesis = true)
      (h : tokens[n]? = some ⟨w, position⟩) (h' : tokens'[n]? = some ⟨w, position'⟩) :
      SameOutcome tokens tokens' (.error (.mismatchedParentheses position))
        (.error (.mismatchedParentheses position'))

/-- Words as tokens that stand at their own numbers. -/
def numbered (words : List Word) : List Token := words.mapIdx fun n w => ⟨w, n⟩

theorem getElem?_of_mem_numbered {words : List Word} {w : Word} {n : Nat}
    (h : ⟨w, n⟩ ∈ numbered words) : (numbered words)[n]? = some ⟨w, n⟩ := by
  obtain ⟨i, hi⟩ := List.getElem?_of_mem h
  obtain ⟨v, hv, htoken⟩ : ∃ v, words[i]? = some v ∧ (⟨v, i⟩ : Token) = ⟨w, n⟩ := by
    simpa [numbered] using hi
  cases htoken
  exact hi

/-- Tokens are their words, moved from their numbers to where they stand. -/
theorem exists_place_numbered (tokens : List Token) :
    ∃ f, (numbered (tokens.map Token.word)).map (Token.place f) = tokens := by
  refine ⟨fun n => (tokens[n]?.map Token.position).getD 0, List.ext_getElem? fun n => ?_⟩
  cases h : tokens[n]? with
  | none => simp [numbered, h]
  | some t => simp [numbered, Token.place, h]

/-- Tokens with the same words have the same answer. -/
theorem sameOutcome_of_words {tokens tokens' : List Token}
    (h : tokens.map Token.word = tokens'.map Token.word) :
    SameOutcome tokens tokens' (Tree.ofTokens tokens) (Tree.ofTokens tokens') := by
  obtain ⟨f, hf⟩ := exists_place_numbered tokens
  obtain ⟨g, hg⟩ := exists_place_numbered tokens'
  rw [← h] at hg
  rw [Tree.ofTokens, Tree.ofTokens]
  generalize numbered_eq : numbered (tokens.map Token.word) = ts at hf hg
  have hplaced : toPostfix tokens = (toPostfix ts).mapError (SyntaxError.place f) := by
    rw [← toPostfix_place, hf]
  have hplaced' : toPostfix tokens' = (toPostfix ts).mapError (SyntaxError.place g) := by
    rw [← toPostfix_place, hg]
  rw [hplaced, hplaced']
  cases hentries : toPostfix ts with
  | ok entries =>
      change SameOutcome tokens tokens' (buildTree entries) (buildTree entries)
      cases hbuild : buildTree entries with
      | ok t => exact .tree t
      | error e =>
          refine .fault e fun position he => buildTree_ne_mismatched entries position ?_
          rw [hbuild, he]
  | error e =>
      cases e with
      | mismatchedParentheses n =>
          obtain ⟨w, hw, hmem⟩ := parenthesis_of_toPostfix hentries
          have hn : ts[n]? = some ⟨w, n⟩ := by
            rw [← numbered_eq] at hmem ⊢
            exact getElem?_of_mem_numbered hmem
          refine .parenthesis (n := n) hw ?_ ?_
          · rw [← hf, List.getElem?_map, hn]
            rfl
          · rw [← hg, List.getElem?_map, hn]
            rfl
      | _ =>
          refine .fault _ fun position he => ?_
          cases he

/-- A text in another layout has the same words for tokens and is answered alike. -/
theorem parse_layout {text text' : String} {tokens : List Token} (h : tokenize text = .ok tokens)
    (hlaid : LaysOut (tokens.map Token.word) text') :
    ∃ tokens', tokenize text' = .ok tokens' ∧
      tokens'.map Token.word = tokens.map Token.word ∧
      SameOutcome tokens tokens' (parse text) (parse text') := by
  obtain ⟨hne, hwords, -⟩ := words_iff_laysOut.mp ⟨tokens, h, rfl⟩
  obtain ⟨tokens', h', hsame⟩ := words_iff_laysOut.mpr ⟨hne, hwords, hlaid⟩
  refine ⟨tokens', h', hsame, ?_⟩
  rw [parse_of_tokenize h, parse_of_tokenize h']
  exact sameOutcome_of_words hsame.symm

/-- Two identifiers that stay apart, with a parenthesis after them that none has opened. It is the
third of the words in both layouts. -/
theorem parse_layout_unopened :
    let tokens : List Token :=
      [⟨.identifier "a", 0⟩, ⟨.identifier "b", 2⟩, ⟨.closing, 3⟩, ⟨.opening, 4⟩]
    let text' := "\x0ca\n\tb )( "
    tokenize "a b)(" = .ok tokens ∧ LaysOut (tokens.map Token.word) text' ∧
    (∃ tokens', tokenize text' = .ok tokens' ∧ tokens'.map Token.word = tokens.map Token.word ∧
      tokens'[2]? = some ⟨.closing, 6⟩ ∧
      SameOutcome tokens tokens' (parse "a b)(") (parse text')) ∧
    parse "a b)(" = .error (.mismatchedParentheses 3) ∧
    parse text' = .error (.mismatchedParentheses 6) := by
  intro tokens text'
  have htokens : tokenize "a b)(" = .ok tokens :=
    tokenize_eq_ok.mpr ⟨by decide, by decide +kernel⟩
  have hlaid : LaysOut (tokens.map Token.word) text' := by
    have hopening := @Written.cons .opening [' '] _ _ (by decide) nofun .nil
    have hclosing := @Written.cons .closing [] _ _ (by decide) nofun hopening
    have hb := @Written.cons (.identifier "b") [' '] _ _ (by decide) (fun _ _ => nofun) hclosing
    have ha := @Written.cons (.identifier "a") ['\n', '\t'] _ _ (by decide) (fun _ _ => nofun) hb
    exact ⟨['\x0c'], _, by decide, ha, by decide⟩
  have hparse : parse "a b)(" = .error (.mismatchedParentheses 3) := parse_of_tokenize htokens
  obtain ⟨tokens', htokens', hwords, hsame⟩ := parse_layout htokens hlaid
  have hread : tokenize text' = .ok
      [⟨.identifier "a", 1⟩, ⟨.identifier "b", 4⟩, ⟨.closing, 6⟩, ⟨.opening, 7⟩] :=
    tokenize_eq_ok.mpr ⟨by decide, by decide +kernel⟩
  have hparse' : parse text' = .error (.mismatchedParentheses 6) := parse_of_tokenize hread
  obtain rfl := Except.ok.inj (htokens'.symm.trans hread)
  exact ⟨htokens, hlaid, ⟨_, htokens', hwords, rfl, hsame⟩, hparse, hparse'⟩

end FilterLogic.Expr
