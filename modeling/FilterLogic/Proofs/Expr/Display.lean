import FilterLogic.Proofs.Expr.Compilation
import FilterLogic.Proofs.Expr.Completeness
import FilterLogic.Proofs.Expr.Scanning

/-!
# Printed trees are read back

The printed form of a tree is scanned into the words of the tree: an identifier for each leaf, a `!`
before each negated operand, and every binary connective in a group of its own. In the grammar these
words denote the tree again, so its depth alone decides whether the tree is built.
-/

namespace FilterLogic.Expr

namespace Spells

/-- Two texts in parentheses with a connective between them. -/
theorem group {c : Char} {word : Word} {left right : List Char} {lwords rwords : List Word}
    {rest : List Char} (hword : Word.ofChar? c = some word)
    (hl : Spells left lwords ([' ', c, ' '] ++ (right ++ ([')'] ++ rest))))
    (hr : Spells right rwords ([')'] ++ rest)) :
    Spells (['('] ++ left ++ [' ', c, ' '] ++ right ++ [')'])
      (.opening :: (lwords ++ word :: rwords ++ [.closing])) rest := by
  have hopening : Spells ['('] [.opening]
      (left ++ ([' ', c, ' '] ++ (right ++ ([')'] ++ rest)))) := ofChar rfl _
  have hconnective : Spells [' ', c, ' '] [word] (right ++ ([')'] ++ rest)) :=
    (space _).append ((ofChar hword _).append (space _))
  have hclosing : Spells [')'] [.closing] rest := ofChar rfl _
  have hall := (((hopening.append hl).append hconnective).append hr).append hclosing
  simpa using hall

end Spells

namespace Tree

/-- The words of the printed form of a tree. -/
def words : Tree → List Word
  | .leaf name => [.identifier name]
  | .not t => .not :: t.words
  | .and l r => .opening :: (l.words ++ .and :: r.words ++ [.closing])
  | .or l r => .opening :: (l.words ++ .or :: r.words ++ [.closing])

/-- The words of a tree denote it, and they stand wherever a negation may. -/
theorem derives_words {t : Tree} (h : ∀ name ∈ t.leaves, IsName name) :
    Derives .negation t.words t := by
  induction t with
  | leaf name => exact .primary (.identifier (h name (List.mem_singleton.mpr rfl)))
  | not t ih => exact .not (ih h)
  | and l r ihl ihr =>
      obtain ⟨hl, hr⟩ := List.forall_mem_append.mp h
      exact .primary (.group (.conjunction (.and (.negation (ihl hl)) (ihr hr))))
  | or l r ihl ihr =>
      obtain ⟨hl, hr⟩ := List.forall_mem_append.mp h
      exact .primary (.group (.or (.conjunction (.negation (ihl hl))) (.negation (ihr hr))))

/-- The printed form of a tree spells its words, unless it runs on into an identifier. -/
theorem spells_display {t : Tree} (h : ∀ name ∈ t.leaves, IsName name) {rest : List Char}
    (hrest : rest.head?.any isWordChar = false) : Spells t.display.toList t.words rest := by
  induction t generalizing rest with
  | leaf name => exact .identifier (h name (List.mem_singleton.mpr rfl)) hrest
  | not t ih =>
      have hnot : Spells ['!'] [.not] (t.display.toList ++ rest) := .ofChar rfl _
      rw [display, String.toList_append]
      exact hnot.append (ih h hrest)
  | and l r ihl ihr =>
      obtain ⟨hl, hr⟩ := List.forall_mem_append.mp h
      rw [display]
      simp only [String.toList_append]
      apply Spells.group (c := '&') rfl
      · exact ihl hl rfl
      · exact ihr hr rfl
  | or l r ihl ihr =>
      obtain ⟨hl, hr⟩ := List.forall_mem_append.mp h
      rw [display]
      simp only [String.toList_append]
      apply Spells.group (c := '|') rfl
      · exact ihl hl rfl
      · exact ihr hr rfl

theorem not_all_isBlank_display {t : Tree} (h : ∀ name ∈ t.leaves, IsName name) :
    ¬ t.display.toList.all Text.isBlank = true := by
  cases t with
  | leaf name =>
      apply Word.not_all_isBlank (w := .identifier name)
      intro other hother
      cases hother
      exact h name (List.mem_singleton.mpr rfl)
  | not t => simp [display, Text.isBlank]
  | and l r => simp [display, Text.isBlank]
  | or l r => simp [display, Text.isBlank]

/-- The printed form of a tree has the words of the tree for tokens. -/
theorem tokenize_display {t : Tree} (h : ∀ name ∈ t.leaves, IsName name) :
    ∃ tokens, tokenize t.display = .ok tokens ∧ tokens.map Token.word = t.words :=
  (spells_display h rfl).tokenize (not_all_isBlank_display h)

/-- The printed form of a tree is read back as the tree, or refused for its depth. -/
theorem parse_of_display {t : Tree} (h : ∀ name ∈ t.leaves, IsName name) :
    parse t.display = if t.depth ≤ 256 then .ok t else .error (.tooDeep 256) := by
  obtain ⟨tokens, htokens, hwords⟩ := tokenize_display h
  have hderives : Derives .disjunction (tokens.map Token.word) t := by
    rw [hwords]
    exact .conjunction (.negation (derives_words h))
  have hentries := toPostfix_of_derives hderives
  have hbuild := buildTree_postorder t
  rw [parse_of_tokenize htokens, Tree.ofTokens, hentries, Outcome.ok_bind]
  exact hbuild

end Tree

/-- The printed form of a tree is read back as the tree, or refused for its depth. So the tree of an
accepted text is read back, and trees that are not too deep are told apart by their printed forms.
-/
theorem parse_display :
    (∀ t : Tree, (∀ name ∈ t.leaves, IsName name) →
      parse t.display = if t.depth ≤ 256 then .ok t else .error (.tooDeep 256)) ∧
    (∀ (text : String) (t : Tree), parse text = .ok t → parse t.display = .ok t) ∧
    (∀ t u : Tree, (∀ name ∈ t.leaves, IsName name) → (∀ name ∈ u.leaves, IsName name) →
      t.depth ≤ 256 → u.depth ≤ 256 → t.display = u.display → t = u) := by
  refine ⟨fun t ht => t.parse_of_display ht, fun text t h => ?_, fun t u ht hu htd hud heq => ?_⟩
  · obtain ⟨-, -, -, hdepth⟩ := leaves_of_parse h
    exact (Tree.parse_of_display (isName_of_parse h)).trans (if_pos hdepth)
  · have hparse : (.ok t : Except SyntaxError Tree) = .ok u := by
      calc
        .ok t = parse t.display := ((Tree.parse_of_display ht).trans (if_pos htd)).symm
        _ = parse u.display := by rw [heq]
        _ = .ok u := (Tree.parse_of_display hu).trans (if_pos hud)
    exact Except.ok.inj hparse

/-- A tree with every connective, the tree of a text that is no expression, and two groupings of one
chain. -/
theorem parse_display_nested :
    let t : Tree := .not (.or (.leaf "a_1") (.and (.leaf "B") (.not (.leaf "a_1"))))
    t.display = "!(a_1 | (B & !a_1))" ∧ parse t.display = .ok t ∧
    parse "(a) b |" = .ok (.or (.leaf "a") (.leaf "b")) ∧
    parse (Tree.or (.leaf "a") (.leaf "b")).display = .ok (.or (.leaf "a") (.leaf "b")) ∧
    (Tree.and (.and (.leaf "a") (.leaf "b")) (.leaf "c")).display ≠
      (Tree.and (.leaf "a") (.and (.leaf "b") (.leaf "c"))).display := by
  intro t
  obtain ⟨hread, haccepted, hinjective⟩ := parse_display
  have htokens : tokenize "(a) b |" = .ok
      [⟨.opening, 0⟩, ⟨.identifier "a", 1⟩, ⟨.closing, 2⟩, ⟨.identifier "b", 4⟩, ⟨.or, 6⟩] :=
    tokenize_eq_ok.mpr ⟨by decide, by decide +kernel⟩
  have hparse : parse "(a) b |" = .ok (.or (.leaf "a") (.leaf "b")) := parse_of_tokenize htokens
  refine ⟨by decide, (hread t (by decide)).trans (if_pos (by decide)), hparse,
    haccepted _ _ hparse, fun heq => ?_⟩
  have hsame := hinjective _ _ (by decide) (by decide) (by decide) (by decide) heq
  exact absurd hsame (by decide)

end FilterLogic.Expr
