import FilterLogic.Proofs.Expr.Grouping
import FilterLogic.Proofs.Expr.Scanning

/-!
# A text in parentheses in place of an identifier

An accepted text in parentheses can stand for any identifier of an accepted text. The tree of the
one then takes the place of the leaf in the tree of the other, and only the depth of the whole
decides whether it is built. This holds for all texts that are accepted, also for those that are no
expressions.

## Implementation notes

A tree that is too deep still has a postfix order. What is composed is therefore the order that the
words are brought into, and the depth is looked at once, when the whole is built.
-/

namespace FilterLogic.Expr

namespace Tree

/-- A tree with another one in the place of a leaf. Leaves are counted from the left and from zero.
-/
def replaceLeaf : Tree → Nat → Tree → Tree
  | .leaf name, i, u => if i = 0 then u else .leaf name
  | .not t, i, u => .not (t.replaceLeaf i u)
  | .and l r, i, u =>
    if i < l.leaves.length then .and (l.replaceLeaf i u) r
    else .and l (r.replaceLeaf (i - l.leaves.length) u)
  | .or l r, i, u =>
    if i < l.leaves.length then .or (l.replaceLeaf i u) r
    else .or l (r.replaceLeaf (i - l.leaves.length) u)

/-- The tree itself, unless it is too deep to be built. -/
def checkDepth (t : Tree) : Except SyntaxError Tree :=
  if t.depth ≤ 256 then .ok t else .error (.tooDeep 256)

/-- The number of leaves that are among the entries before an operand of the tree is its place among
the leaves. -/
theorem leaves_of_postorder {t : Tree} {left right : List Postfix} {name : String}
    (h : t.postorder = left ++ .operand name :: right) :
    t.leaves[(left.filterMap Postfix.name?).length]? = some name := by
  rw [← t.names_postorder, h, List.filterMap_append]
  simp [Postfix.name?]

/-- An operand among the entries of a node is one of its operands, since the connective comes last.
-/
theorem operand_before_connective {entries left right : List Postfix} {c : Connective}
    {name : String} (h : entries ++ [.connective c] = left ++ .operand name :: right) :
    ∃ mid, entries = left ++ .operand name :: mid ∧ right = mid ++ [.connective c] := by
  rcases List.eq_nil_or_concat right with rfl | ⟨mid, last, rfl⟩
  · have hlast := (List.append_inj' h rfl).2
    cases hlast
  · rw [List.concat_eq_append, ← List.cons_append, ← List.append_assoc] at h
    obtain ⟨hentries, hlast⟩ := List.append_inj' h rfl
    exact ⟨mid, hentries, by rw [List.concat_eq_append, hlast]⟩

/-- An operand among the entries of two trees belongs to the left one exactly if fewer leaves than the
left one has stand before it. -/
theorem operand_of_append {l r : Tree} {left right : List Postfix} {name : String}
    (h : l.postorder ++ r.postorder = left ++ .operand name :: right) :
    let i := (left.filterMap Postfix.name?).length
    (i < l.leaves.length ∧
      ∃ mid, l.postorder = left ++ .operand name :: mid ∧ right = mid ++ r.postorder) ∨
    (¬ i < l.leaves.length ∧
      ∃ mid, left = l.postorder ++ mid ∧ r.postorder = mid ++ .operand name :: right ∧
        i - l.leaves.length = (mid.filterMap Postfix.name?).length) := by
  intro i
  have hsplit := List.append_eq_append_iff.mp h
  have inRight (mid : List Postfix) (hleft : left = l.postorder ++ mid)
      (hr : r.postorder = mid ++ .operand name :: right) :
      ¬ i < l.leaves.length ∧
        ∃ mid, left = l.postorder ++ mid ∧ r.postorder = mid ++ .operand name :: right ∧
          i - l.leaves.length = (mid.filterMap Postfix.name?).length := by
    have hi : i = l.leaves.length + (mid.filterMap Postfix.name?).length := by
      rw [← l.names_postorder, ← List.length_append, ← List.filterMap_append, ← hleft]
    exact ⟨by omega, mid, hleft, hr, by omega⟩
  rcases hsplit with ⟨mid, hleft, hr⟩ | ⟨mid, hl, hmid⟩
  · exact .inr (inRight mid hleft hr)
  · rcases List.append_eq_cons_iff.mp hmid.symm with ⟨rfl, hr⟩ | ⟨mid, rfl, hright⟩
    · exact .inr (inRight [] (by rw [hl]; simp) (by rw [hr]; rfl))
    · refine .inl ⟨?_, mid, hl, hright⟩
      rw [← l.names_postorder, hl, List.filterMap_append, List.length_append]
      exact Nat.lt_add_of_pos_right (by simp [Postfix.name?])

theorem postorder_replaceLeaf {t : Tree} {left right : List Postfix} {name : String}
    (h : t.postorder = left ++ .operand name :: right) (u : Tree) :
    (t.replaceLeaf (left.filterMap Postfix.name?).length u).postorder =
      left ++ (u.postorder ++ right) := by
  induction t generalizing left right with
  | leaf other =>
      rcases List.append_eq_cons_iff.mp h.symm with ⟨rfl, hright⟩ | ⟨mid, rfl, hmid⟩
      · cases hright
        simp [replaceLeaf]
      · simp at hmid
  | not t ih =>
      obtain ⟨mid, ht, rfl⟩ := operand_before_connective h
      rw [replaceLeaf, postorder, ih ht, List.append_assoc, List.append_assoc]
  | and l r ihl ihr =>
      obtain ⟨mid, ht, rfl⟩ := operand_before_connective h
      rcases operand_of_append ht with ⟨hi, right, hl, rfl⟩ | ⟨hi, before, rfl, hr, hi'⟩
      · rw [replaceLeaf, if_pos hi, postorder, ihl hl]
        simp
      · rw [replaceLeaf, if_neg hi, postorder, hi', ihr hr]
        simp
  | or l r ihl ihr =>
      obtain ⟨mid, ht, rfl⟩ := operand_before_connective h
      rcases operand_of_append ht with ⟨hi, right, hl, rfl⟩ | ⟨hi, before, rfl, hr, hi'⟩
      · rw [replaceLeaf, if_pos hi, postorder, ihl hl]
        simp
      · rw [replaceLeaf, if_neg hi, postorder, hi', ihr hr]
        simp

end Tree

/-- Words that come out in the postfix order of a tree. -/
def Compiles (words : List Word) (t : Tree) : Prop :=
  ∃ tokens : List Token, tokens.map Token.word = words ∧ toPostfix tokens = .ok t.postorder

namespace Compiles

theorem toPostfix {tokens : List Token} {t : Tree} (h : Compiles (tokens.map Token.word) t) :
    toPostfix tokens = .ok t.postorder := by
  obtain ⟨tokens', hwords, hentries⟩ := h
  exact toPostfix_of_words hwords hentries

/-- An identifier can be replaced by a group. The tree of the group takes the place of its leaf. -/
theorem replace {before after inner : List Word} {name : String} {t u : Tree}
    (ht : Compiles (before ++ .identifier name :: after) t) (hu : Compiles inner u) :
    t.leaves[(before.filterMap Word.name?).length]? = some name ∧
      Compiles (before ++ ((.opening :: (inner ++ [.closing])) ++ after))
        (t.replaceLeaf (before.filterMap Word.name?).length u) := by
  obtain ⟨tokens, hwords, hentries⟩ := ht
  obtain ⟨first, rest, rfl, rfl, hrest⟩ := List.map_eq_append_iff.mp hwords
  obtain ⟨token, last, rfl, htoken, rfl⟩ := List.map_eq_cons_iff.mp hrest
  obtain ⟨group, rfl, hgroup⟩ := hu
  obtain ⟨left, right, hpostorder, hnames, hreplace⟩ := toPostfix_replace htoken hentries
  have hplace : (first.map Token.word).filterMap Word.name? = left.filterMap Postfix.name? := by
    rw [hnames, List.filterMap_map]
    rfl
  let opening : Token := ⟨.opening, 0⟩
  let closing : Token := ⟨.closing, 0⟩
  have hputs : Postfix.Puts (opening :: (group ++ [closing])) u.postorder :=
    Postfix.puts_group hgroup rfl rfl
  refine ⟨?_, first ++ ((opening :: (group ++ [closing])) ++ last), by simp [opening, closing], ?_⟩
  · rw [hplace]
    exact Tree.leaves_of_postorder hpostorder
  · rw [hreplace _ _ hputs, hplace, Tree.postorder_replaceLeaf hpostorder]

variable {words lwords rwords : List Word} {t l r : Tree}

theorem group (h : Compiles words t) : Compiles (.opening :: (words ++ [.closing])) t := by
  have hbase : Compiles ([] ++ .identifier "x" :: []) (.leaf "x") :=
    ⟨[⟨.identifier "x", 0⟩], rfl, rfl⟩
  simpa [Tree.replaceLeaf] using (hbase.replace h).2

theorem not (h : Compiles words t) :
    Compiles (.not :: .opening :: (words ++ [.closing])) (.not t) := by
  have hbase : Compiles ([.not] ++ .identifier "x" :: []) (.not (.leaf "x")) :=
    ⟨[⟨.not, 0⟩, ⟨.identifier "x", 1⟩], rfl, rfl⟩
  simpa [Tree.replaceLeaf, Word.name?] using (hbase.replace h).2

/-- Both operands of a connective can be groups. -/
theorem operands {op : Word} (hop : op.name? = none)
    (h : Compiles [.identifier "x", op, .identifier "y"] t) (hl : Compiles lwords l)
    (hr : Compiles rwords r) :
    Compiles (.opening :: (lwords ++ [.closing]) ++ (op :: .opening :: (rwords ++ [.closing])))
      ((t.replaceLeaf 1 r).replaceLeaf 0 l) := by
  have hplace : ([.identifier "x", op].filterMap Word.name?).length = 1 := by
    simp only [List.filterMap_cons, hop]
    rfl
  have hbase : Compiles ([.identifier "x", op] ++ .identifier "y" :: []) t := h
  have hright := (hbase.replace hr).2
  rw [hplace] at hright
  have hleft : Compiles ([] ++ .identifier "x" :: op :: .opening :: (rwords ++ [.closing]))
      (t.replaceLeaf 1 r) := by
    simpa using hright
  have hboth := (hleft.replace hl).2
  simpa using hboth

theorem and (hl : Compiles lwords l) (hr : Compiles rwords r) :
    Compiles (.opening :: (lwords ++ [.closing]) ++ (.and :: .opening :: (rwords ++ [.closing])))
      (.and l r) := by
  have hbase : Compiles [.identifier "x", .and, .identifier "y"] (.and (.leaf "x") (.leaf "y")) :=
    ⟨[⟨.identifier "x", 0⟩, ⟨.and, 1⟩, ⟨.identifier "y", 2⟩], rfl, rfl⟩
  simpa [Tree.replaceLeaf, Tree.leaves] using operands rfl hbase hl hr

theorem or (hl : Compiles lwords l) (hr : Compiles rwords r) :
    Compiles (.opening :: (lwords ++ [.closing]) ++ (.or :: .opening :: (rwords ++ [.closing])))
      (.or l r) := by
  have hbase : Compiles [.identifier "x", .or, .identifier "y"] (.or (.leaf "x") (.leaf "y")) :=
    ⟨[⟨.identifier "x", 0⟩, ⟨.or, 1⟩, ⟨.identifier "y", 2⟩], rfl, rfl⟩
  simpa [Tree.replaceLeaf, Tree.leaves] using operands rfl hbase hl hr

end Compiles

/-- A text that spells words is parsed to the tree that the words compile to, unless this is too
deep. -/
theorem parse_of_spells {text : String} {words : List Word} {t : Tree}
    (h : Spells text.toList words []) (hblank : ¬ text.toList.all Text.isBlank = true)
    (ht : Compiles words t) : parse text = t.checkDepth := by
  obtain ⟨tokens, htokens, rfl⟩ := h.tokenize hblank
  rw [parse_of_tokenize htokens, Tree.ofTokens, ht.toPostfix, Outcome.ok_bind]
  exact buildTree_postorder t

/-- What an accepted text spells in parentheses, before any rest. -/
theorem parenthesized_of_parse {text : String} {t : Tree} (h : parse text = .ok t) :
    ∃ words, Compiles words t ∧ t.depth ≤ 256 ∧ ∀ rest,
      Spells ('(' :: (text.toList ++ [')'])) (.opening :: (words ++ [.closing])) rest := by
  obtain ⟨tokens, htokens, hentries, hdepth⟩ := parse_eq_ok.mp h
  obtain ⟨-, hscan⟩ := tokenize_eq_ok.mp htokens
  refine ⟨tokens.map Token.word, ⟨tokens, rfl, hentries⟩, hdepth, fun rest => ?_⟩
  have hopening : Spells ['('] [.opening] ((text.toList ++ [')']) ++ rest) := .ofChar rfl _
  have htext : Spells text.toList (tokens.map Token.word) ([')'] ++ rest) :=
    .of_scan hscan (.of_not_isWordChar (by decide) _ _)
  have hclosing : Spells [')'] [.closing] rest := .ofChar rfl _
  exact hopening.append (htext.append hclosing)

/-- The text of an identifier can be replaced by an accepted text in parentheses. -/
theorem parse_replace {text inner : String} {t u : Tree} {before after : List Token}
    {name : String} {position : Nat} (ht : parse text = .ok t) (hu : parse inner = .ok u)
    (htokens : tokenize text = .ok (before ++ ⟨.identifier name, position⟩ :: after)) :
    let i := (before.filterMap fun token => token.word.name?).length
    t.leaves[i]? = some name ∧
      ∃ left right, text = left ++ name ++ right ∧ left.length = position ∧
        parse (left ++ "(" ++ inner ++ ")" ++ right) = (t.replaceLeaf i u).checkDepth := by
  intro i
  obtain ⟨tokens, htokens', hentries, -⟩ := parse_eq_ok.mp ht
  rw [htokens] at htokens'
  cases htokens'
  obtain ⟨words, hwords, -, hgroup⟩ := parenthesized_of_parse hu
  have hcompiles : Compiles (before.map Token.word ++ .identifier name :: after.map Token.word) t :=
    ⟨_, by simp, hentries⟩
  obtain ⟨hleaf, hreplaced⟩ := hcompiles.replace hwords
  rw [List.filterMap_map] at hleaf hreplaced
  refine ⟨hleaf, ?_⟩
  have hscan := (tokenize_eq_ok.mp htokens).2
  rw [List.map_append, List.map_cons] at hscan
  obtain ⟨left, right, hsplit, hposition, hbefore, hafter⟩ := scan_split hscan
  refine ⟨String.ofList left, String.ofList right, ?_, ?_, ?_⟩
  · rw [← String.toList_inj]
    simp [hsplit, Word.text]
  · rw [String.length_ofList]
    simpa using hposition.symm
  · apply parse_of_spells _ _ hreplaced
    · have hleft : Spells left (before.map Token.word)
          (('(' :: (inner.toList ++ [')'])) ++ right ++ []) :=
        .of_scan hbefore (.of_not_isWordChar (by decide) _ _)
      have hright : Spells right (after.map Token.word) [] := .of_scan hafter (.nil_right _)
      have hall := hleft.append ((hgroup _).append hright)
      simpa using hall
    · simp [Text.isBlank]

/-- A group has the tree of the text in it, and can be negated. -/
theorem parse_group {text : String} {t : Tree} (h : parse text = .ok t) :
    parse ("(" ++ text ++ ")") = parse text ∧
      parse ("!(" ++ text ++ ")") = (Tree.not t).checkDepth := by
  obtain ⟨words, hwords, hdepth, hspells⟩ := parenthesized_of_parse h
  constructor
  · have hgroup : parse ("(" ++ text ++ ")") = t.checkDepth := by
      apply parse_of_spells _ _ hwords.group
      · simpa using hspells []
      · simp [Text.isBlank]
    rw [hgroup, h, Tree.checkDepth, if_pos hdepth]
  · apply parse_of_spells _ _ hwords.not
    · have hnot : Spells ['!'] [.not] (('(' :: (text.toList ++ [')'])) ++ []) := .ofChar rfl _
      simpa using hnot.append (hspells [])
    · simp [Text.isBlank]

/-- Two groups can be joined. -/
theorem parse_join {left right : String} {l r : Tree} (hl : parse left = .ok l)
    (hr : parse right = .ok r) :
    parse ("(" ++ left ++ ") & (" ++ right ++ ")") = (Tree.and l r).checkDepth ∧
      parse ("(" ++ left ++ ") | (" ++ right ++ ")") = (Tree.or l r).checkDepth := by
  obtain ⟨lwords, hlwords, -, hlspells⟩ := parenthesized_of_parse hl
  obtain ⟨rwords, hrwords, -, hrspells⟩ := parenthesized_of_parse hr
  have hspells {c : Char} {op : Word} (hop : Word.ofChar? c = some op) :
      Spells (('(' :: (left.toList ++ [')'])) ++ ([' ', c, ' '] ++ '(' :: (right.toList ++ [')'])))
        (.opening :: (lwords ++ [.closing]) ++ (op :: .opening :: (rwords ++ [.closing]))) [] := by
    have hop : Spells [' ', c, ' '] [op] (('(' :: (right.toList ++ [')'])) ++ []) :=
      (Spells.space _).append ((Spells.ofChar hop _).append (.space _))
    exact (hlspells _).append (hop.append (hrspells []))
  constructor
  · apply parse_of_spells _ _ (hlwords.and hrwords)
    · simpa using hspells (c := '&') rfl
    · simp [Text.isBlank]
  · apply parse_of_spells _ _ (hlwords.or hrwords)
    · simpa using hspells (c := '|') rfl
    · simp [Text.isBlank]

/-- An accepted text in parentheses can stand for any identifier of an accepted text, and its tree
stands for the leaf. In particular a group has the tree of the text in it, and groups can be
negated and joined. -/
theorem parse_substitute :
    (∀ (text inner : String) (t u : Tree) (before after : List Token) (name : String)
        (position : Nat),
      parse text = .ok t → parse inner = .ok u →
      tokenize text = .ok (before ++ ⟨.identifier name, position⟩ :: after) →
      let i := (before.filterMap fun token => token.word.name?).length
      t.leaves[i]? = some name ∧
        ∃ left right, text = left ++ name ++ right ∧ left.length = position ∧
          parse (left ++ "(" ++ inner ++ ")" ++ right) = (t.replaceLeaf i u).checkDepth) ∧
    (∀ (text : String) (t : Tree), parse text = .ok t →
      parse ("(" ++ text ++ ")") = parse text ∧
        parse ("!(" ++ text ++ ")") = (Tree.not t).checkDepth) ∧
    (∀ (left right : String) (l r : Tree), parse left = .ok l → parse right = .ok r →
      parse ("(" ++ left ++ ") & (" ++ right ++ ")") = (Tree.and l r).checkDepth ∧
        parse ("(" ++ left ++ ") | (" ++ right ++ ")") = (Tree.or l r).checkDepth) :=
  ⟨fun _ _ _ _ _ _ _ _ ht hu htokens => parse_replace ht hu htokens,
    fun _ _ h => parse_group h, fun _ _ _ _ hl hr => parse_join hl hr⟩

/-- Two texts that are accepted although they are no expressions, put together in every way. -/
theorem parse_substitute_unordered :
    let t : Tree := .and (.leaf "a") (.leaf "b")
    let u : Tree := .or (.leaf "c") (.not (.leaf "d"))
    parse "a b &" = .ok t ∧ parse "!c d |" = .ok u ∧
    parse "a (!c d |) &" = .ok (.and (.leaf "a") u) ∧
    parse "(!c d |)" = .ok u ∧ parse "!(!c d |)" = .ok (.not u) ∧
    parse "(a b &) & (!c d |)" = .ok (.and t u) ∧ parse "(a b &) | (!c d |)" = .ok (.or t u) := by
  intro t u
  obtain ⟨hreplace, hgroup, hjoin⟩ := parse_substitute
  have htokens : tokenize "a b &" = .ok
      ([⟨.identifier "a", 0⟩] ++ ⟨.identifier "b", 2⟩ :: [⟨.and, 4⟩]) :=
    tokenize_eq_ok.mpr ⟨by decide, by decide +kernel⟩
  have hinner : tokenize "!c d |" = .ok
      [⟨.not, 0⟩, ⟨.identifier "c", 1⟩, ⟨.identifier "d", 3⟩, ⟨.or, 5⟩] :=
    tokenize_eq_ok.mpr ⟨by decide, by decide +kernel⟩
  have ht : parse "a b &" = .ok t := parse_of_tokenize htokens
  have hu : parse "!c d |" = .ok u := parse_of_tokenize hinner
  obtain ⟨-, left, right, htext, hposition, hparse⟩ :=
    hreplace _ _ t u _ _ _ _ ht hu htokens
  obtain ⟨rfl, rfl⟩ : left = "a " ∧ right = " &" := by
    have hlist : "a ".toList ++ ("b".toList ++ " &".toList) =
        left.toList ++ ("b".toList ++ right.toList) := by
      simpa using congrArg String.toList htext
    have hlength : "a ".toList.length = left.toList.length :=
      hposition.symm.trans String.length_toList.symm
    obtain ⟨hleft, hrest⟩ := List.append_inj hlist hlength
    exact ⟨(String.toList_inj.mp hleft).symm,
      (String.toList_inj.mp (List.append_cancel_left hrest)).symm⟩
  exact ⟨ht, hu, hparse, (hgroup _ u hu).1.trans hu, (hgroup _ u hu).2,
    (hjoin _ _ t u ht hu).1, (hjoin _ _ t u ht hu).2⟩

end FilterLogic.Expr
