import FilterLogic.Proofs.Sql.Form

/-!
# SQL text is unambiguous

Where two fragments are followed by anything and the whole texts are the same, the fragments are the
same: a quoted identifier ends at the first quote that is not doubled, no operator is written like
the beginning of another, a list goes on after a comma and ends at a parenthesis, and the first
character tells a filter from a negation and from a group. So the tree can be read off the text of a
condition, up to the keys and the values, whatever the names of the properties are.

## Implementation notes

Equality of whole texts does not pass to their parts. Every statement is therefore about texts with
a rest, and gives back the rests as equal.
-/

namespace FilterLogic

namespace Sql

/-- Of two texts that begin equal texts, one begins the other. -/
theorem prefix_or_prefix_of_append_eq {text text' rest rest' : List Char}
    (h : text ++ rest = text' ++ rest') : text <+: text' ∨ text' <+: text :=
  List.prefix_or_prefix_of_prefix (List.prefix_append text rest)
    (h ▸ List.prefix_append text' rest')

/-- Reads a name up to the quote that ends it. A doubled quote stands for one in the name. -/
def readName : List Char → List Char × List Char
  | '"' :: '"' :: rest => ('"' :: (readName rest).1, (readName rest).2)
  | '"' :: rest => ([], rest)
  | c :: rest => (c :: (readName rest).1, (readName rest).2)
  | [] => ([], [])

theorem readName_quote {rest : List Char} (h : rest.head? ≠ some '"') :
    readName ('"' :: rest) = ([], rest) := by
  cases rest with
  | nil => rfl
  | cons c cs =>
      have hc : c ≠ '"' := fun hc => h (congrArg some hc)
      simp [readName, hc]

/-- An escaped name is read back where no quote comes after the quote that ends it. -/
theorem readName_escaped (name : List Char) {rest : List Char} (h : rest.head? ≠ some '"') :
    readName ((name.flatMap fun c => if c = '"' then ['"', '"'] else [c]) ++ '"' :: rest) =
      (name, rest) := by
  induction name with
  | nil => exact readName_quote h
  | cons c cs ih =>
      rw [List.flatMap_cons]
      by_cases hc : c = '"'
      · subst hc
        simp [readName, ih]
      · simp [readName, hc, ih]

/-- A quoted identifier gives back its name where no quote comes after it. -/
theorem quoteIdentifier_append_inj {name name' : String} {rest rest' : List Char}
    (h : (quoteIdentifier name).toList ++ rest = (quoteIdentifier name').toList ++ rest')
    (hrest : rest.head? ≠ some '"') (hrest' : rest'.head? ≠ some '"') :
    name = name' ∧ rest = rest' := by
  simp only [quoteIdentifier, String.toList_ofList, List.cons_append, List.append_assoc,
    List.nil_append, List.cons.injEq, true_and] at h
  have hread := congrArg readName h
  rw [readName_escaped _ hrest, readName_escaped _ hrest'] at hread
  obtain ⟨hname, hrests⟩ := Prod.mk.inj hread
  exact ⟨String.toList_inj.mp hname, hrests⟩

/-- No operator is introduced by the beginning of what introduces another. -/
theorem introduction_append_inj {op op' : Operator} {rest rest' : List Char}
    (h : (introduction op).toList ++ rest = (introduction op').toList ++ rest') :
    op = op' ∧ rest = rest' := by
  have hprefixFree : ∀ a ∈ Operator.all, ∀ b ∈ Operator.all,
      (introduction a).toList <+: (introduction b).toList → a = b := by decide +kernel
  have hop : op = op' := by
    rcases prefix_or_prefix_of_append_eq h with hle | hle
    · exact hprefixFree op op.mem_all op' op'.mem_all hle
    · exact (hprefixFree op' op'.mem_all op op.mem_all hle).symm
  subst hop
  exact ⟨rfl, List.append_cancel_left h⟩

namespace Fragment

variable {dialect : Dialect} {index : Nat}

theorem renderSegments_append (segments segments' : List Segment) :
    renderSegments dialect index (segments ++ segments') =
      renderSegments dialect index segments ++
        renderSegments dialect (index + segments.count .placeholder) segments' := by
  induction segments generalizing index with
  | nil => rfl
  | cons segment rest ih =>
      cases segment with
      | text text => simp [renderSegments, ih]
      | placeholder => simp [renderSegments, ih, Nat.add_right_comm, Nat.add_assoc]

/-- What is rendered of a list after its first placeholder. -/
theorem renderSegments_placeholderList_succ (count : Nat) :
    renderSegments dialect index (placeholderList (count + 1)) =
      (dialect.placeholder index).toList ++ if count = 0 then [] else
        ", ".toList ++ renderSegments dialect (index + 1) (placeholderList count) := by
  cases count with
  | zero => simp [placeholderList, renderSegments]
  | succ count => simp [placeholderList, renderSegments]

/-- A list that is not empty does not begin with its parenthesis. -/
theorem renderSegments_placeholderList_succ_ne {count : Nat} {rest rest' : List Char} :
    renderSegments dialect index (placeholderList (count + 1)) ++ rest ≠ ')' :: rest' := by
  intro h
  rw [renderSegments_placeholderList_succ, List.append_assoc] at h
  cases dialect with
  | postgres =>
      rw [Dialect.toList_placeholder_postgres] at h
      exact absurd (List.head_eq_of_cons_eq h) (by decide)
  | sqlite =>
      rw [Dialect.toList_placeholder_sqlite] at h
      exact absurd (List.head_eq_of_cons_eq h) (by decide)

/-- A list of placeholders goes on after a comma and ends at a parenthesis. -/
theorem placeholderList_append_inj {count count' : Nat} {rest rest' : List Char}
    (h : renderSegments dialect index (placeholderList count) ++ ')' :: rest =
      renderSegments dialect index (placeholderList count') ++ ')' :: rest') :
    count = count' ∧ rest = rest' := by
  induction count generalizing count' index with
  | zero =>
      cases count' with
      | zero => exact ⟨rfl, List.tail_eq_of_cons_eq h⟩
      | succ count' => exact absurd h.symm renderSegments_placeholderList_succ_ne
  | succ count ih =>
      cases count' with
      | zero => exact absurd h renderSegments_placeholderList_succ_ne
      | succ count' =>
          rw [renderSegments_placeholderList_succ, renderSegments_placeholderList_succ,
            List.append_assoc, List.append_assoc] at h
          -- After the first placeholder, which both have, a comma or the parenthesis comes.
          have hafter := List.append_cancel_left h
          by_cases hlast : count = 0
          · by_cases hlast' : count' = 0
            · rw [if_pos hlast, if_pos hlast'] at hafter
              exact ⟨by rw [hlast, hlast'], List.tail_eq_of_cons_eq hafter⟩
            · rw [if_pos hlast, if_neg hlast'] at hafter
              exact absurd (List.head_eq_of_cons_eq hafter) (by decide)
          · by_cases hlast' : count' = 0
            · rw [if_neg hlast, if_pos hlast'] at hafter
              exact absurd (List.head_eq_of_cons_eq hafter) (by decide)
            · rw [if_neg hlast, if_neg hlast', List.append_assoc, List.append_assoc] at hafter
              obtain ⟨rfl, hrests⟩ := ih (List.append_cancel_left hafter)
              exact ⟨rfl, hrests⟩

/-- The places of an operator's values are told apart from those of any other number of values. -/
theorem operandPlaces_append_inj {op : Operator} {count count' : Nat} {rest rest' : List Char}
    (h : renderSegments dialect index (operandPlaces op count) ++ rest =
      renderSegments dialect index (operandPlaces op count') ++ rest') :
    operandPlaces op count = operandPlaces op count' ∧ rest = rest' := by
  cases hcardinality : op.cardinality with
  | list =>
      simp only [operandPlaces, hcardinality, renderSegments_append, renderSegments,
        List.append_nil, List.append_assoc] at h ⊢
      obtain ⟨rfl, hrests⟩ := placeholderList_append_inj h
      exact ⟨rfl, hrests⟩
  | _ =>
      have hplaces : operandPlaces op count = operandPlaces op count' :=
        operandPlaces_congr fun hlist => by
          rw [hcardinality] at hlist
          cases hlist
      rw [hplaces] at h
      exact ⟨hplaces, List.append_cancel_left h⟩

theorem head?_introduction (op : Operator) (rest : List Char) :
    ((introduction op).toList ++ rest).head? ≠ some '"' := by
  have hspace : (introduction op).toList.head? = some ' ' := by cases op <;> decide
  rw [List.head?_append, hspace, Option.some_or]
  decide

/-- The fragment of a filter gives back the name, the operator and the places of the values. -/
theorem filterSegments_append_inj {name name' : String} {op op' : Operator} {count count' : Nat}
    {rest rest' : List Char}
    (h : renderSegments dialect index (filterSegments name op count) ++ rest =
      renderSegments dialect index (filterSegments name' op' count') ++ rest') :
    name = name' ∧ op = op' ∧ filterSegments name op count = filterSegments name' op' count' ∧
      rest = rest' := by
  simp only [filterSegments, renderSegments, List.append_assoc] at h ⊢
  obtain ⟨rfl, hafter⟩ := quoteIdentifier_append_inj h (head?_introduction op _)
    (head?_introduction op' _)
  obtain ⟨rfl, hvalues⟩ := introduction_append_inj hafter
  obtain ⟨hplaces, hrests⟩ := operandPlaces_append_inj hvalues
  exact ⟨rfl, rfl, by rw [hplaces], hrests⟩

theorem renderSegments_negate (f : Fragment) (rest : List Char) :
    renderSegments dialect index (Condition.negate f).segments ++ rest =
      "NOT (".toList ++ (renderSegments dialect index f.segments ++ ')' :: rest) := by
  change renderSegments dialect index (.text "NOT (" :: f.segments ++ [.text ")"]) ++ rest = _
  simp [renderSegments, renderSegments_append]

theorem renderSegments_join (connective : String) (l r : Fragment) (rest : List Char) :
    renderSegments dialect index (join connective l r).segments ++ rest =
      '(' :: (renderSegments dialect index l.segments ++ (connective.toList ++
        (renderSegments dialect (index + l.segments.count .placeholder) r.segments ++
          ')' :: rest))) := by
  simp [join, renderSegments, renderSegments_append]

/-- Two fragments that are told apart wherever they stand, with what equal texts say about them. -/
def ToldApart (dialect : Dialect) (finding : Prop) (f g : Fragment) : Prop :=
  ∀ (index : Nat) (rest rest' : List Char),
    renderSegments dialect index f.segments ++ rest =
      renderSegments dialect index g.segments ++ rest' →
    finding ∧ f.segments = g.segments ∧ rest = rest'

theorem ToldApart.negate {finding : Prop} {f g : Fragment} (h : ToldApart dialect finding f g) :
    ToldApart dialect finding (Condition.negate f) (Condition.negate g) := by
  intro index rest rest' htext
  rw [renderSegments_negate, renderSegments_negate] at htext
  obtain ⟨hfinding, hsegments, hrests⟩ := h _ _ _ (List.append_cancel_left htext)
  have hnegated : (Condition.negate f).segments = (Condition.negate g).segments :=
    congrArg (fun segments => .text "NOT (" :: segments ++ [.text ")"]) hsegments
  exact ⟨hfinding, hnegated, List.tail_eq_of_cons_eq hrests⟩

/-- Equal groups have equal left operands, and what comes after these is equal. -/
theorem ToldApart.left {finding : Prop} {l l' r r' : Fragment} {connective connective' : String}
    {rest rest' : List Char} (hl : ToldApart dialect finding l l')
    (h : renderSegments dialect index (join connective l r).segments ++ rest =
      renderSegments dialect index (join connective' l' r').segments ++ rest') :
    finding ∧ l.segments = l'.segments ∧ ∃ next,
      connective.toList ++ (renderSegments dialect next r.segments ++ ')' :: rest) =
        connective'.toList ++ (renderSegments dialect next r'.segments ++ ')' :: rest') := by
  rw [renderSegments_join, renderSegments_join] at h
  obtain ⟨hfinding, hsegments, hafter⟩ := hl _ _ _ (List.tail_eq_of_cons_eq h)
  rw [← hsegments] at hafter
  exact ⟨hfinding, hsegments, _, hafter⟩

theorem ToldApart.join {finding finding' : Prop} {l l' r r' : Fragment}
    (hl : ToldApart dialect finding l l') (hr : ToldApart dialect finding' r r')
    (connective : String) :
    ToldApart dialect (finding ∧ finding') (join connective l r) (join connective l' r') := by
  intro index rest rest' h
  obtain ⟨hfinding, hleft, next, hafter⟩ := hl.left h
  obtain ⟨hfinding', hright, hrests⟩ := hr _ _ _ (List.append_cancel_left hafter)
  refine ⟨⟨hfinding, hfinding'⟩, ?_, List.tail_eq_of_cons_eq hrests⟩
  rw [Fragment.join, Fragment.join, hleft, hright]

/-- Groups are not written alike if neither connective begins the other. -/
theorem ToldApart.join_ne {finding : Prop} {l l' r r' : Fragment} {connective connective' : String}
    {rest rest' : List Char} (hl : ToldApart dialect finding l l')
    (hne : ¬ connective.toList <+: connective'.toList)
    (hne' : ¬ connective'.toList <+: connective.toList) :
    renderSegments dialect index (Fragment.join connective l r).segments ++ rest ≠
      renderSegments dialect index (Fragment.join connective' l' r').segments ++ rest' := by
  intro h
  obtain ⟨-, -, next, hafter⟩ := hl.left h
  exact (prefix_or_prefix_of_append_eq hafter).elim hne hne'

end Fragment

end Sql

namespace Expr.Tree

/-- Trees with the same connectives in the same places, and with related leaves. -/
inductive Alike (R : String → String → Prop) : Tree → Tree → Prop
  | leaf {key key'} (h : R key key') : Alike R (.leaf key) (.leaf key')
  | not {t t'} (h : Alike R t t') : Alike R (.not t) (.not t')
  | and {l r l' r'} (hl : Alike R l l') (hr : Alike R r r') : Alike R (.and l r) (.and l' r')
  | or {l r l' r'} (hl : Alike R l l') (hr : Alike R r r') : Alike R (.or l r) (.or l' r')

theorem Alike.mono {R S : String → String → Prop} {t t' : Tree} (h : Alike R t t')
    (hsub : ∀ key ∈ t.leaves, ∀ key' ∈ t'.leaves, R key key' → S key key') : Alike S t t' := by
  induction h with
  | leaf h => exact .leaf (hsub _ (List.mem_singleton.mpr rfl) _ (List.mem_singleton.mpr rfl) h)
  | not _ ih => exact .not (ih hsub)
  | and _ _ ihl ihr =>
      have hl := ihl fun key hkey key' hkey' =>
        hsub key (List.mem_append_left _ hkey) key' (List.mem_append_left _ hkey')
      have hr := ihr fun key hkey key' hkey' =>
        hsub key (List.mem_append_right _ hkey) key' (List.mem_append_right _ hkey')
      exact .and hl hr
  | or _ _ ihl ihr =>
      have hl := ihl fun key hkey key' hkey' =>
        hsub key (List.mem_append_left _ hkey) key' (List.mem_append_left _ hkey')
      have hr := ihr fun key hkey key' hkey' =>
        hsub key (List.mem_append_right _ hkey) key' (List.mem_append_right _ hkey')
      exact .or hl hr

/-- The character that the text of a tree begins with. -/
def opener : Tree → Char
  | .leaf _ => '"'
  | .not _ => 'N'
  | .and _ _ => '('
  | .or _ _ => '('

end Expr.Tree

namespace Sql.Fragment

variable {dialect : Dialect} {index : Nat} {filters filters' : String → Filter}
  {leaf leaf' : String → Fragment}

/-- The fragment under a key shows the filter under that key. -/
def Shows (filters : String → Filter) (leaf : String → Fragment) (key : String) : Prop :=
  ∃ count, (leaf key).segments =
    filterSegments (filters key).property.name (filters key).operator count

theorem head?_combine {t : Expr.Tree} (h : ∀ key ∈ t.leaves, Shows filters leaf key)
    (rest : List Char) :
    (renderSegments dialect index (t.combine leaf).segments ++ rest).head? = some t.opener := by
  cases t with
  | leaf name =>
      obtain ⟨count, hsegments⟩ := h name (List.mem_singleton.mpr rfl)
      rw [Expr.Tree.combine, hsegments, filterSegments, renderSegments, quoteIdentifier,
        String.toList_ofList]
      rfl
  | not t => rw [Expr.Tree.combine, renderSegments_negate]; rfl
  | and l r => rfl
  | or l r => rfl

/-- Trees that begin with different characters are told apart. -/
theorem toldApart_of_opener_ne {finding : Prop} {t t' : Expr.Tree}
    (h : ∀ key ∈ t.leaves, Shows filters leaf key)
    (h' : ∀ key ∈ t'.leaves, Shows filters' leaf' key) (hne : t.opener ≠ t'.opener) :
    ToldApart dialect finding (t.combine leaf) (t'.combine leaf') := by
  intro index rest rest' htext
  have hopener := congrArg List.head? htext
  rw [head?_combine h, head?_combine h'] at hopener
  exact absurd (Option.some.inj hopener) hne

/-- What can be told of two leaves from equal texts: the name, the operator and the segments. -/
def SameLeaf (filters filters' : String → Filter) (leaf leaf' : String → Fragment)
    (key key' : String) : Prop :=
  (filters key).property.name = (filters' key').property.name ∧
    (filters key).operator = (filters' key').operator ∧ (leaf key).segments = (leaf' key').segments

/-- The fragments of filters are told apart. -/
theorem toldApart_leaf {key key' : String} (h : Shows filters leaf key)
    (h' : Shows filters' leaf' key') :
    ToldApart dialect (SameLeaf filters filters' leaf leaf' key key') (leaf key) (leaf' key') := by
  intro index rest rest' htext
  obtain ⟨count, hsegments⟩ := h
  obtain ⟨count', hsegments'⟩ := h'
  rw [hsegments, hsegments'] at htext
  obtain ⟨hname, hop, hsame, hrests⟩ := filterSegments_append_inj htext
  rw [← hsegments, ← hsegments'] at hsame
  exact ⟨⟨hname, hop, hsame⟩, hsame, hrests⟩

theorem ToldApart.mono {finding finding' : Prop} {f g : Fragment}
    (h : ToldApart dialect finding f g) (himp : finding → finding') :
    ToldApart dialect finding' f g := by
  intro index rest rest' htext
  obtain ⟨hfinding, hsegments, hrests⟩ := h index rest rest' htext
  exact ⟨himp hfinding, hsegments, hrests⟩

/-- Trees over the fragments of filters are told apart. -/
theorem toldApart_combine {t t' : Expr.Tree} (h : ∀ key ∈ t.leaves, Shows filters leaf key)
    (h' : ∀ key ∈ t'.leaves, Shows filters' leaf' key) :
    ToldApart dialect (t.Alike (SameLeaf filters filters' leaf leaf') t')
      (t.combine leaf) (t'.combine leaf') := by
  -- Where the roots differ, the first characters do, except for AND and OR: both begin a group, and
  -- the texts part at the connective, after left operands that are equal by induction.
  induction t generalizing t' with
  | leaf key =>
      cases t' with
      | leaf key' =>
          have hleaf : ToldApart dialect (SameLeaf filters filters' leaf leaf' key key')
              (leaf key) (leaf' key') :=
            toldApart_leaf (h key (List.mem_singleton.mpr rfl))
              (h' key' (List.mem_singleton.mpr rfl))
          exact hleaf.mono .leaf
      | _ => exact toldApart_of_opener_ne h h' (by simp [Expr.Tree.opener])
  | not t ih =>
      cases t' with
      | not t' =>
          have hoperand : ToldApart dialect (t.Alike (SameLeaf filters filters' leaf leaf') t')
            (t.combine leaf) (t'.combine leaf') := ih h h'
          exact hoperand.negate.mono .not
      | _ => exact toldApart_of_opener_ne h h' (by simp [Expr.Tree.opener])
  | and l r ihl ihr =>
      obtain ⟨hleft, hright⟩ := List.forall_mem_append.mp h
      cases t' with
      | and l' r' =>
          obtain ⟨hleft', hright'⟩ := List.forall_mem_append.mp h'
          have hl := ihl hleft hleft'
          have hr := ihr hright hright'
          exact (hl.join hr " AND ").mono fun hlr => .and hlr.1 hlr.2
      | or l' r' =>
          obtain ⟨hleft', -⟩ := List.forall_mem_append.mp h'
          have hl := ihl hleft hleft'
          intro index rest rest' htext
          exact absurd htext (hl.join_ne (by decide) (by decide))
      | _ => exact toldApart_of_opener_ne h h' (by simp [Expr.Tree.opener])
  | or l r ihl ihr =>
      obtain ⟨hleft, hright⟩ := List.forall_mem_append.mp h
      cases t' with
      | or l' r' =>
          obtain ⟨hleft', hright'⟩ := List.forall_mem_append.mp h'
          have hl := ihl hleft hleft'
          have hr := ihr hright hright'
          exact (hl.join hr " OR ").mono fun hlr => .or hlr.1 hlr.2
      | and l' r' =>
          obtain ⟨hleft', -⟩ := List.forall_mem_append.mp h'
          have hl := ihl hleft hleft'
          intro index rest rest' htext
          exact absurd htext (hl.join_ne (by decide) (by decide))
      | _ => exact toldApart_of_opener_ne h h' (by simp [Expr.Tree.opener])

/-- Under each of its keys a context holds the fragment that is built for a filter, valid or not. -/
def HoldsFor (dialect : Dialect) (filters : String → Filter) (ctx : Context Fragment) : Prop :=
  ∀ key c, ctx.get? key = some c →
    build dialect (filters key).property (filters key).operator (filters key).value = .ok c

/-- The context of a request holds the fragments of its filters. -/
theorem holdsFor_build {request : Request} {ctx : Context Fragment} (default : Filter)
    (h : (Context.build (build dialect) request).outcome = .ok ctx) :
    HoldsFor dialect (fun key => (request.filters.get? key).getD default) ctx := by
  intro key c hc
  obtain ⟨f, hf, hbuilt⟩ := (Context.get?_build h).mp hc
  have hfilter : (request.filters.get? key).getD default = f := by rw [hf, Option.getD_some]
  simp only [hfilter]
  exact (Filter.build_eq_ok.mp hbuilt).2

/-- A fragment generated from filters combines fragments that show them. -/
theorem combine_of_generate {ctx : Context Fragment} {t : Expr.Tree} {f : Fragment}
    (hctx : HoldsFor dialect filters ctx) (h : (t.generate ctx).outcome = .ok f) :
    ∃ leaf : String → Fragment, f = t.combine leaf ∧ f.dialect = dialect ∧
      ∀ key ∈ t.leaves, ctx.get? key = some (leaf key) ∧ (leaf key).dialect = dialect ∧
        Shows filters leaf key := by
  obtain ⟨leaf, rfl, hleaves⟩ := Expr.Tree.exists_combine_of_generate h
  have hbuilt : ∀ key ∈ t.leaves, build dialect (filters key).property (filters key).operator
      (filters key).value = .ok (leaf key) :=
    fun key hkey => hctx key _ (hleaves key hkey)
  have hcomposed : (t.combine leaf).Composed ∧ (t.combine leaf).dialect = dialect :=
    composed_combine fun key hkey => ⟨.build (hbuilt key hkey), dialect_of_build (hbuilt key hkey)⟩
  refine ⟨leaf, rfl, hcomposed.2, fun key hkey => ?_⟩
  exact ⟨hleaves key hkey, dialect_of_build (hbuilt key hkey), _, segments_of_build (hbuilt key hkey)⟩

/-- Conditions of one text come from trees with the same connectives in the same places. Leaves in
the same place have the same name and operator, and the same number of placeholders. -/
theorem alike_of_toSql_eq {ctx ctx' : Context Fragment} {t t' : Expr.Tree} {f f' : Fragment}
    (hctx : HoldsFor dialect filters ctx) (hctx' : HoldsFor dialect filters' ctx')
    (hf : (t.generate ctx).outcome = .ok f) (hf' : (t'.generate ctx').outcome = .ok f')
    (htext : f.toSql = f'.toSql) :
    t.Alike (fun key key' =>
      (filters key).property.name = (filters' key').property.name ∧
      (filters key).operator = (filters' key').operator ∧
      ∃ c c', ctx.get? key = some c ∧ ctx'.get? key' = some c' ∧
        (placeholders c.toSql).length = (placeholders c'.toSql).length) t' := by
  obtain ⟨leaf, rfl, hdialect, hleaves⟩ := combine_of_generate hctx hf
  obtain ⟨leaf', rfl, hdialect', hleaves'⟩ := combine_of_generate hctx' hf'
  have hrendered : renderSegments dialect 1 (t.combine leaf).segments ++ [] =
      renderSegments dialect 1 (t'.combine leaf').segments ++ [] := by
    rw [toSql, toSql, hdialect, hdialect'] at htext
    rw [List.append_nil, List.append_nil]
    exact String.ofList_injective htext
  have htold : ToldApart dialect (t.Alike (SameLeaf filters filters' leaf leaf') t')
      (t.combine leaf) (t'.combine leaf') :=
    toldApart_combine (fun key hkey => (hleaves key hkey).2.2)
      fun key hkey => (hleaves' key hkey).2.2
  obtain ⟨halike, -, -⟩ := htold 1 [] [] hrendered
  refine halike.mono fun key hkey key' hkey' hsame => ?_
  obtain ⟨hname, hop, hsegments⟩ := hsame
  obtain ⟨hget, hkind, -⟩ := hleaves key hkey
  obtain ⟨hget', hkind', -⟩ := hleaves' key' hkey'
  have hleaf : (leaf key).toSql = (leaf' key').toSql := by
    rw [toSql, toSql, hkind, hkind', hsegments]
  exact ⟨hname, hop, leaf key, leaf' key', hget, hget', by rw [hleaf]⟩

/-- Two filters with one text under different keys, beside one whose name looks like SQL. -/
theorem alike_of_toSql_eq_hostile :
    let named (value : String) : Filter := ⟨.withDefaults "a\" AND \"b" .text, .equals, .text value⟩
    let range : Filter := ⟨.withDefaults "$1) OR (?" .integer, .between,
      .array [.number (.integer 1), .number (.integer 5)]⟩
    let request := Request.ofList [("x", named "Ann"), ("y", named "Bob"), ("z", range)] "x"
    let filters (key : String) := (request.filters.get? key).getD range
    ∃ ctx, (Context.build (build .postgres) request).outcome = .ok ctx ∧
      ∃ f, ((Expr.Tree.and (.leaf "x") (.not (.leaf "z"))).generate ctx).outcome = .ok f ∧
      ∃ f', ((Expr.Tree.and (.leaf "y") (.not (.leaf "z"))).generate ctx).outcome = .ok f' ∧
        f.toSql =
          "(\"a\"\" AND \"\"b\" = $1 AND NOT (\"$1) OR (?\" BETWEEN $2 AND $3))" ∧
        f.toSql = f'.toSql ∧
        (Expr.Tree.and (.leaf "x") (.not (.leaf "z"))).Alike (fun key key' =>
          (filters key).property.name = (filters key').property.name ∧
          (filters key).operator = (filters key').operator ∧
          ∃ c c', ctx.get? key = some c ∧ ctx.get? key' = some c' ∧
            (placeholders c.toSql).length = (placeholders c'.toSql).length)
          (.and (.leaf "y") (.not (.leaf "z"))) := by
  refine ⟨_, rfl, _, rfl, _, rfl, ?_, rfl, ?_⟩
  · decide +kernel
  · exact alike_of_toSql_eq (holdsFor_build _ rfl) (holdsFor_build _ rfl) rfl rfl rfl

end Sql.Fragment

end FilterLogic
