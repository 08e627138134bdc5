import FilterLogic.Proofs.Expr.Compilation
import FilterLogic.Proofs.Expr.Conservation
import FilterLogic.Proofs.Json.Printing
import FilterLogic.Proofs.Sql.Placeholders
import FilterLogic.Report

/-!
# Colours only decorate

A coloured report is the plain report with escape sequences put in: deleting the sequences gives the
plain report back, character by character. Nothing of what is shown is deleted with them, because
names have no escape character in them and JSON text escapes it.
-/

namespace FilterLogic.Report

/-- Whether a text goes on with an escape sequence after its first character: with a bracket, at
least one digit and the letter of styles. -/
def continuesSequence : List Char → Bool
  | '[' :: rest =>
    rest.head?.any Char.isDigit && (rest.dropWhile Char.isDigit).head? == some 'm'
  | _ => false

/-- A text without its escape sequences, read from the left. -/
def decolored : List Char → List Char
  | [] => []
  | c :: rest =>
    if c = '\x1b' ∧ continuesSequence rest then
      decolored (rest.tail.dropWhile Char.isDigit).tail
    else c :: decolored rest
termination_by text => text.length
decreasing_by
  all_goals simp only [List.length_cons, List.length_tail]
  all_goals have := (List.dropWhile_sublist Char.isDigit (l := rest.tail)).length_le
  all_goals simp only [List.length_tail] at this
  all_goals omega

/-- A text with its escape sequences deleted. -/
def withoutSequences (text : String) : String := String.ofList (decolored text.toList)

theorem decolored_of_ne {c : Char} (hc : c ≠ '\x1b') (rest : List Char) :
    decolored (c :: rest) = c :: decolored rest := by
  rw [decolored, if_neg fun h => hc h.1]

theorem decolored_append_of_not_mem {cs : List Char} (h : '\x1b' ∉ cs) (rest : List Char) :
    decolored (cs ++ rest) = cs ++ decolored rest := by
  induction cs with
  | nil => rfl
  | cons c cs ih =>
      obtain ⟨hc, hcs⟩ : '\x1b' ≠ c ∧ '\x1b' ∉ cs := by simpa using h
      rw [List.cons_append, decolored_of_ne (Ne.symm hc), ih hcs, List.cons_append]

theorem decolored_sequence (code : Nat) (rest : List Char) :
    decolored ((Style.sequence code).toList ++ rest) = decolored rest := by
  have htext : (Style.sequence code).toList ++ rest =
      '\x1b' :: '[' :: ((toString code).toList ++ 'm' :: rest) := by
    simp [Style.sequence, String.toList_append]
  have hafter : ((toString code).toList ++ 'm' :: rest).dropWhile Char.isDigit = 'm' :: rest :=
    (Sql.span_toString code rfl).2
  have hcontinues : continuesSequence ('[' :: ((toString code).toList ++ 'm' :: rest)) = true := by
    rw [continuesSequence, Sql.head?_toString, hafter]
    rfl
  rw [htext, decolored, if_pos ⟨rfl, hcontinues⟩, List.tail_cons, hafter, List.tail_cons]

example : withoutSequences "\x1b[32ma\x1b[39m \x1b[m \x1b[1" = "a \x1b[m \x1b[1" := by
  decide +kernel

/-- A text that is another one with escape sequences put in. The sequences are deleted whatever
comes after the text, so that texts can be put together. -/
def Decorates (colored plain : String) : Prop :=
  ∀ rest, decolored (colored.toList ++ rest) = plain.toList ++ decolored rest

namespace Decorates

variable {colored plain colored' plain' : String}

theorem withoutSequences_eq (h : Decorates colored plain) : withoutSequences colored = plain := by
  have hall := h []
  rw [List.append_nil, decolored, List.append_nil] at hall
  rw [withoutSequences, hall, String.ofList_toList]

/-- Text without escape characters stays as it is. -/
theorem of_not_mem (h : '\x1b' ∉ plain.toList) : Decorates plain plain :=
  decolored_append_of_not_mem h

/-- Literal text without escape characters. -/
theorem literal (text : String) (h : text.toList.contains '\x1b' = false) : Decorates text text :=
  of_not_mem fun hmem => by simp [hmem] at h

theorem sequence (code : Nat) : Decorates (Style.sequence code) "" := decolored_sequence code

theorem append (h : Decorates colored plain) (h' : Decorates colored' plain') :
    Decorates (colored ++ colored') (plain ++ plain') := by
  intro rest
  rw [String.toList_append, String.toList_append, List.append_assoc, List.append_assoc, h, h']

theorem join {α : Type} {colored plain : α → String} {items : List α}
    (h : ∀ item ∈ items, Decorates (colored item) (plain item)) :
    Decorates (String.join (items.map colored)) (String.join (items.map plain)) := by
  induction items with
  | nil => exact literal "" rfl
  | cons item items ih =>
      rw [List.map_cons, List.map_cons, String.join_cons, String.join_cons]
      exact (h item List.mem_cons_self).append
        (ih fun other hother => h other (List.mem_cons_of_mem item hother))

theorem intercalate {separator : String} {texts : List String}
    (hseparator : Decorates separator separator) (h : ∀ text ∈ texts, Decorates text text) :
    Decorates (separator.intercalate texts) (separator.intercalate texts) := by
  induction texts with
  | nil => exact literal "" rfl
  | cons text texts ih =>
      have htext := h text List.mem_cons_self
      cases texts with
      | nil => simpa using htext
      | cons next texts =>
          rw [String.intercalate_cons_cons]
          exact (htext.append hseparator).append
            (ih fun other hother => h other (List.mem_cons_of_mem text hother))

/-- A style adds nothing but its two sequences. -/
theorem paint (style : Style) (h : Decorates plain plain) :
    Decorates (style.paint plain) plain := by
  have hpainted := ((sequence style.code).append h).append (sequence style.resetCode)
  rwa [String.empty_append, String.append_empty] at hpainted

end Decorates

/-! ### What is shown -/

theorem decorates_toString (n : Nat) : Decorates (toString n) (toString n) :=
  .of_not_mem fun h => absurd (Sql.isDigit_of_mem_toString h) (by decide)

theorem decorates_name {name : String} (h : Expr.IsName name) : Decorates name name :=
  .of_not_mem fun hmem => absurd (h.2 _ hmem) (by decide)

theorem decorates_column (n : Nat) : Decorates (column n) (column n) := by
  refine .append (.of_not_mem fun h => ?_) (decorates_toString n)
  rw [String.toList_ofList] at h
  exact absurd (List.eq_of_mem_replicate h) (by decide)

theorem decorates_word {w : Expr.Word} (h : ∀ name, w = .identifier name → Expr.IsName name) :
    Decorates w.display w.display := by
  cases w with
  | identifier name =>
      have hname := decorates_name (h name rfl)
      exact ((Decorates.literal "IDENT(" rfl).append hname).append (.literal ")" rfl)
  | _ => exact .literal _ rfl

theorem decorates_paintedWord {w : Expr.Word}
    (h : ∀ name, w = .identifier name → Expr.IsName name) :
    Decorates (paintedWord w) w.display := by
  cases w with
  | identifier name => exact (decorates_word h).paint .green
  | _ => exact (decorates_word h).paint .cyan

theorem decorates_tree {t : Expr.Tree} (h : ∀ name ∈ t.leaves, Expr.IsName name) :
    Decorates t.display t.display := by
  have binary {left right connective : String} (hleft : Decorates left left)
      (hright : Decorates right right) (hconnective : Decorates connective connective) :
      Decorates ("(" ++ left ++ connective ++ right ++ ")")
        ("(" ++ left ++ connective ++ right ++ ")") :=
    ((((Decorates.literal "(" rfl).append hleft).append hconnective).append hright).append
      (.literal ")" rfl)
  induction t with
  | leaf name => exact decorates_name (h name List.mem_cons_self)
  | not t ih => exact (Decorates.literal "!" rfl).append (ih h)
  | and l r ihl ihr =>
      exact binary (ihl fun name hname => h name (List.mem_append_left _ hname))
        (ihr fun name hname => h name (List.mem_append_right _ hname)) (.literal " & " rfl)
  | or l r ihl ihr =>
      exact binary (ihl fun name hname => h name (List.mem_append_left _ hname))
        (ihr fun name hname => h name (List.mem_append_right _ hname)) (.literal " | " rfl)

theorem decorates_summary (matched total : Nat) :
    Decorates (summary matched total) (summary matched total) :=
  (((decorates_toString matched).append (.literal " of " rfl)).append
    (decorates_toString total)).append (.literal " records matched" rfl)

/-- JSON text escapes the escape character. -/
theorem decorates_compact (v : Json.Value) : Decorates v.compact v.compact := by
  refine .of_not_mem fun h => ?_
  rw [Json.Value.compact, String.toList_ofList] at h
  exact absurd (v.controlFree_compactChars _ h) (by decide)

/-! ### Reports -/

theorem decorates_tokenLine {t : Expr.Token}
    (h : ∀ name, t.word = .identifier name → Expr.IsName name) :
    Decorates (tokenLine true t) (tokenLine false t) := by
  have hposition := (decorates_column t.position).paint .dimmed
  exact ((hposition.append (.literal "  " rfl)).append (decorates_paintedWord h)).append
    (.literal "\n" rfl)

theorem decorates_tokensText {text : String} {tokens : List Expr.Token}
    (h : Expr.tokenize text = .ok tokens) :
    Decorates (tokensText true tokens) (tokensText false tokens) :=
  .join fun _ ht => decorates_tokenLine fun _ hname =>
    Expr.isName_of_tokenize h (hname ▸ List.mem_map_of_mem ht)

theorem decorates_expressionText {text : String} {t : Expr.Tree} (h : Expr.parse text = .ok t) :
    Decorates (expressionText true t) (expressionText false t) := by
  have hnames := Expr.isName_of_parse h
  have hlabel := (Decorates.literal "keys:" rfl).paint .dimmed
  have hkeys : Decorates (", ".intercalate t.identifiers) (", ".intercalate t.identifiers) :=
    .intercalate (.literal ", " rfl) fun name hname =>
      decorates_name (hnames name (Expr.Tree.mem_identifiers.mp hname))
  exact (((((decorates_tree hnames).append (.literal "\n" rfl)).append hlabel).append
    (.literal " " rfl)).append hkeys).append (.literal "\n" rfl)

theorem decorates_recordsText (matched : List Json.Value) (total : Nat) :
    Decorates (recordsText true matched total) (recordsText false matched total) := by
  have hrecords : Decorates (String.join (matched.map fun record => record.compact ++ "\n"))
      (String.join (matched.map fun record => record.compact ++ "\n")) :=
    .join fun record _ => (decorates_compact record).append (.literal "\n" rfl)
  have hsummary := (decorates_summary matched.length total).paint .dimmed
  exact (hrecords.append hsummary).append (.literal "\n" rfl)

theorem decorates_parameterLine (index : Nat) (value : Json.Value) :
    Decorates (parameterLine true index value) (parameterLine false index value) := by
  have hlabel : Decorates ("  " ++ toString index ++ ":") ("  " ++ toString index ++ ":") :=
    ((Decorates.literal "  " rfl).append (decorates_toString index)).append (.literal ":" rfl)
  have hvalue := (decorates_compact value).paint .yellow
  exact (((hlabel.paint .dimmed).append (.literal " " rfl)).append hvalue).append
    (.literal "\n" rfl)

theorem decorates_parameterLines (index : Nat) (parameters : List Json.Value) :
    Decorates (String.join (parameterLines true index parameters))
      (String.join (parameterLines false index parameters)) := by
  induction parameters generalizing index with
  | nil => exact .literal "" rfl
  | cons value rest ih =>
      rw [parameterLines, parameterLines, String.join_cons, String.join_cons]
      exact (decorates_parameterLine index value).append (ih (index + 1))

theorem decorates_sqlText {f : Sql.Fragment} (h : '\x1b' ∉ f.toSql.toList) :
    Decorates (sqlText true f) (sqlText false f) :=
  ((Decorates.of_not_mem h).append (.literal "\n" rfl)).append
    (decorates_parameterLines 1 f.parameters)

/-- Deleting the escape sequences of a coloured report gives the plain report, for the tokens and
the tree of any text, for any records, and for every fragment without escape characters of its
own. -/
theorem withoutSequences_colored :
    (∀ text tokens, Expr.tokenize text = .ok tokens →
      withoutSequences (tokensText true tokens) = tokensText false tokens) ∧
    (∀ text t, Expr.parse text = .ok t →
      withoutSequences (expressionText true t) = expressionText false t) ∧
    (∀ matched total,
      withoutSequences (recordsText true matched total) = recordsText false matched total) ∧
    ∀ f : Sql.Fragment, '\x1b' ∉ f.toSql.toList →
      withoutSequences (sqlText true f) = sqlText false f :=
  ⟨fun _ _ h => (decorates_tokensText h).withoutSequences_eq,
    fun _ _ h => (decorates_expressionText h).withoutSequences_eq,
    fun matched total => (decorates_recordsText matched total).withoutSequences_eq,
    fun _ h => (decorates_sqlText h).withoutSequences_eq⟩

/-- A record and a parameter that hold an escape sequence themselves are shown with it escaped. -/
theorem withoutSequences_colored_escaped :
    let tokens : List Expr.Token := [⟨.not, 0⟩, ⟨.identifier "adult", 1⟩]
    let value : Json.Value := .text "\x1b[2m"
    let f : Sql.Fragment := ⟨.sqlite, [.text "\"name\" = ", .placeholder], [value]⟩
    Expr.tokenize "!adult" = .ok tokens ∧
    withoutSequences (tokensText true tokens) = "   0  NOT\n   1  IDENT(adult)\n" ∧
    Expr.parse "!adult" = .ok (.not (.leaf "adult")) ∧
    withoutSequences (expressionText true (.not (.leaf "adult"))) = "!adult\nkeys: adult\n" ∧
    withoutSequences (recordsText true [value] 2) =
      "\"\\u001b[2m\"\n1 of 2 records matched\n" ∧
    '\x1b' ∉ f.toSql.toList ∧
    withoutSequences (sqlText true f) = "\"name\" = ?\n  1: \"\\u001b[2m\"\n" := by
  intro tokens value f
  have htokens : Expr.tokenize "!adult" = .ok tokens :=
    Expr.tokenize_eq_ok.mpr ⟨by decide, by decide +kernel⟩
  have hparse : Expr.parse "!adult" = .ok (.not (.leaf "adult")) := Expr.parse_of_tokenize htokens
  have hsql : '\x1b' ∉ f.toSql.toList := by decide +kernel
  obtain ⟨htokensText, hexpressionText, hrecordsText, hsqlText⟩ := withoutSequences_colored
  refine ⟨htokens, (htokensText _ _ htokens).trans ?_, hparse,
    (hexpressionText _ _ hparse).trans ?_, (hrecordsText [value] 2).trans ?_, hsql,
    (hsqlText f hsql).trans ?_⟩
  · decide +kernel
  · decide +kernel
  · decide +kernel
  · decide +kernel

end FilterLogic.Report
