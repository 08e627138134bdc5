import FilterLogic.Proofs.Expr.Compilation

/-!
# Which accepted texts are expressions

Reading balances the parentheses of a text, but it does not look at where its operands stand: those
are only counted when the tree is built. What is missing is a condition on neighbouring words. At
every gap between two words, and at both ends, either an operand ends before the gap or one begins
after it, and not both. Accepted words make an expression exactly if they meet this condition.

## Implementation notes

Words read so far are kept as a place in an expression that is not complete yet: the phrase that
must come next, with everything before it derived. A whole phrase at such a place can be joined with
what stands before it until the innermost open parenthesis is reached.
-/

namespace FilterLogic.Expr

/-- Whether a word can be the last one of an operand. -/
def endsOperand : Word → Bool
  | .identifier _ | .closing => true
  | _ => false

/-- Whether at every gap an operand either ends before it or begins after it, but not both. The flag
tells whether one ends before the first word, and none begins after the last one. -/
def alternates (ended : Bool) : List Word → Bool
  | [] => ended
  | w :: ws => (ended != Postfix.beginsOperand w) && alternates (endsOperand w) ws

/-- A phrase begins an operand before its first word and ends one after its last word. -/
theorem Derives.alternates_append {p : Phrase} {ws : List Word} {t : Tree} (h : Derives p ws t) :
    ∀ rest, alternates false (ws ++ rest) = alternates true rest := by
  induction h with
  | identifier hname =>
      intro rest
      rfl
  | group _ ih =>
      intro rest
      simp [alternates, Postfix.beginsOperand, endsOperand, ih]
  | primary _ ih => exact ih
  | not _ ih =>
      intro rest
      simp [alternates, Postfix.beginsOperand, endsOperand, ih]
  | negation _ ih => exact ih
  | and _ _ ihl ihr =>
      intro rest
      rw [List.append_assoc, ihl]
      simp [alternates, Postfix.beginsOperand, endsOperand, ihr]
  | conjunction _ ih => exact ih
  | or _ _ ihl ihr =>
      intro rest
      rw [List.append_assoc, ihl]
      simp [alternates, Postfix.beginsOperand, endsOperand, ihr]

/-- Words after which a phrase must come, with the number of open parentheses among them. Every
whole operand among the words has its derivation. -/
inductive Awaits : Nat → Phrase → List Word → Prop
  | start : Awaits 0 .disjunction []
  | group {n ws} (h : Awaits n .primary ws) : Awaits (n + 1) .disjunction (ws ++ [.opening])
  | not {n ws} (h : Awaits n .negation ws) : Awaits n .negation (ws ++ [.not])
  | and {n ws vs l} (h : Awaits n .conjunction ws) (hl : Derives .conjunction vs l) :
      Awaits n .negation (ws ++ vs ++ [.and])
  | or {n ws vs l} (h : Awaits n .disjunction ws) (hl : Derives .disjunction vs l) :
      Awaits n .conjunction (ws ++ vs ++ [.or])
  | conjunction {n ws} (h : Awaits n .disjunction ws) : Awaits n .conjunction ws
  | negation {n ws} (h : Awaits n .conjunction ws) : Awaits n .negation ws
  | primary {n ws} (h : Awaits n .negation ws) : Awaits n .primary ws

/-- Words that are a whole disjunction since the innermost open parenthesis. -/
def Ended (n : Nat) (ws : List Word) : Prop :=
  ∃ us vs t, ws = us ++ vs ∧ Awaits n .disjunction us ∧ Derives .disjunction vs t

/-- A phrase where it must come ends a disjunction. -/
theorem Awaits.ended {n : Nat} {p : Phrase} {us : List Word} (h : Awaits n p us) :
    ∀ {vs t}, Derives p vs t → Ended n (us ++ vs) := by
  induction h with
  | start =>
      intro vs t hvs
      exact ⟨[], vs, t, rfl, .start, hvs⟩
  | @group n ws h _ =>
      intro vs t hvs
      exact ⟨ws ++ [.opening], vs, t, rfl, .group h, hvs⟩
  | not _ ih =>
      intro vs t hvs
      simpa using ih (.not hvs)
  | and _ hl ih =>
      intro vs t hvs
      simpa using ih (.and hl hvs)
  | @or n ws us l h hl _ =>
      intro vs r hvs
      exact ⟨ws, us ++ .or :: vs, .or l r, by simp, h, .or hl hvs⟩
  | conjunction _ ih =>
      intro vs t hvs
      apply ih
      exact .conjunction hvs
  | negation _ ih =>
      intro vs t hvs
      apply ih
      exact .negation hvs
  | primary _ ih =>
      intro vs t hvs
      apply ih
      exact .primary hvs

/-- What the words read so far are, given whether an operand ends with them. -/
def Viable (n : Nat) : Bool → List Word → Prop
  | false, ws => Awaits n .negation ws
  | true, ws => Ended n ws

/-- A word that stands where it may stand keeps the words viable, with the open parentheses counted
on. -/
theorem Viable.snoc {m n : Nat} {ended : Bool} {ws : List Word} {w : Word}
    (hname : ∀ name, w = .identifier name → IsName name) (hv : Viable n ended ws)
    (hgap : ended = !Postfix.beginsOperand w)
    (hopen : m + (if w = .closing then 1 else 0) = n + (if w = .opening then 1 else 0)) :
    Viable m (endsOperand w) (ws ++ [w]) := by
  cases w with
  | identifier name =>
      obtain rfl : ended = false := hgap
      obtain rfl : m = n := hopen
      exact Awaits.ended (.primary hv) (.identifier (hname name rfl))
  | not =>
      obtain rfl : ended = false := hgap
      obtain rfl : m = n := hopen
      exact .not hv
  | opening =>
      obtain rfl : ended = false := hgap
      obtain rfl : m = n + 1 := hopen
      exact .negation (.conjunction (.group (.primary hv)))
  | and =>
      obtain rfl : ended = true := hgap
      obtain rfl : m = n := hopen
      obtain ⟨us, vs, t, rfl, hus, hvs⟩ := hv
      cases hvs with
      | conjunction hvs => exact .and (.conjunction hus) hvs
      | or hl hr =>
          have hand := Awaits.and (.or hus hl) hr
          simpa [Viable, endsOperand] using hand
  | or =>
      obtain rfl : ended = true := hgap
      obtain rfl : m = n := hopen
      obtain ⟨us, vs, t, rfl, hus, hvs⟩ := hv
      exact .negation (.or hus hvs)
  | closing =>
      obtain rfl : ended = true := hgap
      obtain rfl : m + 1 = n := hopen
      obtain ⟨us, vs, t, rfl, hus, hvs⟩ := hv
      cases hus with
      | group hus =>
          have hended := hus.ended (.group hvs)
          simpa [Viable, endsOperand] using hended

namespace Postfix

/-- The number of open parentheses on a stack. -/
def openGroups : List Pending → Nat
  | [] => 0
  | .connective _ :: stack => openGroups stack
  | .group _ :: stack => openGroups stack + 1

theorem openGroups_eq (stack : List Pending) : openGroups stack = (positions stack).length := by
  induction stack with
  | nil => rfl
  | cons pending stack ih =>
      cases pending with
      | connective c => exact ih
      | group position => exact congrArg (· + 1) ih

/-- A token that is taken changes the open parentheses as its word says. -/
theorem openGroups_step {s s' : State} {t : Token} (h : s.step t = .ok s') :
    openGroups s'.stack + (if t.word = .closing then 1 else 0) =
      openGroups s.stack + (if t.word = .opening then 1 else 0) := by
  have hstep := positions_step h
  rw [openGroups_eq, openGroups_eq]
  cases hword : t.word with
  | opening =>
      rw [hword] at hstep
      rw [hstep]
      rfl
  | closing =>
      rw [hword] at hstep
      obtain ⟨position, hpositions⟩ := hstep
      rw [hpositions]
      rfl
  | _ =>
      rw [hword] at hstep
      rw [hstep]
      rfl

/-- Words that are taken and alternate keep what was read before viable. -/
theorem viable_run {tokens : List Token} :
    ∀ {s s' : State} {ended : Bool} {ws : List Word},
      (∀ name, .identifier name ∈ tokens.map Token.word → IsName name) →
      Viable (openGroups s.stack) ended ws →
      alternates ended (tokens.map Token.word) = true →
      tokens.foldlM State.step s = .ok s' →
      Ended (openGroups s'.stack) (ws ++ tokens.map Token.word) := by
  induction tokens with
  | nil =>
      intro s s' ended ws _ hv halt hrun
      obtain rfl : ended = true := halt
      cases hrun
      simpa [Viable] using hv
  | cons t tokens ih =>
      intro s s' ended ws hnames hv halt hrun
      rw [List.foldlM_cons, Outcome.bind_eq_ok] at hrun
      obtain ⟨mid, hstep, hrun⟩ := hrun
      rw [List.map_cons, alternates, Bool.and_eq_true, bne_iff_ne, ← Bool.eq_not] at halt
      obtain ⟨hgap, halt⟩ := halt
      have hmid := hv.snoc (fun name hname => hnames name (by simp [hname])) hgap
        (openGroups_step hstep)
      have htokens := ih (fun name hname => hnames name (by simp [hname])) hmid halt hrun
      simpa using htokens

end Postfix

/-- Balanced words that alternate make an expression. -/
theorem isExpression_of_alternates {tokens : List Token} {entries : List Postfix}
    (hnames : ∀ name, .identifier name ∈ tokens.map Token.word → IsName name)
    (hentries : toPostfix tokens = .ok entries)
    (halt : alternates false (tokens.map Token.word) = true) :
    IsExpression (tokens.map Token.word) := by
  rw [toPostfix, Outcome.bind_eq_ok] at hentries
  obtain ⟨last, hrun, hfinish⟩ := hentries
  have hstart : Viable (Postfix.openGroups Postfix.State.start.stack) false [] :=
    .negation (.conjunction .start)
  have hended := Postfix.viable_run hnames hstart halt hrun
  have hclosed := Postfix.positions_of_drain (Postfix.State.finish_eq_ok.mp hfinish).2
  rw [Postfix.openGroups_eq, hclosed] at hended
  obtain ⟨us, vs, t, hwords, hus, hvs⟩ := hended
  cases hus with
  | start =>
      rw [List.nil_append, List.nil_append] at hwords
      exact ⟨t, hwords ▸ hvs⟩

/-- An accepted text is an expression exactly if its words alternate with its operands. -/
theorem isExpression_iff_of_parse {text : String} {t : Tree} (h : parse text = .ok t) :
    ∃ tokens, tokenize text = .ok tokens ∧
      (IsExpression (tokens.map Token.word) ↔ alternates false (tokens.map Token.word) = true) := by
  rw [parse, Outcome.bind_eq_ok] at h
  obtain ⟨tokens, htokens, htree⟩ := h
  rw [Tree.ofTokens, Outcome.bind_eq_ok] at htree
  obtain ⟨entries, hentries, -⟩ := htree
  refine ⟨tokens, htokens, ?_, ?_⟩
  · rintro ⟨t, ht⟩
    simpa [alternates] using ht.alternates_append []
  · exact isExpression_of_alternates (fun name => isName_of_tokenize htokens) hentries

/-- A group under a NOT alternates, so it is an expression. -/
theorem isExpression_iff_of_parse_group :
    parse "!(a | b)" = .ok (.not (.or (.leaf "a") (.leaf "b"))) ∧
    ∃ tokens, tokenize "!(a | b)" = .ok tokens ∧
      (IsExpression (tokens.map Token.word) ↔ alternates false (tokens.map Token.word) = true) := by
  have htokens : tokenize "!(a | b)" = .ok
      [⟨.not, 0⟩, ⟨.opening, 1⟩, ⟨.identifier "a", 2⟩, ⟨.or, 4⟩, ⟨.identifier "b", 6⟩,
        ⟨.closing, 7⟩] :=
    tokenize_eq_ok.mpr ⟨by decide, by decide +kernel⟩
  have hparse : parse "!(a | b)" = .ok (.not (.or (.leaf "a") (.leaf "b"))) :=
    parse_of_tokenize htokens
  exact ⟨hparse, isExpression_iff_of_parse hparse⟩

/-- A connective after both of its operands is accepted, although it makes no expression. -/
theorem parse_trailing_connective :
    parse "a b &" = .ok (.and (.leaf "a") (.leaf "b")) ∧
    ∃ tokens, tokenize "a b &" = .ok tokens ∧ ¬ IsExpression (tokens.map Token.word) := by
  have htokens : tokenize "a b &" = .ok
      [⟨.identifier "a", 0⟩, ⟨.identifier "b", 2⟩, ⟨.and, 4⟩] :=
    tokenize_eq_ok.mpr ⟨by decide, by decide +kernel⟩
  refine ⟨parse_of_tokenize htokens, _, htokens, ?_⟩
  rintro ⟨t, ht⟩
  have halt := ht.alternates_append []
  exact absurd halt (by decide)

end FilterLogic.Expr
