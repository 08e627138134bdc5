import FilterLogic.Proofs.Expr.Lexemes
import FilterLogic.Proofs.Expr.Postorder

/-!
# Every expression is parsed

While a phrase is read, the connectives on the stack below it stay where they are, and what the
phrase itself leaves waiting binds at least as tightly as the phrase. Moving these connectives to
the output completes the postfix order of the phrase's tree. From this invariant an expression
comes out in the postfix order of the tree it denotes, and only its depth decides whether the tree
is built.
-/

namespace FilterLogic.Expr

/-- How tightly the connectives bind that a phrase may leave waiting. -/
def Phrase.level : Phrase → Nat
  | .disjunction => 1
  | .conjunction => 2
  | .negation => 3
  | .primary => 4

namespace Postfix

/-- A stack on which no connective is waiting that a limit would release. -/
def Shielded (limit : Nat) : List Pending → Prop
  | .connective c :: _ => c.precedence < limit
  | _ => True

theorem Shielded.mono {m n : Nat} (hle : m ≤ n) {stack : List Pending}
    (h : Shielded m stack) : Shielded n stack := by
  cases stack with
  | nil => trivial
  | cons top rest =>
      cases top with
      | connective c => exact Nat.lt_of_lt_of_le h hle
      | group position => trivial

/-- A shielded stack loses exactly the connectives that were put on it. -/
theorem release_append {limit : Nat} {cs : List Connective} {stack : List Pending}
    (hcs : ∀ c ∈ cs, limit ≤ c.precedence) (hstack : Shielded limit stack)
    (output : List Postfix) :
    release limit (cs.map Pending.connective ++ stack) output =
      ((cs.map Postfix.connective).reverse ++ output, stack) := by
  induction cs generalizing output with
  | nil =>
      cases stack with
      | nil => rfl
      | cons top rest =>
          cases top with
          | connective c =>
              have hc : c.precedence < limit := hstack
              simp [release, hc]
          | group position => rfl
  | cons c cs ih =>
      have hc : ¬ c.precedence < limit := Nat.not_lt.mpr (hcs c (by simp))
      simp only [List.map_cons, List.cons_append, release, if_neg hc]
      rw [ih (fun d hd => hcs d (by simp [hd]))]
      simp

/-- A closing parenthesis releases every connective down to the innermost open one. -/
theorem close?_append (cs : List Connective) (position : Nat) (stack : List Pending)
    (output : List Postfix) :
    close? (cs.map Pending.connective ++ .group position :: stack) output =
      some ((cs.map Postfix.connective).reverse ++ output, stack) := by
  induction cs generalizing output with
  | nil => rfl
  | cons c cs ih => simp [close?, ih]

theorem drain_connectives (cs : List Connective) (output : List Postfix) :
    drain (cs.map Pending.connective) output =
      .ok ((cs.map Postfix.connective).reverse ++ output) := by
  induction cs generalizing output with
  | nil => rfl
  | cons c cs ih => simp [drain, ih]

theorem step_identifier {t : Token} {name : String} (ht : t.word = .identifier name) (s : State) :
    s.step t = .ok ⟨.operand name :: s.output, s.stack, false⟩ := by
  simp [State.step, ht, beginsOperand]

theorem step_not {t : Token} (ht : t.word = .not) (s : State) :
    s.step t = .ok ⟨s.output, .connective .not :: s.stack, true⟩ := by
  simp [State.step, ht, beginsOperand]

theorem step_opening {t : Token} (ht : t.word = .opening) (s : State) :
    s.step t = .ok ⟨s.output, .group t.position :: s.stack, false⟩ := by
  simp [State.step, ht, beginsOperand]

theorem step_and {t : Token} (ht : t.word = .and) (output : List Postfix) (stack : List Pending) :
    State.step ⟨output, stack, false⟩ t = .ok (State.binary ⟨output, stack, false⟩ .and) := by
  simp [State.step, ht]

theorem step_or {t : Token} (ht : t.word = .or) (output : List Postfix) (stack : List Pending) :
    State.step ⟨output, stack, false⟩ t = .ok (State.binary ⟨output, stack, false⟩ .or) := by
  simp [State.step, ht]

theorem step_closing {t : Token} (ht : t.word = .closing) {output output' : List Postfix}
    {stack stack' : List Pending} (hclose : close? stack output = some (output', stack')) :
    State.step ⟨output, stack, false⟩ t = .ok ⟨output', stack', false⟩ := by
  simp [State.step, ht, hclose]

/-- The invariant of reading a phrase: what it leaves waiting binds tightly enough, and moving that
to the output completes the postfix order of its tree. -/
def Reads (p : Phrase) (t : Tree) (tokens : List Token) (s : State) : Prop :=
  ∃ (cs : List Connective) (output : List Postfix),
    tokens.foldlM State.step s = .ok ⟨output, cs.map Pending.connective ++ s.stack, false⟩ ∧
    (∀ c ∈ cs, p.level ≤ c.precedence) ∧
    (cs.map Postfix.connective).reverse ++ output = t.postorder.reverse ++ s.output

theorem Reads.loosen {p q : Phrase} {t : Tree} {tokens : List Token} {s : State}
    (h : Reads p t tokens s) (hle : q.level ≤ p.level) : Reads q t tokens s := by
  obtain ⟨cs, output, hrun, hcs, hflush⟩ := h
  exact ⟨cs, output, hrun, fun c hc => Nat.le_trans hle (hcs c hc), hflush⟩

theorem reads_identifier {t : Token} {name : String} (ht : t.word = .identifier name)
    (s : State) : Reads .primary (.leaf name) [t] s := by
  refine ⟨[], .operand name :: s.output, ?_, by simp, by simp [Tree.postorder]⟩
  rw [List.foldlM_cons, step_identifier ht, Outcome.ok_bind]
  rfl

/-- A NOT waits below everything that its operand leaves waiting. -/
theorem reads_not {t : Tree} {op : Token} {tokens : List Token} {s : State}
    (hop : op.word = .not)
    (h : Reads .negation t tokens ⟨s.output, .connective .not :: s.stack, true⟩) :
    Reads .negation (.not t) (op :: tokens) s := by
  obtain ⟨cs, output, hrun, hcs, hflush⟩ := h
  refine ⟨cs ++ [.not], output, ?_, ?_, ?_⟩
  · rw [List.foldlM_cons, step_not hop, Outcome.ok_bind, hrun]
    simp
  · intro c hc
    rcases List.mem_append.mp hc with hc | hc
    · exact hcs c hc
    · rw [List.mem_singleton.mp hc]
      exact Nat.le_refl _
  · simpa [Tree.postorder] using hflush

/-- A binary connective releases what its left operand left waiting and nothing below it. -/
theorem reads_binary {p q : Phrase} {c : Connective} {l r t : Tree} {op : Token}
    {ltokens rtokens : List Token} {s : State}
    (hp : p.level = c.precedence) (hq : q.level = c.precedence + 1)
    (ht : t.postorder = l.postorder ++ r.postorder ++ [.connective c])
    (hop : ∀ output stack, State.step ⟨output, stack, false⟩ op =
      .ok (State.binary ⟨output, stack, false⟩ c))
    (hstack : Shielded c.precedence s.stack) (hl : Reads p l ltokens s)
    (hr : Reads q r rtokens
      ⟨l.postorder.reverse ++ s.output, .connective c :: s.stack, false⟩) :
    Reads p t (ltokens ++ op :: rtokens) s := by
  obtain ⟨cs, output, hrun, hcs, hflush⟩ := hl
  obtain ⟨ds, output', hrun', hds, hflush'⟩ := hr
  have hrelease := release_append (fun d hd => hp ▸ hcs d hd) hstack output
  refine ⟨ds ++ [c], output', ?_, ?_, ?_⟩
  · rw [List.foldlM_append, hrun, Outcome.ok_bind, List.foldlM_cons, hop, Outcome.ok_bind]
    simp only [State.binary, hrelease, hflush, hrun']
    simp
  · intro d hd
    rcases List.mem_append.mp hd with hd | hd
    · exact Nat.le_trans (by omega) (hds d hd)
    · rw [List.mem_singleton.mp hd]
      exact Nat.le_of_eq hp
  · rw [ht]
    simpa using hflush'

/-- A group leaves nothing waiting, and its own stack starts at its parenthesis. -/
theorem reads_group {t : Tree} {opening closing : Token} {tokens : List Token} {s : State}
    (hopening : opening.word = .opening) (hclosing : closing.word = .closing)
    (h : Reads .disjunction t tokens ⟨s.output, .group opening.position :: s.stack, false⟩) :
    Reads .primary t (opening :: (tokens ++ [closing])) s := by
  obtain ⟨cs, output, hrun, -, hflush⟩ := h
  refine ⟨[], t.postorder.reverse ++ s.output, ?_, by simp, by simp⟩
  have hclose := close?_append cs opening.position s.stack output
  rw [List.foldlM_cons, step_opening hopening, Outcome.ok_bind, List.foldlM_append, hrun,
    Outcome.ok_bind, List.foldlM_cons, step_closing hclosing hclose, Outcome.ok_bind, hflush]
  rfl

/-- Every phrase is read, provided the stack below keeps its connectives. A negation or a primary
takes any stack, since it has no binary connective of its own. -/
theorem reads_of_derives {p : Phrase} {ws : List Word} {t : Tree} (h : Derives p ws t) :
    ∀ {tokens : List Token} {s : State}, tokens.map Token.word = ws →
      (p.level ≤ 2 → Shielded p.level s.stack) → Reads p t tokens s := by
  induction h with
  | identifier hname =>
      intro tokens s hwords _
      obtain ⟨token, rest, rfl, hword, hrest⟩ := List.map_eq_cons_iff.mp hwords
      obtain rfl := List.map_eq_nil_iff.mp hrest
      exact reads_identifier hword s
  | group _ ih =>
      intro tokens s hwords _
      obtain ⟨opening, rest, rfl, hopening, hrest⟩ := List.map_eq_cons_iff.mp hwords
      obtain ⟨inner, last, rfl, hinner, hlast⟩ := List.map_eq_append_iff.mp hrest
      obtain ⟨closing, after, rfl, hclosing, hafter⟩ := List.map_eq_cons_iff.mp hlast
      obtain rfl := List.map_eq_nil_iff.mp hafter
      exact reads_group hopening hclosing (ih hinner fun _ => trivial)
  | primary _ ih =>
      intro tokens s hwords _
      exact (ih hwords (by simp [Phrase.level])).loosen (by decide)
  | not _ ih =>
      intro tokens s hwords _
      obtain ⟨op, rest, rfl, hop, hrest⟩ := List.map_eq_cons_iff.mp hwords
      exact reads_not hop (ih hrest (by simp [Phrase.level]))
  | negation _ ih =>
      intro tokens s hwords _
      exact (ih hwords (by simp [Phrase.level])).loosen (by decide)
  | and _ _ ihl ihr =>
      intro tokens s hwords hstack
      obtain ⟨ltokens, rest, rfl, hl, hrest⟩ := List.map_eq_append_iff.mp hwords
      obtain ⟨op, rtokens, rfl, hop, hr⟩ := List.map_eq_cons_iff.mp hrest
      exact reads_binary rfl rfl rfl (step_and hop) (hstack (by decide)) (ihl hl hstack)
        (ihr hr (by simp [Phrase.level]))
  | conjunction _ ih =>
      intro tokens s hwords hstack
      exact (ih hwords fun _ => (hstack (by decide)).mono (by decide)).loosen (by decide)
  | or _ _ ihl ihr =>
      intro tokens s hwords hstack
      obtain ⟨ltokens, rest, rfl, hl, hrest⟩ := List.map_eq_append_iff.mp hwords
      obtain ⟨op, rtokens, rfl, hop, hr⟩ := List.map_eq_cons_iff.mp hrest
      exact reads_binary rfl rfl rfl (step_or hop) (hstack (by decide)) (ihl hl hstack)
        (ihr hr fun _ => Nat.lt_succ_self 1)

end Postfix

/-- The words of an expression come out in the postfix order of the tree they denote. -/
theorem toPostfix_of_derives {tokens : List Token} {t : Tree}
    (h : Derives .disjunction (tokens.map Token.word) t) :
    toPostfix tokens = .ok t.postorder := by
  obtain ⟨cs, output, hrun, -, hflush⟩ :=
    Postfix.reads_of_derives h (s := .start) rfl fun _ => trivial
  have hdrain := Postfix.drain_connectives cs output
  rw [toPostfix, hrun, Outcome.ok_bind]
  simp only [Postfix.State.start, List.append_nil] at hflush ⊢
  simp [Postfix.State.finish, hdrain, hflush, Except.map]

/-- An expression is parsed to the tree it denotes, or refused because that tree is too deep. -/
theorem parse_of_derives {text : String} {tokens : List Token} {t : Tree}
    (htokens : tokenize text = .ok tokens)
    (h : Derives .disjunction (tokens.map Token.word) t) :
    parse text = if t.depth ≤ 256 then .ok t else .error (.tooDeep 256) := by
  have hentries := toPostfix_of_derives h
  have hbuild := buildTree_postorder t
  rw [parse_of_tokenize htokens, Tree.ofTokens, hentries, Outcome.ok_bind]
  exact hbuild

/-- NOT, AND and OR with a group, each at its own level. -/
theorem parse_of_derives_group :
    tokenize "!a & (b | c) | d" = .ok
      [⟨.not, 0⟩, ⟨.identifier "a", 1⟩, ⟨.and, 3⟩, ⟨.opening, 5⟩, ⟨.identifier "b", 6⟩, ⟨.or, 8⟩,
        ⟨.identifier "c", 10⟩, ⟨.closing, 11⟩, ⟨.or, 13⟩, ⟨.identifier "d", 15⟩] ∧
    Derives .disjunction
      [.not, .identifier "a", .and, .opening, .identifier "b", .or, .identifier "c", .closing, .or,
        .identifier "d"]
      (.or (.and (.not (.leaf "a")) (.or (.leaf "b") (.leaf "c"))) (.leaf "d")) ∧
    parse "!a & (b | c) | d" =
      .ok (.or (.and (.not (.leaf "a")) (.or (.leaf "b") (.leaf "c"))) (.leaf "d")) := by
  have htokens : tokenize "!a & (b | c) | d" = .ok
      [⟨.not, 0⟩, ⟨.identifier "a", 1⟩, ⟨.and, 3⟩, ⟨.opening, 5⟩, ⟨.identifier "b", 6⟩, ⟨.or, 8⟩,
        ⟨.identifier "c", 10⟩, ⟨.closing, 11⟩, ⟨.or, 13⟩, ⟨.identifier "d", 15⟩] :=
    tokenize_eq_ok.mpr ⟨by decide, by decide +kernel⟩
  have leaf (name : String) (hname : IsName name) :
      Derives .conjunction [.identifier name] (.leaf name) :=
    .negation (.primary (.identifier hname))
  have hnot := Derives.not (.primary (.identifier (show IsName "a" by decide)))
  have hor := Derives.or (.conjunction (leaf "b" (by decide))) (leaf "c" (by decide))
  have hand := Derives.and (.negation hnot) (.primary (.group hor))
  have hwords := Derives.or (.conjunction hand) (leaf "d" (by decide))
  exact ⟨htokens, hwords, (parse_of_derives htokens hwords).trans (if_pos (by decide))⟩

end FilterLogic.Expr
