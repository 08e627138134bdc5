import FilterLogic.Proofs.Expr.Lexemes
import FilterLogic.Proofs.Expr.Postorder

/-!
# What compilation keeps

Bringing tokens into postfix order moves connectives and drops parentheses, but it leaves the
operands where they are, and the parentheses on the stack are those that are open, the innermost
first. Building a tree loses nothing at all: what is on the stack lists the
entries taken so far, each tree with its true depth. So the tree of an accepted text has the
identifiers of the text for leaves, in their order, and is not too deep.
-/

namespace FilterLogic.Expr

/-- The name of an identifier. -/
def Word.name? : Word → Option String
  | .identifier name => some name
  | _ => none

/-- Whether a word is a parenthesis. -/
def Word.isParenthesis : Word → Bool
  | .opening | .closing => true
  | _ => false

namespace Postfix

/-- The name of an operand. -/
def name? : Postfix → Option String
  | .operand name => some name
  | .connective _ => none

/-- What a token that is taken does. -/
theorem State.step_eq_ok {s s' : State} {t : Token} (h : s.step t = .ok s') :
    match t.word with
    | .identifier name => s' = ⟨.operand name :: s.output, s.stack, false⟩
    | .not => s' = ⟨s.output, .connective .not :: s.stack, true⟩
    | .and => s' = s.binary .and
    | .or => s' = s.binary .or
    | .opening => s' = ⟨s.output, .group t.position :: s.stack, false⟩
    | .closing => ∃ output stack, close? s.stack s.output = some (output, stack) ∧
        s' = ⟨output, stack, false⟩ := by
  rw [State.step] at h
  split at h
  · cases h
  · cases hword : t.word with
    | closing =>
        simp only [hword] at h ⊢
        cases hclose : close? s.stack s.output with
        | none =>
            rw [hclose] at h
            cases h
        | some found =>
            rw [hclose] at h
            cases h
            exact ⟨found.1, found.2, rfl, rfl⟩
    | _ =>
        simp only [hword] at h ⊢
        exact (Except.ok.inj h).symm

theorem State.finish_eq_ok {s : State} {entries : List Postfix} :
    s.finish = .ok entries ↔ s.afterNot = false ∧ drain s.stack s.output = .ok entries.reverse := by
  rw [State.finish]
  cases s.afterNot with
  | true => simp
  | false =>
      cases drain s.stack s.output with
      | error e => simp [Except.map]
      | ok drained => simp [Except.map, List.reverse_eq_iff]

theorem names_release (limit : Nat) (stack : List Pending) (output : List Postfix) :
    (release limit stack output).1.filterMap name? = output.filterMap name? := by
  fun_induction release limit stack output with
  | case1 => rfl
  | case2 stack output c hc ih => exact ih
  | case3 => rfl

theorem names_close? {stack stack' : List Pending} {output output' : List Postfix}
    (h : close? stack output = some (output', stack')) :
    output'.filterMap name? = output.filterMap name? := by
  fun_induction close? stack output with
  | case1 => cases h
  | case2 c stack output ih => exact ih h
  | case3 position stack output =>
      cases h
      rfl

theorem names_drain {stack : List Pending} {output entries : List Postfix}
    (h : drain stack output = .ok entries) :
    entries.filterMap name? = output.filterMap name? := by
  fun_induction drain stack output with
  | case1 =>
      cases h
      rfl
  | case2 c stack output ih => exact ih h
  | case3 => cases h

/-- A token that is taken puts its operand out, if it is one, and no other. -/
theorem names_step {s s' : State} {t : Token} (h : s.step t = .ok s') :
    s'.output.filterMap name? = t.word.name?.toList ++ s.output.filterMap name? := by
  have hstep := State.step_eq_ok h
  cases hword : t.word with
  | identifier name =>
      rw [hword] at hstep
      rw [hstep]
      rfl
  | not =>
      rw [hword] at hstep
      rw [hstep]
      rfl
  | and =>
      rw [hword] at hstep
      rw [hstep]
      exact names_release _ _ _
  | or =>
      rw [hword] at hstep
      rw [hstep]
      exact names_release _ _ _
  | opening =>
      rw [hword] at hstep
      rw [hstep]
      rfl
  | closing =>
      rw [hword] at hstep
      obtain ⟨output, stack, hclose, rfl⟩ := hstep
      exact names_close? hclose

theorem names_run {tokens : List Token} {s s' : State}
    (h : tokens.foldlM State.step s = .ok s') :
    s'.output.filterMap name? =
      (tokens.filterMap fun t => t.word.name?).reverse ++ s.output.filterMap name? := by
  induction tokens generalizing s with
  | nil =>
      cases h
      rfl
  | cons t tokens ih =>
      rw [List.foldlM_cons, Outcome.bind_eq_ok] at h
      obtain ⟨mid, hstep, hrun⟩ := h
      rw [ih hrun, names_step hstep]
      cases hname : t.word.name? with
      | none => simp [hname]
      | some name => simp [hname]

/-- The position of an open parenthesis that waits. -/
def position? : Pending → Option Nat
  | .connective _ => none
  | .group position => some position

/-- The positions of the open parentheses on a stack. -/
def positions (stack : List Pending) : List Nat := stack.filterMap position?

theorem positions_release (limit : Nat) (stack : List Pending) (output : List Postfix) :
    positions (release limit stack output).2 = positions stack := by
  fun_induction release limit stack output with
  | case1 => rfl
  | case2 c stack output hc ih => exact ih
  | case3 => rfl

theorem close?_eq_none {stack : List Pending} (output : List Postfix) :
    close? stack output = none ↔ positions stack = [] := by
  fun_induction close? stack output with
  | case1 => exact iff_of_true rfl rfl
  | case2 c stack output ih => exact ih
  | case3 position stack output => simp [positions, position?]

/-- A parenthesis that is closed is the innermost one on the stack. -/
theorem positions_of_close? {stack stack' : List Pending} {output output' : List Postfix}
    (h : close? stack output = some (output', stack')) :
    ∃ position, positions stack = position :: positions stack' := by
  fun_induction close? stack output with
  | case1 => cases h
  | case2 c stack output ih => exact ih h
  | case3 position stack output =>
      cases h
      exact ⟨position, rfl⟩

/-- The stack cannot be emptied exactly if there is a position on it, and the innermost one is
reported. -/
theorem drain_eq_error {stack : List Pending} (output : List Postfix) {e : SyntaxError} :
    drain stack output = .error e ↔ ∃ position,
      (positions stack).head? = some position ∧ e = .mismatchedParentheses position := by
  fun_induction drain stack output with
  | case1 => simp [positions]
  | case2 c stack output ih => exact ih
  | case3 position stack output => simp [positions, position?, eq_comm]

theorem positions_of_drain {stack : List Pending} {output entries : List Postfix}
    (h : drain stack output = .ok entries) : positions stack = [] := by
  cases hopen : positions stack with
  | nil => rfl
  | cons position rest =>
      have herror : drain stack output = .error (.mismatchedParentheses position) :=
        (drain_eq_error output).mpr ⟨position, congrArg List.head? hopen, rfl⟩
      rw [h] at herror
      cases herror

/-- A token that is taken opens or closes the innermost parenthesis, or leaves all as they are. -/
theorem positions_step {s s' : State} {t : Token} (h : s.step t = .ok s') :
    match t.word with
    | .opening => positions s'.stack = t.position :: positions s.stack
    | .closing => ∃ position, positions s.stack = position :: positions s'.stack
    | _ => positions s'.stack = positions s.stack := by
  have hstep := State.step_eq_ok h
  cases hword : t.word with
  | and =>
      rw [hword] at hstep
      rw [hstep]
      exact positions_release _ _ _
  | or =>
      rw [hword] at hstep
      rw [hstep]
      exact positions_release _ _ _
  | closing =>
      rw [hword] at hstep
      obtain ⟨output, stack, hclose, rfl⟩ := hstep
      exact positions_of_close? hclose
  | _ =>
      rw [hword] at hstep
      subst hstep
      rfl

end Postfix

/-- The operands in postfix order are the identifiers among the tokens, in their order. -/
theorem names_of_toPostfix {tokens : List Token} {entries : List Postfix}
    (h : toPostfix tokens = .ok entries) :
    entries.filterMap Postfix.name? = tokens.filterMap fun t => t.word.name? := by
  rw [toPostfix, Outcome.bind_eq_ok] at h
  obtain ⟨last, hrun, hfinish⟩ := h
  have hnames := Postfix.names_drain (Postfix.State.finish_eq_ok.mp hfinish).2
  rw [Postfix.names_run hrun, List.filterMap_reverse] at hnames
  simpa [Postfix.State.start] using hnames

/-- The operands in the postfix order of a tree are its leaves. -/
theorem Tree.names_postorder (t : Tree) : t.postorder.filterMap Postfix.name? = t.leaves := by
  induction t with
  | leaf name => rfl
  | not t ih => simp [postorder, leaves, Postfix.name?, ih]
  | and l r ihl ihr => simp [postorder, leaves, Postfix.name?, ihl, ihr]
  | or l r ihl ihr => simp [postorder, leaves, Postfix.name?, ihl, ihr]

namespace Subtree

theorem push_eq_ok {node : Subtree} {stack stack' : List Subtree} :
    push node stack = .ok stack' ↔ node.depth ≤ maxDepth ∧ node :: stack = stack' := by
  by_cases h : node.depth ≤ maxDepth
  · simp [push_of_le h, h]
  · simp [push_of_lt (Nat.not_le.mp h), h]

/-- Trees that are held with their true depths, none of them too deep. -/
def Sound (stack : List Subtree) : Prop :=
  ∀ node ∈ stack, node.depth = node.tree.depth ∧ node.depth ≤ maxDepth

/-- The postfix orders of the trees on a stack, that of the lowest first. -/
def listing (stack : List Subtree) : List Postfix :=
  stack.reverse.flatMap fun node => node.tree.postorder

theorem listing_cons (node : Subtree) (stack : List Subtree) :
    listing (node :: stack) = listing stack ++ node.tree.postorder := by
  simp [listing]

/-- An entry that is taken is listed after the others, and the stack stays sound. -/
theorem step_eq_ok {stack stack' : List Subtree} {entry : Postfix}
    (h : step stack entry = .ok stack') (hs : Sound stack) :
    Sound stack' ∧ listing stack' = listing stack ++ [entry] := by
  unfold step at h
  split at h
  · next name stack =>
      obtain ⟨hdepth, rfl⟩ := push_eq_ok.mp h
      refine ⟨?_, by rw [listing_cons, Tree.postorder]⟩
      exact List.forall_mem_cons.mpr ⟨⟨rfl, hdepth⟩, hs⟩
  · next x stack =>
      obtain ⟨hdepth, rfl⟩ := push_eq_ok.mp h
      obtain ⟨hx, hs⟩ := List.forall_mem_cons.mp hs
      refine ⟨?_, by simp [listing_cons, Tree.postorder]⟩
      exact List.forall_mem_cons.mpr ⟨⟨by simp [Tree.depth, hx.1], hdepth⟩, hs⟩
  · next r l stack =>
      obtain ⟨hdepth, rfl⟩ := push_eq_ok.mp h
      obtain ⟨hr, hs⟩ := List.forall_mem_cons.mp hs
      obtain ⟨hl, hs⟩ := List.forall_mem_cons.mp hs
      refine ⟨?_, by simp [listing_cons, Tree.postorder]⟩
      exact List.forall_mem_cons.mpr ⟨⟨by simp [Tree.depth, hl.1, hr.1], hdepth⟩, hs⟩
  · next r l stack =>
      obtain ⟨hdepth, rfl⟩ := push_eq_ok.mp h
      obtain ⟨hr, hs⟩ := List.forall_mem_cons.mp hs
      obtain ⟨hl, hs⟩ := List.forall_mem_cons.mp hs
      refine ⟨?_, by simp [listing_cons, Tree.postorder]⟩
      exact List.forall_mem_cons.mpr ⟨⟨by simp [Tree.depth, hl.1, hr.1], hdepth⟩, hs⟩
  · cases h

theorem listing_run {entries : List Postfix} {stack stack' : List Subtree}
    (h : entries.foldlM step stack = .ok stack') (hs : Sound stack) :
    Sound stack' ∧ listing stack' = listing stack ++ entries := by
  induction entries generalizing stack with
  | nil =>
      cases h
      exact ⟨hs, (List.append_nil _).symm⟩
  | cons entry entries ih =>
      rw [List.foldlM_cons, Outcome.bind_eq_ok] at h
      obtain ⟨mid, hstep, hrun⟩ := h
      obtain ⟨hmid, hentry⟩ := step_eq_ok hstep hs
      obtain ⟨hlast, hentries⟩ := ih hrun hmid
      refine ⟨hlast, ?_⟩
      rw [hentries, hentry, List.append_assoc, List.singleton_append]

end Subtree

/-- What is built is a tree that has the entries for its postfix order and is not too deep. -/
theorem buildTree_eq_ok {entries : List Postfix} {t : Tree} :
    buildTree entries = .ok t ↔ t.postorder = entries ∧ t.depth ≤ maxDepth := by
  constructor
  · intro h
    rw [buildTree, Outcome.bind_eq_ok] at h
    obtain ⟨stack, hrun, hsingle⟩ := h
    have hstart : Subtree.Sound [] := List.forall_mem_nil _
    obtain ⟨hsound, hlisting⟩ := Subtree.listing_run hrun hstart
    unfold Subtree.single at hsingle
    split at hsingle
    · next root =>
        obtain rfl : root.tree = t := Except.ok.inj hsingle
        obtain ⟨hdepth, hle⟩ := hsound root (List.mem_singleton.mpr rfl)
        refine ⟨?_, hdepth ▸ hle⟩
        simpa [Subtree.listing] using hlisting
    · cases hsingle
  · rintro ⟨rfl, hdepth⟩
    rw [buildTree_postorder, if_pos hdepth]

/-- A text is accepted exactly if its tokens come out in the postfix order of a tree that is not too
deep. -/
theorem parse_eq_ok {text : String} {t : Tree} :
    parse text = .ok t ↔ ∃ tokens, tokenize text = .ok tokens ∧
      toPostfix tokens = .ok t.postorder ∧ t.depth ≤ maxDepth := by
  constructor
  · intro h
    rw [parse, Outcome.bind_eq_ok] at h
    obtain ⟨tokens, htokens, htree⟩ := h
    rw [Tree.ofTokens, Outcome.bind_eq_ok] at htree
    obtain ⟨entries, hentries, hbuild⟩ := htree
    obtain ⟨rfl, hdepth⟩ := buildTree_eq_ok.mp hbuild
    exact ⟨tokens, htokens, hentries, hdepth⟩
  · rintro ⟨tokens, htokens, hentries, hdepth⟩
    rw [parse_of_tokenize htokens, Tree.ofTokens, hentries, Outcome.ok_bind, buildTree_eq_ok]
    exact ⟨rfl, hdepth⟩

/-- The tree of an accepted text has the identifiers of the text at its leaves. -/
theorem leaves_of_parse {text : String} {t : Tree} (h : parse text = .ok t) :
    ∃ tokens, tokenize text = .ok tokens ∧
      t.leaves = tokens.filterMap (fun token => token.word.name?) ∧ t.depth ≤ maxDepth := by
  obtain ⟨tokens, htokens, hentries, hdepth⟩ := parse_eq_ok.mp h
  refine ⟨tokens, htokens, ?_, hdepth⟩
  rw [← t.names_postorder, names_of_toPostfix hentries]

/-- The leaves of an accepted text can stand as identifiers. -/
theorem isName_of_parse {text : String} {t : Tree} (h : parse text = .ok t) :
    ∀ name ∈ t.leaves, IsName name := by
  obtain ⟨tokens, htokens, hleaves, -⟩ := leaves_of_parse h
  intro name hname
  rw [hleaves, List.mem_filterMap] at hname
  obtain ⟨token, htoken, hword⟩ := hname
  have hidentifier : token.word = .identifier name := by
    cases hw : token.word with
    | identifier other =>
        rw [hw] at hword
        rw [Option.some.inj hword]
    | _ =>
        rw [hw] at hword
        cases hword
  apply isName_of_tokenize htokens
  exact List.mem_map.mpr ⟨token, htoken, hidentifier⟩

end FilterLogic.Expr
