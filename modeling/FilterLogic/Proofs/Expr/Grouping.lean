import FilterLogic.Proofs.Expr.Surroundings

/-!
# Groups in place of operands

An accepted sequence of tokens in parentheses puts out its own entries wherever it stands, and
leaves the stack as it was. An identifier does the same with its single operand. So where an
identifier is replaced by a group, the entries of the group come in the place of the operand, and
nothing else changes in the postfix order.
-/

namespace FilterLogic.Expr

namespace Postfix

/-- The end of an accepted sequence is reached alike when a parenthesis is closed there. -/
theorem close?_group {stack : List Pending} {output entries : List Postfix}
    (h : drain stack output = .ok entries) (f : Nat → Nat) (earlier : List Postfix)
    (position : Nat) (below : List Pending) :
    close? (stack.map (Pending.place f) ++ .group position :: below) (output ++ earlier) =
      some (entries ++ earlier, below) := by
  fun_induction drain stack output with
  | case1 output =>
      cases h
      rfl
  | case2 c stack output ih => exact ih h
  | case3 => cases h

/-- Tokens that put out certain entries wherever they stand, and leave the stack as it was. -/
def Puts (block : List Token) (entries : List Postfix) : Prop :=
  ∀ s : State, block.foldlM State.step s = .ok ⟨entries.reverse ++ s.output, s.stack, false⟩

/-- An accepted sequence in parentheses puts out its own entries. -/
theorem puts_group {inner : List Token} {entries : List Postfix}
    (h : toPostfix inner = .ok entries) {opening closing : Token}
    (hopening : opening.word = .opening) (hclosing : closing.word = .closing) :
    Puts (opening :: (inner ++ [closing])) entries := by
  intro s
  rw [toPostfix, Outcome.bind_eq_ok] at h
  obtain ⟨last, hrun, hfinish⟩ := h
  obtain ⟨hend, hdrain⟩ := State.finish_eq_ok.mp hfinish
  let w : Surroundings := ⟨id, s.output, .group opening.position :: s.stack⟩
  have hlast : last.within w = ⟨last.output ++ s.output,
      last.stack.map (Pending.place id) ++ .group opening.position :: s.stack, false⟩ := by
    rw [State.within, hend]
  have hinner : inner.foldlM State.step ⟨s.output, .group opening.position :: s.stack, false⟩ =
      .ok (last.within w) := by
    have hwithin := run_within (w := w) trivial (.inr ⟨last, hrun⟩)
    rw [hrun, show inner.map (Token.place w.place) = inner from List.map_id inner] at hwithin
    exact hwithin
  have hclose := close?_group hdrain id s.output opening.position s.stack
  rw [List.foldlM_cons, step_opening hopening, Outcome.ok_bind, List.foldlM_append, hinner,
    Outcome.ok_bind, List.foldlM_cons, hlast, step_closing hclosing hclose]
  rfl

/-- Tokens after which others have put out entries put out the same ones after those. -/
theorem complete_after (tokens : List Token) (stack : List Pending) (earlier : List Postfix) :
    (tokens.foldlM State.step ⟨earlier, stack, false⟩ >>= State.finish) =
      (tokens.foldlM State.step ⟨[], stack, false⟩ >>= State.finish).map
        (earlier.reverse ++ ·) := by
  let w : Surroundings := ⟨id, earlier, []⟩
  have hcomplete := complete_within (w := w) rfl tokens ⟨[], stack, false⟩
  have hstate : State.within ⟨[], stack, false⟩ w = ⟨earlier, stack, false⟩ := by
    simp [State.within, w]
  rw [hstate, show tokens.map (Token.place w.place) = tokens from List.map_id tokens] at hcomplete
  refine hcomplete.trans ?_
  cases tokens.foldlM State.step ⟨[], stack, false⟩ >>= State.finish with
  | error e => exact congrArg Except.error e.place_id
  | ok entries => rfl

end Postfix

/-- In an accepted sequence an identifier can be replaced by tokens that put out certain entries.
These come in the place of its operand. -/
theorem toPostfix_replace {before after : List Token} {token : Token} {name : String}
    {entries : List Postfix} (htoken : token.word = .identifier name)
    (h : toPostfix (before ++ token :: after) = .ok entries) :
    ∃ left right, entries = left ++ .operand name :: right ∧
      left.filterMap Postfix.name? = before.filterMap (fun t => t.word.name?) ∧
      ∀ block inner, Postfix.Puts block inner →
        toPostfix (before ++ (block ++ after)) = .ok (left ++ (inner ++ right)) := by
  rw [toPostfix, List.foldlM_append, bind_assoc, Outcome.bind_eq_ok] at h
  obtain ⟨mid, hbefore, h⟩ := h
  rw [List.foldlM_cons, Postfix.step_identifier htoken, Outcome.ok_bind,
    Postfix.complete_after] at h
  cases hright : after.foldlM Postfix.State.step ⟨[], mid.stack, false⟩ >>=
      Postfix.State.finish with
  | error e =>
      rw [hright] at h
      cases h
  | ok right =>
      rw [hright] at h
      cases h
      refine ⟨mid.output.reverse, right, ?_, ?_, fun block inner hblock => ?_⟩
      · simp
      · rw [List.filterMap_reverse, Postfix.names_run hbefore]
        simp [Postfix.State.start]
      · rw [toPostfix, List.foldlM_append, hbefore, Outcome.ok_bind, List.foldlM_append, hblock mid,
          Outcome.ok_bind, Postfix.complete_after, hright]
        simp [Except.map]

end FilterLogic.Expr
