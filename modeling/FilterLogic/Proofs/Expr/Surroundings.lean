import FilterLogic.Proofs.Expr.Compilation
import FilterLogic.Proofs.Expr.Completeness

/-!
# Tokens in other surroundings

A sequence of tokens can be taken at other positions, after other entries and above another stack.
None of this makes a difference to what the tokens do. A position is only kept for an open
parenthesis, and only an error shows it; entries that have been put out are never looked at again;
and what waits below an open parenthesis is not looked at before that parenthesis is closed.
-/

namespace FilterLogic

/-- A fault with the position of its parenthesis moved. -/
def SyntaxError.place (f : Nat → Nat) : SyntaxError → SyntaxError
  | .mismatchedParentheses position => .mismatchedParentheses (f position)
  | fault => fault

@[simp] theorem SyntaxError.place_id (fault : SyntaxError) : fault.place id = fault := by
  cases fault with
  | mismatchedParentheses position => rfl
  | _ => rfl

namespace Expr

/-- A token moved to another position. -/
def Token.place (f : Nat → Nat) (t : Token) : Token := ⟨t.word, f t.position⟩

/-- An entry on the stack with the position of its parenthesis moved. -/
def Pending.place (f : Nat → Nat) : Pending → Pending
  | .connective c => .connective c
  | .group position => .group (f position)

@[simp] theorem Pending.place_id : Pending.place id = id := by
  funext pending
  cases pending with
  | connective c => rfl
  | group position => rfl

namespace Postfix

/-- Where tokens are taken: how their positions are moved, the entries that have been put out
earlier, and what waits on the stack below. -/
structure Surroundings where
  place : Nat → Nat
  earlier : List Postfix
  below : List Pending

/-- A state in other surroundings. -/
def State.within (s : State) (w : Surroundings) : State :=
  ⟨s.output ++ w.earlier, s.stack.map (Pending.place w.place) ++ w.below, s.afterNot⟩

variable {w : Surroundings}

theorem release_within (hbelow : Shielded 0 w.below) (limit : Nat) (stack : List Pending)
    (output : List Postfix) :
    release limit (stack.map (Pending.place w.place) ++ w.below) (output ++ w.earlier) =
      ((release limit stack output).1 ++ w.earlier,
        (release limit stack output).2.map (Pending.place w.place) ++ w.below) := by
  fun_induction release limit stack output with
  | case1 c stack output hc =>
      rw [List.map_cons, List.cons_append, Pending.place, release, if_pos hc]
  | case2 c stack output hc ih =>
      rw [List.map_cons, List.cons_append, Pending.place, release, if_neg hc]
      exact ih
  | case3 stack output hstack =>
      cases stack with
      | nil =>
          have hshield : Shielded limit w.below := hbelow.mono (Nat.zero_le limit)
          have hnone : ∀ c ∈ ([] : List Connective), limit ≤ c.precedence := by simp
          exact release_append hnone hshield (output ++ w.earlier)
      | cons top stack =>
          cases top with
          | connective c => exact absurd rfl (hstack c stack)
          | group position => rfl

theorem close?_within {stack : List Pending} {output : List Postfix}
    (h : w.below = [] ∨ (close? stack output).isSome = true) :
    close? (stack.map (Pending.place w.place) ++ w.below) (output ++ w.earlier) =
      (close? stack output).map fun found =>
        (found.1 ++ w.earlier, found.2.map (Pending.place w.place) ++ w.below) := by
  fun_induction close? stack output with
  | case1 output =>
      rcases h with h | h
      · rw [h]
        rfl
      · cases h
  | case2 c stack output ih => exact ih h
  | case3 position stack output => rfl

theorem drain_within (hbelow : w.below = []) (stack : List Pending) (output : List Postfix) :
    drain (stack.map (Pending.place w.place) ++ w.below) (output ++ w.earlier) =
      ((drain stack output).map (· ++ w.earlier)).mapError (SyntaxError.place w.place) := by
  rw [hbelow, List.append_nil]
  fun_induction drain stack output with
  | case1 => rfl
  | case2 c stack output ih => exact ih
  | case3 position stack output => rfl

theorem binary_within (hbelow : Shielded 0 w.below) (s : State) (c : Connective) :
    (s.within w).binary c = (s.binary c).within w := by
  simp only [State.binary, State.within, release_within hbelow, List.map_cons, List.cons_append,
    Pending.place]

/-- A token is taken alike in all surroundings, or reports its fault at its new place. With other
entries below, it must not be a closing parenthesis too many. -/
theorem step_within {s : State} {t : Token} (hbelow : Shielded 0 w.below)
    (h : w.below = [] ∨ ∃ next, s.step t = .ok next) :
    (s.within w).step (t.place w.place) =
      ((s.step t).map (·.within w)).mapError (SyntaxError.place w.place) := by
  obtain ⟨output, stack, afterNot⟩ := s
  obtain ⟨word, position⟩ := t
  by_cases hnot : (afterNot && !beginsOperand word) = true
  · simp only [State.step, State.within, Token.place, hnot, if_true]
    rfl
  · cases word with
    | and =>
        simp only [State.step, State.within, Token.place, hnot]
        exact congrArg Except.ok (binary_within hbelow ⟨output, stack, afterNot⟩ .and)
    | or =>
        simp only [State.step, State.within, Token.place, hnot]
        exact congrArg Except.ok (binary_within hbelow ⟨output, stack, afterNot⟩ .or)
    | closing =>
        simp only [State.step, hnot] at h
        have hclose : w.below = [] ∨ (close? stack output).isSome = true := by
          rcases h with hnil | ⟨next, hnext⟩
          · exact .inl hnil
          · refine .inr ?_
            cases hfound : close? stack output with
            | none =>
                rw [hfound] at hnext
                cases hnext
            | some found => rfl
        simp only [State.step, State.within, Token.place, hnot, close?_within hclose]
        cases close? stack output with
        | none => rfl
        | some found => rfl
    | _ =>
        simp only [State.step, State.within, Token.place, hnot]
        rfl

theorem run_within {tokens : List Token} {s : State} (hbelow : Shielded 0 w.below)
    (h : w.below = [] ∨ ∃ last, tokens.foldlM State.step s = .ok last) :
    (tokens.map (Token.place w.place)).foldlM State.step (s.within w) =
      ((tokens.foldlM State.step s).map (·.within w)).mapError (SyntaxError.place w.place) := by
  induction tokens generalizing s with
  | nil => rfl
  | cons t tokens ih =>
      have hstep : w.below = [] ∨ ∃ next, s.step t = .ok next := by
        rcases h with hnil | ⟨last, hlast⟩
        · exact .inl hnil
        · obtain ⟨next, hnext, -⟩ := Outcome.bind_eq_ok.mp hlast
          exact .inr ⟨next, hnext⟩
      rw [List.map_cons, List.foldlM_cons, List.foldlM_cons, step_within hbelow hstep]
      cases hnext : s.step t with
      | error e => rfl
      | ok next =>
          apply ih
          rcases h with hnil | ⟨last, hlast⟩
          · exact .inl hnil
          · rw [List.foldlM_cons, hnext, Outcome.ok_bind] at hlast
            exact .inr ⟨last, hlast⟩

theorem finish_within (hbelow : w.below = []) (s : State) :
    (s.within w).finish =
      (s.finish.map (w.earlier.reverse ++ ·)).mapError (SyntaxError.place w.place) := by
  obtain ⟨output, stack, afterNot⟩ := s
  cases afterNot with
  | true => rfl
  | false =>
      simp only [State.finish, State.within, drain_within hbelow]
      cases drain stack output with
      | error e => rfl
      | ok drained => exact congrArg Except.ok List.reverse_append

/-- Tokens that are taken to their end in other surroundings put out the same entries after those
that have been put out. -/
theorem complete_within (hbelow : w.below = []) (tokens : List Token) (s : State) :
    ((tokens.map (Token.place w.place)).foldlM State.step (s.within w) >>= State.finish) =
      ((tokens.foldlM State.step s >>= State.finish).map (w.earlier.reverse ++ ·)).mapError
        (SyntaxError.place w.place) := by
  have hshield : Shielded 0 w.below := by
    rw [hbelow]
    trivial
  rw [run_within hshield (.inl hbelow)]
  cases tokens.foldlM State.step s with
  | error e => rfl
  | ok last => exact finish_within hbelow last

end Postfix

/-- Moved tokens are brought into the same order, or have the same fault at its new place. -/
theorem toPostfix_place (f : Nat → Nat) (tokens : List Token) :
    toPostfix (tokens.map (Token.place f)) = (toPostfix tokens).mapError (SyntaxError.place f) := by
  let w : Postfix.Surroundings := ⟨f, [], []⟩
  have hcomplete := Postfix.complete_within (w := w) rfl tokens .start
  rw [toPostfix, toPostfix]
  refine hcomplete.trans ?_
  cases tokens.foldlM Postfix.State.step .start >>= Postfix.State.finish with
  | error e => rfl
  | ok entries => rfl

theorem map_place_of_words {tokens tokens' : List Token}
    (h : tokens.map Token.word = tokens'.map Token.word) (position : Nat) :
    tokens.map (Token.place fun _ => position) = tokens'.map (Token.place fun _ => position) := by
  have hplace (ts : List Token) : ts.map (Token.place fun _ => position) =
      (ts.map Token.word).map fun word => ⟨word, position⟩ := by
    rw [List.map_map]
    rfl
  rw [hplace, hplace, h]

/-- The words of some tokens decide about their postfix order. -/
theorem toPostfix_of_words {tokens tokens' : List Token}
    (h : tokens.map Token.word = tokens'.map Token.word) {entries : List Postfix}
    (hentries : toPostfix tokens = .ok entries) : toPostfix tokens' = .ok entries := by
  have hsame := congrArg toPostfix (map_place_of_words h 0)
  rw [toPostfix_place, toPostfix_place, hentries] at hsame
  exact Outcome.mapError_eq_ok.mp hsame.symm

end Expr

end FilterLogic
