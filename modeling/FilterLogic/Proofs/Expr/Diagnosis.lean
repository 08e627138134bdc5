import FilterLogic.Proofs.Expr.Parentheses
import Mathlib.Data.Nat.Find

/-!
# The faults of parentheses and of NOT

Tokens are brought into postfix order unless they have one of two faults: a NOT before something
that begins no operand, or a parenthesis without a partner. Of several faults the one is reported
that is met first when the tokens are read, and what is open or unfinished in the end comes last.

The stack holds the open parentheses between waiting connectives, and these are moved about while
the tokens are read. What carries the proof is that the parentheses on it are at all times those of
the places that the words read so far leave open.
-/

namespace FilterLogic.Expr

/-- Whether there is a word at a place that begins no operand, right after a NOT. -/
def Dangles (words : List Word) : Nat → Prop
  | 0 => False
  | i + 1 => words[i]? = some .not ∧ ∃ w ∈ [Word.and, .or, .closing], words[i + 1]? = some w

/-- What is wrong at a place. That a NOT has no operand counts first. -/
inductive FaultAt (tokens : List Token) (i : Nat) : SyntaxError → Prop
  | dangling (h : Dangles (tokens.map Token.word) i) : FaultAt tokens i (.missingOperand .not)
  | unopened {t} (ht : tokens[i]? = some t) (hnot : ¬ Dangles (tokens.map Token.word) i)
      (h : Unopened (tokens.map Token.word) i) :
      FaultAt tokens i (.mismatchedParentheses t.position)

/-- What is wrong with a sequence of tokens: what is wrong at the first place where anything is, or
else a NOT at the end, or else the last parenthesis that is not closed. -/
inductive Diagnosis (tokens : List Token) : SyntaxError → Prop
  | place {i e} (h : FaultAt tokens i e) (hfirst : ∀ j < i, ∀ e', ¬ FaultAt tokens j e') :
      Diagnosis tokens e
  | ended (hnone : ∀ i e, ¬ FaultAt tokens i e)
      (h : (tokens.map Token.word).getLast? = some .not) : Diagnosis tokens (.missingOperand .not)
  | unclosed {i t} (hnone : ∀ i e, ¬ FaultAt tokens i e)
      (hnot : (tokens.map Token.word).getLast? ≠ some .not) (ht : tokens[i]? = some t)
      (h : Unclosed (tokens.map Token.word) i)
      (hlast : ∀ j, i < j → ¬ Unclosed (tokens.map Token.word) j) :
      Diagnosis tokens (.mismatchedParentheses t.position)

theorem FaultAt.not_length_le {tokens : List Token} {i : Nat} {e : SyntaxError}
    (h : FaultAt tokens i e) : ¬ tokens.length ≤ i := by
  intro hle
  have hnone : (tokens.map Token.word)[i]? = none := by simpa using hle
  cases h with
  | dangling h =>
      cases i with
      | zero => exact h
      | succ i =>
          obtain ⟨-, w, -, hw⟩ := h
          rw [hnone] at hw
          cases hw
  | unopened _ _ h =>
      rw [h.1] at hnone
      cases hnone

theorem dangles_iff (before : List Token) (w : Word) (after : List Word) :
    Dangles (before.map Token.word ++ w :: after) before.length ↔
      (before.map Token.word).getLast? = some .not ∧ Postfix.beginsOperand w = false := by
  have hword : (∃ v ∈ [Word.and, .or, .closing], w = v) ↔ Postfix.beginsOperand w = false := by
    cases w <;> simp [Postfix.beginsOperand]
  rcases List.eq_nil_or_concat before with rfl | ⟨first, last, rfl⟩
  · simp [Dangles]
  · rw [← hword]
    simp [Dangles]

/-- The position of the token at a place. -/
def positionAt (tokens : List Token) (i : Nat) : Nat := (tokens[i]?.map Token.position).getD 0

namespace Postfix

/-- A token is refused where a NOT before it has no operand, or else where it closes a parenthesis
and none is on the stack. -/
theorem State.step_eq_error {s : State} {t : Token} {e : SyntaxError} : s.step t = .error e ↔
    (s.afterNot = true ∧ beginsOperand t.word = false ∧ e = .missingOperand .not) ∨
    (¬ (s.afterNot = true ∧ beginsOperand t.word = false) ∧ t.word = .closing ∧
      positions s.stack = [] ∧ e = .mismatchedParentheses t.position) := by
  rw [State.step]
  by_cases hnot : s.afterNot = true ∧ beginsOperand t.word = false
  · have hguard : (s.afterNot && !beginsOperand t.word) = true := by simpa using hnot
    rw [if_pos hguard]
    simp only [hnot, true_and, not_true_eq_false, false_and, or_false, Except.error.injEq]
    exact eq_comm
  · have hguard : ¬ (s.afterNot && !beginsOperand t.word) = true := by simpa using hnot
    have hnever : ¬ (s.afterNot = true ∧ beginsOperand t.word = false ∧
        e = .missingOperand .not) := fun h => hnot ⟨h.1, h.2.1⟩
    rw [if_neg hguard, or_iff_right hnever, and_iff_right hnot]
    cases hword : t.word with
    | closing =>
        cases hclose : close? s.stack s.output with
        | none => simp [(close?_eq_none s.output).mp hclose, eq_comm]
        | some found =>
            obtain ⟨position, hposition⟩ := positions_of_close? hclose
            simp [hposition]
    | _ => simp

theorem State.afterNot_step {s s' : State} {t : Token} (h : s.step t = .ok s') :
    s'.afterNot = true ↔ t.word = .not := by
  have hnext := State.step_eq_ok h
  cases hword : t.word with
  | closing =>
      rw [hword] at hnext
      obtain ⟨output, stack, -, rfl⟩ := hnext
      simp
  | _ =>
      rw [hword] at hnext
      rw [hnext]
      simp [State.binary]

/-- What the words read so far tell about a state: whether a NOT is the last one, and which open
parentheses are on the stack. -/
structure Follows (tokens before : List Token) (s : State) : Prop where
  afterNot : s.afterNot = true ↔ (before.map Token.word).getLast? = some .not
  opened : ∃ places, LeavesOpen (before.map Token.word) places ∧
    positions s.stack = places.map (positionAt tokens)

namespace Follows

variable {tokens before after : List Token} {s s' : State} {t : Token} {e : SyntaxError}

theorem start (tokens : List Token) : Follows tokens [] .start where
  afterNot := by simp [State.start]
  opened := ⟨[], .balanced .nil, rfl⟩

/-- What can be wrong at the next place is what the state refuses there. -/
theorem faultAt_iff (h : Follows tokens before s) (htokens : tokens = before ++ t :: after) :
    FaultAt tokens before.length e ↔ s.step t = .error e := by
  have hwords : tokens.map Token.word =
      before.map Token.word ++ t.word :: after.map Token.word := by simp [htokens]
  have hplace : tokens[before.length]? = some t := by simp [htokens]
  have hdangles : Dangles (tokens.map Token.word) before.length ↔
      s.afterNot = true ∧ beginsOperand t.word = false := by
    rw [h.afterNot, hwords]
    exact dangles_iff before t.word _
  have hunopened : Unopened (tokens.map Token.word) before.length ↔
      t.word = .closing ∧ positions s.stack = [] := by
    obtain ⟨places, hplaces, hstack⟩ := h.opened
    rw [hstack, List.map_eq_nil_iff]
    cases hword : t.word with
    | closing =>
        rw [hword] at hwords
        rw [hwords, ← before.length_map, hplaces.unopened_iff]
        exact (and_iff_right rfl).symm
    | _ =>
        refine iff_of_false (fun hu => ?_) nofun
        obtain ⟨hclosing, -⟩ := hu
        rw [hwords] at hclosing
        simp [hword] at hclosing
  rw [State.step_eq_error]
  constructor
  · intro hfault
    cases hfault with
    | dangling hd => exact .inl ⟨(hdangles.mp hd).1, (hdangles.mp hd).2, rfl⟩
    | @unopened t' ht hnot hu =>
        obtain rfl := Option.some.inj (hplace.symm.trans ht)
        obtain ⟨hclosing, hstack⟩ := hunopened.mp hu
        exact .inr ⟨mt hdangles.mpr hnot, hclosing, hstack, rfl⟩
  · rintro (⟨hafter, hword, rfl⟩ | ⟨hnot, hclosing, hstack, rfl⟩)
    · exact .dangling (hdangles.mpr ⟨hafter, hword⟩)
    · exact .unopened hplace (mt hdangles.mp hnot) (hunopened.mpr ⟨hclosing, hstack⟩)

/-- A token that is taken keeps what the words tell. -/
theorem step (h : Follows tokens before s) (htokens : tokens = before ++ t :: after)
    (hstep : s.step t = .ok s') : Follows tokens (before ++ [t]) s' where
  afterNot := by
    rw [State.afterNot_step hstep, List.map_append, List.map_singleton, List.getLast?_concat,
      Option.some.injEq]
  opened := by
    obtain ⟨places, hplaces, hstack⟩ := h.opened
    have hnext := positions_step hstep
    rw [List.map_append, List.map_singleton]
    cases hword : t.word with
    | opening =>
        rw [hword] at hnext
        have hposition : positionAt tokens before.length = t.position := by
          simp [positionAt, htokens]
        refine ⟨before.length :: places, ?_, ?_⟩
        · simpa using hplaces.concat_opening
        · rw [hnext, hstack, List.map_cons, hposition]
    | closing =>
        rw [hword] at hnext
        obtain ⟨position, hpositions⟩ := hnext
        -- the token was taken, so a place is open, and it is the innermost one that is closed
        rw [hpositions] at hstack
        obtain ⟨place, rest, rfl, -, hrest⟩ := List.map_eq_cons_iff.mp hstack.symm
        exact ⟨rest, hplaces.concat_closing, hrest.symm⟩
    | _ =>
        rw [hword] at hnext
        exact ⟨places, hplaces.concat_other rfl, hnext.trans hstack⟩

end Follows

variable {tokens before rest : List Token} {s : State}

/-- Of the places from the next one on, the first at which anything is wrong decides how a run
fails. -/
theorem run_eq_error {e : SyntaxError} (h : Follows tokens before s)
    (htokens : tokens = before ++ rest) :
    rest.foldlM State.step s = .error e ↔ ∃ i, before.length ≤ i ∧ FaultAt tokens i e ∧
      ∀ j, before.length ≤ j → j < i → ∀ e', ¬ FaultAt tokens j e' := by
  -- the tokens left shrink while `Follows` goes over to the state after each of them
  induction rest generalizing before s with
  | nil =>
      rw [List.append_nil] at htokens
      subst htokens
      refine iff_of_false nofun ?_
      rintro ⟨i, hle, hfault, -⟩
      exact hfault.not_length_le hle
  | cons t rest ih =>
      have hhere {e' : SyntaxError} := h.faultAt_iff (e := e') htokens
      have hsplit : tokens = (before ++ [t]) ++ rest := by simp [htokens]
      rw [List.foldlM_cons, Outcome.bind_eq_error, ← hhere]
      constructor
      · rintro (hfault | ⟨next, hstep, hrun⟩)
        · exact ⟨before.length, Nat.le_refl _, hfault, fun j hle hlt => by omega⟩
        · obtain ⟨i, hle, hfault, hfirst⟩ := (ih (h.step htokens hstep) hsplit).mp hrun
          rw [List.length_append, List.length_singleton] at hle hfirst
          refine ⟨i, by omega, hfault, fun j hj hlt e' => ?_⟩
          rcases Nat.eq_or_lt_of_le hj with rfl | hj
          · rw [hhere, hstep]
            exact nofun
          · exact hfirst j hj hlt e'
      · rintro ⟨i, hle, hfault, hfirst⟩
        rcases Nat.eq_or_lt_of_le hle with rfl | hlt
        · exact .inl hfault
        · cases hstep : s.step t with
          | error e' => exact absurd (hhere.mpr hstep) (hfirst _ (Nat.le_refl _) hlt e')
          | ok next =>
              refine .inr ⟨next, rfl, (ih (h.step htokens hstep) hsplit).mpr ⟨i, ?_, hfault, ?_⟩⟩
              · rw [List.length_append]
                exact hlt
              · intro j hj
                rw [List.length_append, List.length_singleton] at hj
                exact hfirst j (by omega)

theorem Follows.run {last : State} (h : Follows tokens before s) (htokens : tokens = before ++ rest)
    (hrun : rest.foldlM State.step s = .ok last) : Follows tokens tokens last := by
  induction rest generalizing before s with
  | nil =>
      rw [List.append_nil] at htokens
      cases hrun
      exact htokens ▸ h
  | cons t rest ih =>
      rw [List.foldlM_cons, Outcome.bind_eq_ok] at hrun
      obtain ⟨next, hstep, hrun⟩ := hrun
      exact ih (h.step htokens hstep) (by simp [htokens]) hrun

theorem State.finish_eq_error {s : State} {e : SyntaxError} : s.finish = .error e ↔
    (s.afterNot = true ∧ e = .missingOperand .not) ∨ (s.afterNot = false ∧
      ∃ position, (positions s.stack).head? = some position ∧
        e = .mismatchedParentheses position) := by
  rw [State.finish, ← drain_eq_error s.output]
  cases s.afterNot with
  | true => simp [eq_comm]
  | false => cases drain s.stack s.output <;> simp [Except.map]

end Postfix

variable {tokens : List Token}

/-- If anything is wrong, there is a first place where it is. -/
theorem exists_first_faultAt (h : ∃ i e, FaultAt tokens i e) :
    ∃ i e, FaultAt tokens i e ∧ ∀ j < i, ∀ e', ¬ FaultAt tokens j e' := by
  classical
  obtain ⟨e, hfault⟩ := Nat.find_spec h
  exact ⟨Nat.find h, e, hfault, fun j hlt e' hj => Nat.find_min h hlt ⟨e', hj⟩⟩

theorem run_eq_error {e : SyntaxError} :
    tokens.foldlM Postfix.State.step .start = .error e ↔
      ∃ i, FaultAt tokens i e ∧ ∀ j < i, ∀ e', ¬ FaultAt tokens j e' := by
  rw [Postfix.run_eq_error (.start tokens) rfl]
  simp

theorem exists_run_eq_ok :
    (∃ last, tokens.foldlM Postfix.State.step .start = .ok last) ↔
      ∀ i e, ¬ FaultAt tokens i e := by
  rw [Outcome.exists_eq_ok]
  constructor
  · intro hok i e hfault
    obtain ⟨i, e, hfirst⟩ := exists_first_faultAt ⟨i, e, hfault⟩
    exact hok e (run_eq_error.mpr ⟨i, hfirst⟩)
  · intro hnone e he
    obtain ⟨i, hfault, -⟩ := run_eq_error.mp he
    exact hnone i e hfault

/-- In the end the innermost parenthesis on the stack is the last one without a partner. -/
theorem head?_positions_iff {last : Postfix.State} (h : Postfix.Follows tokens tokens last)
    {position : Nat} :
    (Postfix.positions last.stack).head? = some position ↔
      ∃ i t, tokens[i]? = some t ∧ Unclosed (tokens.map Token.word) i ∧
        (∀ j, i < j → ¬ Unclosed (tokens.map Token.word) j) ∧ t.position = position := by
  obtain ⟨places, hplaces, hstack⟩ := h.opened
  rw [hstack]
  cases places with
  | nil =>
      refine iff_of_false nofun ?_
      rintro ⟨i, t, -, hunclosed, -⟩
      exact hplaces.not_unclosed i hunclosed
  | cons place places =>
      obtain ⟨hunclosed, hlast⟩ := hplaces.unclosed_head
      obtain ⟨t, ht, -⟩ : ∃ t, tokens[place]? = some t ∧ t.word = .opening := by
        simpa using hunclosed.1
      have hposition : positionAt tokens place = t.position := by simp [positionAt, ht]
      rw [List.map_cons, List.head?_cons, Option.some.injEq, hposition]
      constructor
      · intro h
        exact ⟨place, t, ht, hunclosed, hlast, h⟩
      · rintro ⟨i, t', ht', hunclosed', hlast', rfl⟩
        obtain rfl : place = i := by
          rcases Nat.lt_trichotomy place i with hlt | rfl | hlt
          · exact absurd hunclosed' (hlast i hlt)
          · rfl
          · exact absurd hunclosed (hlast' place hlt)
        rw [Option.some.inj (ht.symm.trans ht')]

theorem toPostfix_eq_error {e : SyntaxError} :
    toPostfix tokens = .error e ↔ Diagnosis tokens e := by
  rw [toPostfix, Outcome.bind_eq_error, run_eq_error]
  constructor
  · rintro (⟨i, hfault, hfirst⟩ | ⟨last, hrun, hfinish⟩)
    · exact .place hfault hfirst
    · have hlast := (Postfix.Follows.start tokens).run rfl hrun
      have hnone := exists_run_eq_ok.mp ⟨last, hrun⟩
      rcases Postfix.State.finish_eq_error.mp hfinish with
        ⟨hafter, rfl⟩ | ⟨hafter, position, hposition, rfl⟩
      · exact .ended hnone (hlast.afterNot.mp hafter)
      · obtain ⟨i, t, ht, hunclosed, hrest, rfl⟩ := (head?_positions_iff hlast).mp hposition
        refine .unclosed hnone (fun hnot => ?_) ht hunclosed hrest
        rw [hlast.afterNot.mpr hnot] at hafter
        cases hafter
  · intro h
    cases h with
    | place hfault hfirst => exact .inl ⟨_, hfault, hfirst⟩
    | ended hnone h =>
        obtain ⟨last, hrun⟩ := exists_run_eq_ok.mpr hnone
        have hlast := (Postfix.Follows.start tokens).run rfl hrun
        refine .inr ⟨last, hrun, Postfix.State.finish_eq_error.mpr (.inl ⟨?_, rfl⟩)⟩
        exact hlast.afterNot.mpr h
    | unclosed hnone hnot ht hunclosed hrest =>
        obtain ⟨last, hrun⟩ := exists_run_eq_ok.mpr hnone
        have hlast := (Postfix.Follows.start tokens).run rfl hrun
        refine .inr ⟨last, hrun, Postfix.State.finish_eq_error.mpr (.inr ⟨?_, _, ?_, rfl⟩)⟩
        · exact Bool.eq_false_iff.mpr fun hafter => hnot (hlast.afterNot.mp hafter)
        · exact (head?_positions_iff hlast).mpr ⟨_, _, ht, hunclosed, hrest, rfl⟩

/-- Tokens are brought into postfix order exactly if nothing is wrong with them. -/
theorem exists_toPostfix_eq_ok : (∃ entries, toPostfix tokens = .ok entries) ↔
    (∀ i e, ¬ FaultAt tokens i e) ∧ (tokens.map Token.word).getLast? ≠ some .not ∧
      ∀ i, ¬ Unclosed (tokens.map Token.word) i := by
  constructor
  · rintro ⟨entries, h⟩
    rw [toPostfix, Outcome.bind_eq_ok] at h
    obtain ⟨last, hrun, hfinish⟩ := h
    obtain ⟨hafter, hdrain⟩ := Postfix.State.finish_eq_ok.mp hfinish
    have hlast := (Postfix.Follows.start tokens).run rfl hrun
    refine ⟨exists_run_eq_ok.mp ⟨last, hrun⟩, fun hnot => ?_, ?_⟩
    · rw [hlast.afterNot.mpr hnot] at hafter
      cases hafter
    · obtain ⟨places, hplaces, hstack⟩ := hlast.opened
      rw [Postfix.positions_of_drain hdrain] at hstack
      obtain rfl := List.map_eq_nil_iff.mp hstack.symm
      exact hplaces.not_unclosed
  · rintro ⟨hnone, hnot, hclosed⟩
    rw [Outcome.exists_eq_ok]
    intro e he
    cases toPostfix_eq_error.mp he with
    | place hfault => exact hnone _ _ hfault
    | ended _ h => exact hnot h
    | unclosed _ _ _ hunclosed => exact hclosed _ hunclosed

/-- What is wrong with tokens is what is reported, and where nothing is wrong there is a result. -/
theorem toPostfix_diagnosed (tokens : List Token) :
    (∀ e, toPostfix tokens = .error e ↔ Diagnosis tokens e) ∧
    ((∃ entries, toPostfix tokens = .ok entries) ↔
      (∀ i e, ¬ FaultAt tokens i e) ∧ (tokens.map Token.word).getLast? ≠ some .not ∧
        ∀ i, ¬ Unclosed (tokens.map Token.word) i) :=
  ⟨fun _ => toPostfix_eq_error, exists_toPostfix_eq_ok⟩

/-- Where a NOT has no operand and a parenthesis none to close, the NOT is reported. -/
example : toPostfix [⟨.not, 0⟩, ⟨.closing, 1⟩] = .error (.missingOperand .not) := rfl

end FilterLogic.Expr
