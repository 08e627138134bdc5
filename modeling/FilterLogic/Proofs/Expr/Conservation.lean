import FilterLogic.Proofs.Expr.Compilation
import Mathlib.Data.List.Induction
import Mathlib.Data.List.Nodup
import Mathlib.Data.List.Perm.Basic

/-!
# Nothing is lost in compilation

Every identifier and every connective of an accepted text becomes one node of its tree, and nothing
else does. Bringing the tokens into postfix order only permutes what they stand for: between any two
tokens it has either been put out or waits on the stack. The identifiers are not even permuted, so
they are the leaves from left to right, and the tree lists them in order of appearance.
-/

namespace FilterLogic.Expr

open scoped List

/-- The entry that a word stands for. Parentheses stand for none. -/
def Word.counterpart : Word → Option Postfix
  | .identifier name => some (.operand name)
  | .not => some (.connective .not)
  | .and => some (.connective .and)
  | .or => some (.connective .or)
  | .opening | .closing => none

/-- The entries that some tokens stand for. -/
def counterparts (tokens : List Token) : List Postfix :=
  tokens.filterMap fun t => t.word.counterpart

/-- The word for a connective. -/
def Word.ofConnective : Connective → Word
  | .not => .not
  | .and => .and
  | .or => .or

theorem Word.isSome_counterpart (w : Word) : w.counterpart.isSome = !w.isParenthesis := by
  cases w <;> rfl

theorem Word.counterpart_eq_connective {w : Word} {c : Connective} :
    w.counterpart = some (.connective c) ↔ w = .ofConnective c := by
  cases w <;> cases c <;> simp [counterpart, ofConnective]

theorem counterparts_cons (t : Token) (tokens : List Token) :
    counterparts (t :: tokens) = t.word.counterpart.toList ++ counterparts tokens := by
  rw [counterparts, List.filterMap_cons]
  cases t.word.counterpart <;> rfl

theorem count_counterparts (tokens : List Token) (c : Connective) :
    (counterparts tokens).count (.connective c) =
      (tokens.map Token.word).count (.ofConnective c) := by
  rw [counterparts, List.count_filterMap, List.count_eq_countP, List.countP_map]
  refine List.countP_congr fun t _ => ?_
  simp [Word.counterpart_eq_connective]

theorem length_counterparts (tokens : List Token) :
    (counterparts tokens).length = tokens.countP fun t => !t.word.isParenthesis := by
  rw [counterparts, List.length_filterMap_eq_countP]
  simp only [Word.isSome_counterpart]

/-- The entry that waits on the stack. An open parenthesis is none. -/
def Pending.counterpart : Pending → Option Postfix
  | .connective c => some (.connective c)
  | .group _ => none

namespace Postfix

/-- The entries that have been put out and those that wait. -/
def held (output : List Postfix) (stack : List Pending) : List Postfix :=
  output ++ stack.filterMap Pending.counterpart

/-- A waiting connective is held as it is when it has been put out. -/
theorem held_connective (c : Connective) (output : List Postfix) (stack : List Pending) :
    held output (.connective c :: stack) ~ held (.connective c :: output) stack :=
  List.perm_middle

theorem held_release (limit : Nat) (stack : List Pending) (output : List Postfix) :
    held (release limit stack output).1 (release limit stack output).2 ~ held output stack := by
  fun_induction release limit stack output with
  | case1 => exact .refl _
  | case2 c stack output hc ih => exact ih.trans (held_connective c output stack).symm
  | case3 => exact .refl _

theorem held_close? {stack stack' : List Pending} {output output' : List Postfix}
    (h : close? stack output = some (output', stack')) :
    held output' stack' ~ held output stack := by
  fun_induction close? stack output with
  | case1 => cases h
  | case2 c stack output ih => exact (ih h).trans (held_connective c output stack).symm
  | case3 position stack output =>
      cases h
      exact .refl _

theorem held_drain {stack : List Pending} {output entries : List Postfix}
    (h : drain stack output = .ok entries) : entries ~ held output stack := by
  fun_induction drain stack output with
  | case1 output =>
      cases h
      exact .of_eq (List.append_nil _).symm
  | case2 c stack output ih => exact (ih h).trans (held_connective c output stack).symm
  | case3 => cases h

theorem held_binary (s : State) (c : Connective) :
    held (s.binary c).output (s.binary c).stack ~ .connective c :: held s.output s.stack :=
  (held_connective c _ _).trans ((held_release c.precedence s.stack s.output).cons _)

/-- A token that is taken adds the entry that it stands for to those that are held. -/
theorem held_step {s s' : State} {t : Token} (h : s.step t = .ok s') :
    held s'.output s'.stack ~ t.word.counterpart.toList ++ held s.output s.stack := by
  have hstep := State.step_eq_ok h
  cases hword : t.word with
  | identifier name =>
      rw [hword] at hstep
      rw [hstep]
      exact .refl _
  | not =>
      rw [hword] at hstep
      rw [hstep]
      exact held_connective .not s.output s.stack
  | and =>
      rw [hword] at hstep
      rw [hstep]
      exact held_binary s .and
  | or =>
      rw [hword] at hstep
      rw [hstep]
      exact held_binary s .or
  | opening =>
      rw [hword] at hstep
      rw [hstep]
      exact .refl _
  | closing =>
      rw [hword] at hstep
      obtain ⟨output, stack, hclose, rfl⟩ := hstep
      exact held_close? hclose

theorem held_run {tokens : List Token} {s s' : State} (h : tokens.foldlM State.step s = .ok s') :
    held s'.output s'.stack ~ counterparts tokens ++ held s.output s.stack := by
  induction tokens generalizing s with
  | nil =>
      cases h
      exact .refl _
  | cons t tokens ih =>
      rw [List.foldlM_cons, Outcome.bind_eq_ok] at h
      obtain ⟨mid, hstep, hrun⟩ := h
      calc
        held s'.output s'.stack ~ counterparts tokens ++ held mid.output mid.stack := ih hrun
        _ ~ counterparts tokens ++ (t.word.counterpart.toList ++ held s.output s.stack) :=
          (held_step hstep).append_left _
        _ ~ t.word.counterpart.toList ++ (counterparts tokens ++ held s.output s.stack) :=
          List.perm_append_comm_assoc _ _ _
        _ = counterparts (t :: tokens) ++ held s.output s.stack := by
          rw [counterparts_cons, List.append_assoc]

end Postfix

/-- The postfix order of some tokens has the entries that they stand for, each as often as they do.
-/
theorem toPostfix_perm {tokens : List Token} {entries : List Postfix}
    (h : toPostfix tokens = .ok entries) : entries ~ counterparts tokens := by
  rw [toPostfix, Outcome.bind_eq_ok] at h
  obtain ⟨last, hrun, hfinish⟩ := h
  have hdrain := Postfix.held_drain (Postfix.State.finish_eq_ok.mp hfinish).2
  calc
    entries ~ entries.reverse := entries.reverse_perm.symm
    _ ~ Postfix.held last.output last.stack := hdrain
    _ ~ counterparts tokens ++ Postfix.held [] [] := Postfix.held_run hrun
    _ = counterparts tokens := List.append_nil _

namespace Tree

/-- The number of nodes with a connective. -/
def count (c : Connective) : Tree → Nat
  | .leaf _ => 0
  | .not t => t.count c + if c = .not then 1 else 0
  | .and l r => l.count c + r.count c + if c = .and then 1 else 0
  | .or l r => l.count c + r.count c + if c = .or then 1 else 0

theorem count_connective (c d : Connective) :
    [Postfix.connective d].count (.connective c) = if c = d then 1 else 0 := by
  cases c <;> cases d <;> rfl

theorem count_postorder (t : Tree) (c : Connective) :
    t.postorder.count (.connective c) = t.count c := by
  induction t with
  | leaf name => simp [postorder, count]
  | not t ih => simp only [postorder, count, List.count_append, count_connective, ih]
  | and l r ihl ihr => simp only [postorder, count, List.count_append, count_connective, ihl, ihr]
  | or l r ihl ihr => simp only [postorder, count, List.count_append, count_connective, ihl, ihr]

theorem length_postorder (t : Tree) : t.postorder.length = t.nodeCount := by
  induction t with
  | leaf name => rfl
  | not t ih => simp [postorder, nodeCount, ih]
  | and l r ihl ihr => simp [postorder, nodeCount, ihl, ihr, Nat.add_assoc]
  | or l r ihl ihr => simp [postorder, nodeCount, ihl, ihr, Nat.add_assoc]

end Tree

/-- Whether a list has the members of another, each of them once and in the order in which they
first appear there. -/
structure InOrderOfAppearance (names listed : List String) : Prop where
  nodup : listed.Nodup
  mem_iff {name : String} : name ∈ listed ↔ name ∈ names
  ordered : listed.Pairwise fun a b => names.idxOf a < names.idxOf b

/-- One more name is listed at the end, unless it is there already. -/
theorem InOrderOfAppearance.concat {names listed : List String}
    (h : InOrderOfAppearance names listed) (name : String) :
    InOrderOfAppearance (names ++ [name])
      (if listed.contains name then listed else listed ++ [name]) := by
  have hordered : listed.Pairwise fun a b =>
      (names ++ [name]).idxOf a < (names ++ [name]).idxOf b := by
    refine h.ordered.imp_of_mem fun ha hb hlt => ?_
    rwa [List.idxOf_append_of_mem (h.mem_iff.mp ha), List.idxOf_append_of_mem (h.mem_iff.mp hb)]
  by_cases hname : name ∈ listed
  · rw [if_pos (List.contains_iff_mem.mpr hname)]
    refine ⟨h.nodup, ?_, hordered⟩
    intro a
    rw [h.mem_iff, List.mem_append, List.mem_singleton]
    constructor
    · exact .inl
    · rintro (ha | rfl)
      · exact ha
      · exact h.mem_iff.mp hname
  · have hnew : name ∉ names := fun hmem => hname (h.mem_iff.mpr hmem)
    rw [if_neg (mt List.contains_iff_mem.mp hname)]
    refine ⟨?_, ?_, ?_⟩
    · rw [← List.concat_eq_append]
      exact h.nodup.concat hname
    · simp [h.mem_iff]
    · refine List.pairwise_append.mpr ⟨hordered, List.pairwise_singleton _ _, ?_⟩
      intro a ha b hb
      obtain rfl := List.mem_singleton.mp hb
      rw [List.idxOf_append_of_mem (h.mem_iff.mp ha), List.idxOf_append_of_notMem hnew]
      exact Nat.lt_add_right _ (List.idxOf_lt_length_iff.mpr (h.mem_iff.mp ha))

namespace Tree

theorem inOrderOfAppearance_firstOccurrences (names : List String) :
    InOrderOfAppearance names (firstOccurrences names) := by
  induction names using List.reverseRecOn with
  | nil => exact ⟨List.nodup_nil, Iff.rfl, List.Pairwise.nil⟩
  | append_singleton names name ih =>
      rw [firstOccurrences, List.foldl_append]
      exact ih.concat name

/-- The identifiers of a tree are the names at its leaves. -/
theorem mem_identifiers {t : Tree} {name : String} : name ∈ t.identifiers ↔ name ∈ t.leaves :=
  (inOrderOfAppearance_firstOccurrences t.leaves).mem_iff

end Tree

/-- The tree of an accepted text has a node for each of its identifiers and connectives, the
identifiers in their order, and no other node. -/
theorem parse_conserves {text : String} {t : Tree} (h : parse text = .ok t) :
    ∃ tokens, tokenize text = .ok tokens ∧
      t.leaves = tokens.filterMap (fun token => token.word.name?) ∧
      (∀ c, t.count c = (tokens.map Token.word).count (.ofConnective c)) ∧
      t.nodeCount = tokens.countP (fun token => !token.word.isParenthesis) ∧
      InOrderOfAppearance (tokens.filterMap fun token => token.word.name?) t.identifiers ∧
      t.depth ≤ 256 := by
  obtain ⟨tokens, htokens, hentries, hdepth⟩ := parse_eq_ok.mp h
  have hperm := toPostfix_perm hentries
  have hleaves : t.leaves = tokens.filterMap fun token => token.word.name? := by
    rw [← t.names_postorder, names_of_toPostfix hentries]
  refine ⟨tokens, htokens, hleaves, fun c => ?_, ?_, ?_, hdepth⟩
  · rw [← t.count_postorder, hperm.count_eq, count_counterparts]
  · rw [← t.length_postorder, hperm.length_eq, length_counterparts]
  · rw [← hleaves]
    exact Tree.inOrderOfAppearance_firstOccurrences t.leaves

/-- A text that is no expression: its NOT comes to stand at another operand, but it is not lost. -/
theorem parse_conserves_unordered :
    let t : Tree := .and (.or (.leaf "a") (.leaf "b")) (.not (.leaf "a"))
    parse "!(a | b) a &" = .ok t ∧
    ∃ tokens, tokenize "!(a | b) a &" = .ok tokens ∧ tokens.length = 8 ∧
      t.leaves = tokens.filterMap (fun token => token.word.name?) ∧
      t.count .not = (tokens.map Token.word).count .not ∧ t.count .not = 1 ∧
      t.nodeCount = tokens.countP (fun token => !token.word.isParenthesis) ∧ t.nodeCount = 6 ∧
      t.identifiers = ["a", "b"] := by
  intro t
  have htokens : tokenize "!(a | b) a &" = .ok
      [⟨.not, 0⟩, ⟨.opening, 1⟩, ⟨.identifier "a", 2⟩, ⟨.or, 4⟩, ⟨.identifier "b", 6⟩,
        ⟨.closing, 7⟩, ⟨.identifier "a", 9⟩, ⟨.and, 11⟩] :=
    tokenize_eq_ok.mpr ⟨by decide, by decide +kernel⟩
  have hparse : parse "!(a | b) a &" = .ok t := parse_of_tokenize htokens
  obtain ⟨tokens, hread, hleaves, hcount, hnodes, -, -⟩ := parse_conserves hparse
  obtain rfl := Except.ok.inj (hread.symm.trans htokens)
  exact ⟨hparse, _, hread, rfl, hleaves, hcount .not, rfl, hnodes, rfl, by decide⟩

end FilterLogic.Expr
