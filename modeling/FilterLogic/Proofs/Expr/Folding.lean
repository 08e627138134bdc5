import FilterLogic.Proofs.Expr.Compilation
import Mathlib.Data.List.Induction

/-!
# Folding any sequence of entries

A sequence of entries is folded into a tree exactly if it is the postfix order of that tree, and the
tree is not too deep. Of any other sequence the first entry that cannot be taken is reported, or
else the number of trees that are left.

The stack lists the entries taken so far, tree after tree. That is the same statement in both
directions: a run ends with a stack exactly if the stack lists its entries and is sound. Postfix
order is a suffix code, so the entries alone tell which tree is on top.
-/

namespace FilterLogic

/-- How many operands a connective takes. -/
def Connective.arity : Connective → Nat
  | .not => 1
  | .and | .or => 2

namespace Expr

namespace Postfix

/-- Whether an entry is an operand. -/
def isOperand : Postfix → Bool
  | .operand _ => true
  | .connective _ => false

/-- Whether an entry is a connective with two operands. -/
def isBinary : Postfix → Bool
  | .connective .and | .connective .or => true
  | _ => false

/-- The number of operands among some entries. -/
def operands (entries : List Postfix) : Nat := entries.countP isOperand

/-- The number of connectives with two operands among some entries. -/
def binaries (entries : List Postfix) : Nat := entries.countP isBinary

end Postfix

open Postfix

/-- What is wrong with an entry after those before it: it is a connective for which too few trees
are left, as every operand adds one and every connective with two operands joins two of them; or the
tree that it completes is too deep. -/
inductive Misfit (before : List Postfix) (entry : Postfix) : SyntaxError → Prop
  | missing {c} (hentry : entry = .connective c)
      (h : operands before < binaries before + c.arity) : Misfit before entry (.missingOperand c)
  | tooDeep {t : Tree} (ht : t.postorder <:+ before ++ [entry]) (hdepth : 256 < t.depth) :
      Misfit before entry (.tooDeep 256)

/-- Nothing is wrong with any entry. -/
def Fits (entries : List Postfix) : Prop :=
  ∀ before entry after, entries = before ++ entry :: after → ∀ e, ¬ Misfit before entry e

/-- Why a sequence of entries is not folded into a tree: what is wrong with the first entry with
which anything is, or else that the trees left are none or several. -/
inductive Refusal (entries : List Postfix) : SyntaxError → Prop
  | entry {before entry after e} (hentries : entries = before ++ entry :: after)
      (hbefore : Fits before) (h : Misfit before entry e) : Refusal entries e
  | malformed {roots} (hfits : Fits entries) (hroots : operands entries = binaries entries + roots)
      (hne : roots ≠ 1) : Refusal entries (.malformed roots)

theorem fits_nil : Fits [] := by
  intro before entry after h
  simp at h

theorem fits_concat {entries : List Postfix} {entry : Postfix} :
    Fits (entries ++ [entry]) ↔ Fits entries ∧ ∀ e, ¬ Misfit entries entry e := by
  constructor
  · intro h
    exact ⟨fun before x after hx => h before x (after ++ [entry]) (by simp [hx]),
      h entries entry [] rfl⟩
  · rintro ⟨hentries, hentry⟩ before x after hx
    rcases List.eq_nil_or_concat after with rfl | ⟨after, last, rfl⟩
    · obtain ⟨rfl, hlast⟩ := List.append_inj' hx rfl
      cases hlast
      exact hentry
    · refine hentries before x after ?_
      have hconcat : entries ++ [entry] = (before ++ x :: after) ++ [last] := by simpa using hx
      exact (List.append_inj' hconcat rfl).1

namespace Tree

theorem operands_postorder (t : Tree) : operands t.postorder = binaries t.postorder + 1 := by
  induction t with
  | leaf name => rfl
  | not t ih => simpa [operands, binaries, postorder, isOperand, isBinary] using ih
  | and l r ihl ihr =>
      simp only [operands, binaries] at ihl ihr
      simp only [operands, binaries, postorder, List.countP_append, ihl, ihr]
      simp [isOperand, isBinary]
      omega
  | or l r ihl ihr =>
      simp only [operands, binaries] at ihl ihr
      simp only [operands, binaries, postorder, List.countP_append, ihl, ihr]
      simp [isOperand, isBinary]
      omega

/-- What comes before a tree in postfix order, and the tree, are told by the entries. -/
theorem postorder_append_inj {t u : Tree} {before before' : List Postfix}
    (h : before ++ t.postorder = before' ++ u.postorder) : before = before' ∧ t = u := by
  induction t generalizing u before before' with
  | leaf name =>
      cases u <;> simp only [postorder, ← List.append_assoc] at h <;>
        obtain ⟨hbefore, hlast⟩ := List.append_inj' h rfl <;> cases hlast
      exact ⟨hbefore, rfl⟩
  | not t ih =>
      cases u <;> simp only [postorder, ← List.append_assoc] at h <;>
        obtain ⟨hoperand, hlast⟩ := List.append_inj' h rfl <;> cases hlast
      obtain ⟨rfl, rfl⟩ := ih hoperand
      exact ⟨rfl, rfl⟩
  | and l r ihl ihr =>
      cases u <;> simp only [postorder, ← List.append_assoc] at h <;>
        obtain ⟨hoperands, hlast⟩ := List.append_inj' h rfl <;> cases hlast
      obtain ⟨hleft, rfl⟩ := ihr hoperands
      obtain ⟨rfl, rfl⟩ := ihl hleft
      exact ⟨rfl, rfl⟩
  | or l r ihl ihr =>
      cases u <;> simp only [postorder, ← List.append_assoc] at h <;>
        obtain ⟨hoperands, hlast⟩ := List.append_inj' h rfl <;> cases hlast
      obtain ⟨hleft, rfl⟩ := ihr hoperands
      obtain ⟨rfl, rfl⟩ := ihl hleft
      exact ⟨rfl, rfl⟩

theorem postorder_ne_nil (t : Tree) : t.postorder ≠ [] := by
  cases t <;> simp [postorder]

end Tree

namespace Subtree

variable {stack : List Subtree} {before entries : List Postfix} {entry : Postfix} {e : SyntaxError}

/-- A stack holds as many trees as the operands it lists, less the connectives that joined two. -/
theorem operands_listing (stack : List Subtree) :
    operands (listing stack) = binaries (listing stack) + stack.length := by
  induction stack with
  | nil => rfl
  | cons node stack ih =>
      have htop := node.tree.operands_postorder
      simp only [operands, binaries] at htop ih
      rw [operands, binaries, listing_cons, List.countP_append, List.countP_append, htop, ih,
        List.length_cons]
      omega

/-- The tree at the end of what a stack lists is the one on top. -/
theorem listing_eq_append {t : Tree} : listing stack = before ++ t.postorder ↔
    ∃ node rest, stack = node :: rest ∧ listing rest = before ∧ node.tree = t := by
  cases stack with
  | nil => simp [listing, t.postorder_ne_nil]
  | cons node rest =>
      rw [listing_cons]
      constructor
      · intro h
        obtain ⟨hrest, htree⟩ := Tree.postorder_append_inj h
        exact ⟨node, rest, rfl, hrest, htree⟩
      · rintro ⟨_, _, hstack, rfl, rfl⟩
        cases hstack
        rfl

/-- A connective that completes a tree has its operands on the stack. -/
theorem arity_le_length {t : Tree} {c : Connective}
    (ht : t.postorder <:+ listing stack ++ [.connective c]) : c.arity ≤ stack.length := by
  obtain ⟨first, hfirst⟩ := ht
  cases t <;> simp only [Tree.postorder, ← List.append_assoc] at hfirst <;>
    obtain ⟨hoperands, hlast⟩ := List.append_inj' hfirst rfl <;> cases hlast
  · obtain ⟨x, rest, rfl, -⟩ := listing_eq_append.mp hoperands.symm
    simp [Connective.arity]
  all_goals
    obtain ⟨r, rest, rfl, hrest, -⟩ := listing_eq_append.mp hoperands.symm
    obtain ⟨l, rest, rfl, -⟩ := listing_eq_append.mp hrest
    simp [Connective.arity]

/-- What an entry does to a sound stack: it completes a tree, which is put in place of its operands,
or it is a connective whose operands are not there. -/
theorem step_cases (hs : Sound stack) (entry : Postfix) :
    (∃ t rest, step stack entry = push (ofTree t) rest ∧
      t.postorder <:+ listing stack ++ [entry]) ∨
    ∃ c, step stack entry = .error (.missingOperand c) ∧ entry = .connective c ∧
      stack.length < c.arity := by
  cases entry with
  | operand name => exact .inl ⟨.leaf name, stack, rfl, List.suffix_append _ _⟩
  | connective c =>
      cases c with
      | not =>
          rcases stack with _ | ⟨x, rest⟩
          · exact .inr ⟨.not, rfl, rfl, Nat.one_pos⟩
          · obtain ⟨⟨hx, -⟩, -⟩ := List.forall_mem_cons.mp hs
            refine .inl ⟨.not x.tree, rest, ?_, listing rest, ?_⟩
            · rw [step, hx, ofTree, Tree.depth]
            · simp [listing_cons, Tree.postorder]
      | and =>
          rcases stack with _ | ⟨r, _ | ⟨l, rest⟩⟩
          · exact .inr ⟨.and, rfl, rfl, Nat.two_pos⟩
          · exact .inr ⟨.and, rfl, rfl, Nat.one_lt_two⟩
          · obtain ⟨⟨hr, -⟩, hs⟩ := List.forall_mem_cons.mp hs
            obtain ⟨⟨hl, -⟩, -⟩ := List.forall_mem_cons.mp hs
            refine .inl ⟨.and l.tree r.tree, rest, ?_, listing rest, ?_⟩
            · rw [step, hl, hr, ofTree, Tree.depth]
            · simp [listing_cons, Tree.postorder]
      | or =>
          rcases stack with _ | ⟨r, _ | ⟨l, rest⟩⟩
          · exact .inr ⟨.or, rfl, rfl, Nat.two_pos⟩
          · exact .inr ⟨.or, rfl, rfl, Nat.one_lt_two⟩
          · obtain ⟨⟨hr, -⟩, hs⟩ := List.forall_mem_cons.mp hs
            obtain ⟨⟨hl, -⟩, -⟩ := List.forall_mem_cons.mp hs
            refine .inl ⟨.or l.tree r.tree, rest, ?_, listing rest, ?_⟩
            · rw [step, hl, hr, ofTree, Tree.depth]
            · simp [listing_cons, Tree.postorder]

theorem push_eq_error {node : Subtree} :
    push node stack = .error e ↔ maxDepth < node.depth ∧ e = .tooDeep maxDepth := by
  by_cases h : node.depth ≤ maxDepth
  · simp [push_of_le h, Nat.not_lt.mpr h]
  · simp [push_of_lt (Nat.not_le.mp h), Nat.not_le.mp h, eq_comm]

/-- An entry is refused exactly if something is wrong with it after the entries that are listed. -/
theorem step_eq_error (hs : Sound stack) :
    step stack entry = .error e ↔ Misfit (listing stack) entry e := by
  have hlength := operands_listing stack
  rcases step_cases hs entry with ⟨t, rest, hstep, ht⟩ | ⟨c, hstep, rfl, hmissing⟩
  · rw [hstep, push_eq_error]
    constructor
    · rintro ⟨hdepth, rfl⟩
      exact .tooDeep ht hdepth
    · intro h
      cases h with
      | @missing c hentry hmissing =>
          subst hentry
          have harity := arity_le_length ht
          omega
      | @tooDeep u hu hdepth =>
          obtain ⟨_, ht⟩ := ht
          obtain ⟨_, hu⟩ := hu
          obtain ⟨-, rfl⟩ := Tree.postorder_append_inj (ht.trans hu.symm)
          exact ⟨hdepth, rfl⟩
  · rw [hstep, Except.error.injEq]
    constructor
    · rintro rfl
      exact .missing rfl (by omega)
    · intro h
      cases h with
      | missing hentry =>
          cases hentry
          rfl
      | tooDeep ht =>
          have harity := arity_le_length ht
          omega

/-- A run ends with a stack exactly if the stack is sound and lists the entries. -/
theorem run_eq_ok : entries.foldlM step [] = .ok stack ↔ Sound stack ∧ listing stack = entries := by
  constructor
  · intro h
    obtain ⟨hsound, hlisting⟩ := listing_run h (List.forall_mem_nil _)
    exact ⟨hsound, hlisting⟩
  · rintro ⟨hsound, rfl⟩
    induction stack with
    | nil => rfl
    | cons node stack ih =>
        obtain ⟨⟨hdepth, hle⟩, hsound⟩ := List.forall_mem_cons.mp hsound
        have hnode : ofTree node.tree = node := by rw [ofTree, ← hdepth]
        rw [listing_cons, List.foldlM_append, ih hsound, Outcome.ok_bind, foldlM_postorder,
          if_pos (hdepth ▸ hle), hnode]

theorem exists_run_eq_ok : (∃ stack, entries.foldlM step [] = .ok stack) ↔ Fits entries := by
  induction entries using List.reverseRecOn with
  | nil => exact iff_of_true ⟨[], rfl⟩ fits_nil
  | append_singleton entries entry ih =>
      rw [fits_concat, ← ih]
      constructor
      · rintro ⟨last, h⟩
        rw [List.foldlM_append, Outcome.bind_eq_ok] at h
        obtain ⟨stack, hrun, hlast⟩ := h
        obtain ⟨hs, rfl⟩ := run_eq_ok.mp hrun
        refine ⟨⟨stack, hrun⟩, fun e he => ?_⟩
        rw [List.foldlM_cons, (step_eq_error hs).mpr he] at hlast
        cases hlast
      · rintro ⟨⟨stack, hrun⟩, hentry⟩
        obtain ⟨hs, rfl⟩ := run_eq_ok.mp hrun
        obtain ⟨next, hnext⟩ : ∃ next, step stack entry = .ok next :=
          Outcome.exists_eq_ok.mpr fun e he => hentry e ((step_eq_error hs).mp he)
        refine ⟨next, ?_⟩
        rw [List.foldlM_append, hrun, Outcome.ok_bind, List.foldlM_cons, hnext]
        rfl

/-- A run stops at the first entry with which anything is wrong. -/
theorem run_eq_error : entries.foldlM step [] = .error e ↔
    ∃ before entry after, entries = before ++ entry :: after ∧ Fits before ∧
      Misfit before entry e := by
  constructor
  · intro h
    induction entries using List.reverseRecOn with
    | nil => cases h
    | append_singleton entries entry ih =>
        rw [List.foldlM_append, Outcome.bind_eq_error] at h
        rcases h with h | ⟨stack, hrun, hlast⟩
        · obtain ⟨before, x, after, rfl, hx⟩ := ih h
          exact ⟨before, x, after ++ [entry], by simp, hx⟩
        · obtain ⟨hs, rfl⟩ := run_eq_ok.mp hrun
          rw [List.foldlM_cons, Outcome.bind_eq_error] at hlast
          rcases hlast with hlast | ⟨_, -, hnever⟩
          · exact ⟨_, entry, [], rfl, exists_run_eq_ok.mp ⟨stack, hrun⟩,
              (step_eq_error hs).mp hlast⟩
          · cases hnever
  · rintro ⟨before, entry, after, rfl, hbefore, h⟩
    obtain ⟨stack, hrun⟩ := exists_run_eq_ok.mpr hbefore
    obtain ⟨hs, rfl⟩ := run_eq_ok.mp hrun
    rw [List.foldlM_append, hrun, Outcome.ok_bind, List.foldlM_cons, (step_eq_error hs).mpr h,
      Outcome.error_bind]

theorem single_eq_error {stack : List Subtree} :
    single stack = .error e ↔ stack.length ≠ 1 ∧ e = .malformed stack.length := by
  rcases stack with _ | ⟨root, _ | ⟨node, rest⟩⟩ <;> simp [single, eq_comm]

end Subtree

theorem buildTree_eq_error {entries : List Postfix} {e : SyntaxError} :
    buildTree entries = .error e ↔ Refusal entries e := by
  rw [buildTree, Outcome.bind_eq_error, Subtree.run_eq_error]
  constructor
  · rintro (⟨before, entry, after, hentries, hbefore, h⟩ | ⟨stack, hrun, hsingle⟩)
    · exact .entry hentries hbefore h
    · obtain ⟨hne, rfl⟩ := Subtree.single_eq_error.mp hsingle
      obtain ⟨-, hlisting⟩ := Subtree.run_eq_ok.mp hrun
      have hroots := Subtree.operands_listing stack
      rw [hlisting] at hroots
      exact .malformed (Subtree.exists_run_eq_ok.mp ⟨stack, hrun⟩) hroots hne
  · intro h
    cases h with
    | entry hentries hbefore h => exact .inl ⟨_, _, _, hentries, hbefore, h⟩
    | @malformed roots hfits hroots hne =>
        obtain ⟨stack, hrun⟩ := Subtree.exists_run_eq_ok.mpr hfits
        obtain ⟨-, rfl⟩ := Subtree.run_eq_ok.mp hrun
        obtain rfl : roots = stack.length :=
          Nat.add_left_cancel (hroots.symm.trans (Subtree.operands_listing stack))
        exact .inr ⟨stack, hrun, Subtree.single_eq_error.mpr ⟨hne, rfl⟩⟩

/-- Folding undoes postfix order, and it holds every tree with its true depth while it does. Where
there is nothing to undo, it reports the first entry that does not fit or the number of trees. -/
theorem buildTree_decided (entries : List Postfix) :
    (∀ t, buildTree entries = .ok t ↔ t.postorder = entries ∧ t.depth ≤ 256) ∧
    (∀ e, buildTree entries = .error e ↔ Refusal entries e) ∧
    ∀ stack, entries.foldlM Subtree.step [] = .ok stack ↔
      (∀ node ∈ stack, node.depth = node.tree.depth ∧ node.depth ≤ 256) ∧
        (stack.reverse.flatMap fun node => node.tree.postorder) = entries :=
  ⟨fun _ => buildTree_eq_ok, fun _ => buildTree_eq_error, fun _ => Subtree.run_eq_ok⟩

/-- Two trees are left: the connective joins the last two operands, and the first one stays. -/
theorem buildTree_decided_leftover :
    let entries : List Postfix := [.operand "a", .operand "b", .operand "c", .connective .or]
    let joined : Subtree := ⟨.or (.leaf "b") (.leaf "c"), 2⟩
    entries.foldlM Subtree.step [] = .ok [joined, ⟨.leaf "a", 1⟩] ∧
    joined.depth = joined.tree.depth ∧ joined.depth ≤ 256 ∧
    buildTree entries = .error (.malformed 2) ∧ Refusal entries (.malformed 2) := by
  intro entries joined
  obtain ⟨-, herror, hrun⟩ := buildTree_decided entries
  have hstack : entries.foldlM Subtree.step [] = .ok [joined, ⟨.leaf "a", 1⟩] := rfl
  have hrefused : buildTree entries = .error (.malformed 2) := rfl
  obtain ⟨hnodes, -⟩ := (hrun _).mp hstack
  obtain ⟨hdepth, hle⟩ := hnodes joined List.mem_cons_self
  exact ⟨hstack, hdepth, hle, hrefused, (herror _).mp hrefused⟩

/-- A connective without operands comes before the operands that would make up for it. -/
example : buildTree [.operand "a", .connective .and, .operand "b", .operand "c"] =
    .error (.missingOperand .and) := rfl

end Expr

end FilterLogic
