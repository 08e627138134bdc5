import FilterLogic.Expr.Postfix
import FilterLogic.Proofs.Outcome

/-!
# Trees in postfix order

The postfix order of a tree, and what folding it does: the tree is put on the stack with its true
depth, or the fold stops because the tree is too deep. A tree that is too deep has a least subtree
that is, and it is there that the fold stops.
-/

namespace FilterLogic.Expr

/-- The entries of a tree: those of the operands from left to right, then the connective. -/
def Tree.postorder : Tree → List Postfix
  | .leaf name => [.operand name]
  | .not t => t.postorder ++ [.connective .not]
  | .and l r => l.postorder ++ r.postorder ++ [.connective .and]
  | .or l r => l.postorder ++ r.postorder ++ [.connective .or]

namespace Subtree

/-- A tree with its own depth, which is how a sound stack holds it. -/
def ofTree (t : Tree) : Subtree := ⟨t, t.depth⟩

theorem push_of_le {node : Subtree} (h : node.depth ≤ maxDepth) (stack : List Subtree) :
    push node stack = .ok (node :: stack) := by
  rw [push, if_neg (Nat.not_lt.mpr h)]

theorem push_of_lt {node : Subtree} (h : maxDepth < node.depth) (stack : List Subtree) :
    push node stack = .error (.tooDeep maxDepth) := by
  rw [push, if_pos h]

/-- Folding the entries of two operands leaves both on the stack unless one is too deep. -/
theorem foldlM_operands {l r : Tree}
    (hl : ∀ stack, l.postorder.foldlM step stack =
      if l.depth ≤ maxDepth then .ok (ofTree l :: stack) else .error (.tooDeep maxDepth))
    (hr : ∀ stack, r.postorder.foldlM step stack =
      if r.depth ≤ maxDepth then .ok (ofTree r :: stack) else .error (.tooDeep maxDepth))
    (stack : List Subtree) :
    (l.postorder ++ r.postorder).foldlM step stack =
      if max l.depth r.depth ≤ maxDepth then .ok (ofTree r :: ofTree l :: stack)
      else .error (.tooDeep maxDepth) := by
  rw [List.foldlM_append, hl]
  by_cases hld : l.depth ≤ maxDepth
  · rw [if_pos hld, Outcome.ok_bind, hr]
    by_cases hrd : r.depth ≤ maxDepth
    · rw [if_pos hrd, if_pos (Nat.max_le.mpr ⟨hld, hrd⟩)]
    · rw [if_neg hrd, if_neg (fun h => hrd (Nat.max_le.mp h).2)]
  · rw [if_neg hld, Outcome.error_bind, if_neg (fun h => hld (Nat.max_le.mp h).1)]

/-- A connective whose operands are on the stack makes one node, unless the node is too deep. -/
theorem foldlM_connective (t : Tree) (c : Connective) {operands : List Postfix}
    {stack stack' : List Subtree} {depth : Nat}
    (hoperands : operands.foldlM step stack =
      if depth ≤ maxDepth then .ok stack' else .error (.tooDeep maxDepth))
    (hstep : step stack' (.connective c) = push (ofTree t) stack)
    (hdepth : t.depth = depth + 1) :
    (operands ++ [Postfix.connective c]).foldlM step stack =
      if t.depth ≤ maxDepth then .ok (ofTree t :: stack) else .error (.tooDeep maxDepth) := by
  rw [List.foldlM_append, hoperands]
  by_cases hle : depth ≤ maxDepth
  · rw [if_pos hle, Outcome.ok_bind, List.foldlM_cons, hstep]
    by_cases ht : t.depth ≤ maxDepth
    · rw [push_of_le ht, if_pos ht, Outcome.ok_bind]
      rfl
    · rw [push_of_lt (Nat.not_le.mp ht), if_neg ht, Outcome.error_bind]
  · rw [if_neg hle, Outcome.error_bind, if_neg (by omega)]

/-- Folding the postfix order of a tree puts the tree on the stack, or stops at its depth. -/
theorem foldlM_postorder (t : Tree) (stack : List Subtree) :
    t.postorder.foldlM step stack =
      if t.depth ≤ maxDepth then .ok (ofTree t :: stack) else .error (.tooDeep maxDepth) := by
  induction t generalizing stack with
  | leaf name =>
      have hdepth : (Tree.leaf name).depth ≤ maxDepth := Nat.le_of_ble_eq_true rfl
      rw [if_pos hdepth, Tree.postorder, List.foldlM_cons]
      rfl
  | not t ih => exact foldlM_connective (.not t) .not (ih stack) rfl rfl
  | and l r ihl ihr =>
      exact foldlM_connective (.and l r) .and (foldlM_operands ihl ihr stack) rfl rfl
  | or l r ihl ihr =>
      exact foldlM_connective (.or l r) .or (foldlM_operands ihl ihr stack) rfl rfl

end Subtree

/-- The postfix order of a tree is built into that tree, unless the tree is too deep. -/
theorem buildTree_postorder (t : Tree) :
    buildTree t.postorder =
      if t.depth ≤ maxDepth then .ok t else .error (.tooDeep maxDepth) := by
  rw [buildTree, Subtree.foldlM_postorder]
  by_cases h : t.depth ≤ maxDepth
  · rw [if_pos h, if_pos h, Outcome.ok_bind]
    rfl
  · rw [if_neg h, if_neg h, Outcome.error_bind]

end FilterLogic.Expr
