import FilterLogic.Condition.Trace
import FilterLogic.Proofs.Resolution.Generation

/-!
# The walk over a tree

A tree is turned into a condition by visiting its nodes in postorder, those of a left operand before
those of the right one. A leaf is looked up in the context, and a connective is called once, on the
conditions of its operands. The walk stops at the first node that fails, which is a leaf without a
condition or a binary connective whose operands have different kinds. It is completed exactly if
all leaves have conditions of one kind.

## Implementation notes

A node is the tree below it, so that what is called at a node can be told from the node and the
context alone. The kind of an operand is that of its leftmost leaf, since a combination has the kind
of its left operand.
-/

namespace FilterLogic

variable {C : Type} [Condition C]

namespace Expr.Tree

/-- The nodes of a tree in postorder, each as the tree below it. -/
def nodes : Tree → List Tree
  | .leaf name => [.leaf name]
  | .not t => t.nodes ++ [.not t]
  | .and l r => l.nodes ++ r.nodes ++ [.and l r]
  | .or l r => l.nodes ++ r.nodes ++ [.or l r]

/-- A condition that is combined as a tree prescribes, from those that a context holds for the
leaves. -/
def Denotes (ctx : Context C) (t : Tree) (c : C) : Prop :=
  ∃ leaf : String → C, c = t.combine leaf ∧ ∀ name ∈ t.leaves, ctx.get? name = some (leaf name)

/-- What is called at a node that does not fail. -/
inductive Visit (ctx : Context C) : Tree → List (Call C) → Prop
  | leaf {name c} (h : ctx.get? name = some c) : Visit ctx (.leaf name) []
  | not {t c} (ht : t.Denotes ctx c) : Visit ctx (.not t) [.not c]
  | and {l r a b} (hl : l.Denotes ctx a) (hr : r.Denotes ctx b)
      (hkind : Condition.kind a = Condition.kind b) : Visit ctx (.and l r) [.and a b]
  | or {l r a b} (hl : l.Denotes ctx a) (hr : r.Denotes ctx b)
      (hkind : Condition.kind a = Condition.kind b) : Visit ctx (.or l r) [.or a b]

/-- What is called at some nodes one after the other, none of which fails. -/
inductive Visits (ctx : Context C) : List Tree → List (Call C) → Prop
  | nil : Visits ctx [] []
  | cons {node rest calls more} (hnode : Visit ctx node calls) (hrest : Visits ctx rest more) :
      Visits ctx (node :: rest) (calls ++ more)

/-- What is called at a node that fails, and its error: a leaf is missing, or the leftmost leaves of
the two operands have different kinds. -/
inductive Failure (ctx : Context C) : Tree → List (Call C) → Error → Prop
  | leaf {name} (h : ctx.get? name = none) :
      Failure ctx (.leaf name) [] (.unknownFilterKey name (Text.suggest? name ctx.keys))
  | and {l r a b left right} (hl : l.Denotes ctx a) (hr : r.Denotes ctx b)
      (hleft : ctx.get? l.leftmost = some left) (hright : ctx.get? r.leftmost = some right)
      (hkind : Condition.kind left ≠ Condition.kind right) :
      Failure ctx (.and l r) [.and a b]
        (.incompatibleKinds (Condition.kind left) (Condition.kind right))
  | or {l r a b left right} (hl : l.Denotes ctx a) (hr : r.Denotes ctx b)
      (hleft : ctx.get? l.leftmost = some left) (hright : ctx.get? r.leftmost = some right)
      (hkind : Condition.kind left ≠ Condition.kind right) :
      Failure ctx (.or l r) [.or a b]
        (.incompatibleKinds (Condition.kind left) (Condition.kind right))

/-- A walk over some nodes that stops at the first one that fails: what was called before that node
and at it, and the error. -/
def Stops (ctx : Context C) (nodes : List Tree) (calls : List (Call C)) (e : Error) : Prop :=
  ∃ before node after earlier last, nodes = before ++ node :: after ∧ Visits ctx before earlier ∧
    Failure ctx node last e ∧ calls = earlier ++ last

variable {ctx : Context C}

theorem Visits.single {node : Tree} {calls : List (Call C)} (h : Visit ctx node calls) :
    Visits ctx [node] calls := by
  simpa using Visits.cons h .nil

theorem Visits.append {nodes nodes' : List Tree} {calls calls' : List (Call C)}
    (h : Visits ctx nodes calls) (h' : Visits ctx nodes' calls') :
    Visits ctx (nodes ++ nodes') (calls ++ calls') := by
  induction h with
  | nil => exact h'
  | cons hnode _ ih =>
      rw [List.cons_append, List.append_assoc]
      exact .cons hnode ih

theorem Failure.stops {node : Tree} {calls : List (Call C)} {e : Error}
    (h : Failure ctx node calls e) : Stops ctx [node] calls e :=
  ⟨[], node, [], [], calls, rfl, .nil, h, rfl⟩

/-- Nodes after the one that fails are not visited. -/
theorem Stops.append_right {nodes : List Tree} {calls : List (Call C)} {e : Error}
    (h : Stops ctx nodes calls e) (more : List Tree) : Stops ctx (nodes ++ more) calls e := by
  obtain ⟨before, node, after, earlier, last, rfl, hbefore, hnode, rfl⟩ := h
  exact ⟨before, node, after ++ more, earlier, last, by simp, hbefore, hnode, rfl⟩

theorem Stops.append_left {nodes visited : List Tree} {calls earlier : List (Call C)} {e : Error}
    (h : Stops ctx nodes calls e) (hvisited : Visits ctx visited earlier) :
    Stops ctx (visited ++ nodes) (earlier ++ calls) e := by
  obtain ⟨before, node, after, more, last, rfl, hbefore, hnode, rfl⟩ := h
  exact ⟨visited ++ before, node, after, earlier ++ more, last, by simp, hvisited.append hbefore,
    hnode, by simp⟩

theorem denotes_of_generate {t : Tree} {c : C} (h : (t.generate ctx).outcome = .ok c) :
    t.Denotes ctx c :=
  exists_combine_of_generate h

/-- Two operands without a fault are visited from left to right, and then their connective is. -/
theorem visits_binary {l r t : Tree} {a b : C} {finish : C → C → Logged (Call C) C}
    (hnodes : t.nodes = l.nodes ++ r.nodes ++ [t]) (ha : (l.generate ctx).outcome = .ok a)
    (hb : (r.generate ctx).outcome = .ok b) (hl : Visits ctx l.nodes (l.generate ctx).calls)
    (hr : Visits ctx r.nodes (r.generate ctx).calls) (hfinish : Visit ctx t (finish a b).calls) :
    Visits ctx t.nodes
      (l.generate ctx >>= fun a => r.generate ctx >>= fun b => finish a b).calls := by
  rw [Logged.calls_bind_ok ha, Logged.calls_bind_ok hb, hnodes, ← List.append_assoc]
  exact (hl.append hr).append (.single hfinish)

/-- Where a condition is generated, each connective was called once, after its operands. -/
theorem visits_of_generate {t : Tree} {c : C} (h : (t.generate ctx).outcome = .ok c) :
    Visits ctx t.nodes (t.generate ctx).calls := by
  induction t generalizing c with
  | leaf name => exact .single (.leaf (Context.resolve_eq_ok.mp h))
  | not t ih =>
      rw [generate, Logged.outcome_bind, Outcome.bind_eq_ok] at h
      obtain ⟨d, hd, -⟩ := h
      rw [generate, Logged.calls_bind_ok hd, nodes]
      exact (ih hd).append (.single (.not (denotes_of_generate hd)))
  | and l r ihl ihr =>
      obtain ⟨a, b, ha, hb, hc⟩ := Logged.outcome_bind₂_eq_ok.mp h
      obtain ⟨hkind, -⟩ := Condition.conjoin_eq_ok.mp hc
      exact visits_binary rfl ha hb (ihl ha) (ihr hb)
        (.and (denotes_of_generate ha) (denotes_of_generate hb) hkind)
  | or l r ihl ihr =>
      obtain ⟨a, b, ha, hb, hc⟩ := Logged.outcome_bind₂_eq_ok.mp h
      obtain ⟨hkind, -⟩ := Condition.disjoin_eq_ok.mp hc
      exact visits_binary rfl ha hb (ihl ha) (ihr hb)
        (.or (denotes_of_generate ha) (denotes_of_generate hb) hkind)

/-- Two operands and their connective stop at the first node of the three parts that fails. -/
theorem stops_binary {l r t : Tree} {finish : C → C → Logged (Call C) C} {e : Error}
    (hnodes : t.nodes = l.nodes ++ r.nodes ++ [t])
    (ihl : ∀ {e}, (l.generate ctx).outcome = .error e →
      Stops ctx l.nodes (l.generate ctx).calls e)
    (ihr : ∀ {e}, (r.generate ctx).outcome = .error e →
      Stops ctx r.nodes (r.generate ctx).calls e)
    (hfinish : ∀ a b, (l.generate ctx).outcome = .ok a → (r.generate ctx).outcome = .ok b →
      (finish a b).outcome = .error e → Failure ctx t (finish a b).calls e)
    (h : (l.generate ctx >>= fun a => r.generate ctx >>= fun b => finish a b).outcome =
      .error e) :
    Stops ctx t.nodes
      (l.generate ctx >>= fun a => r.generate ctx >>= fun b => finish a b).calls e := by
  rw [hnodes]
  simp only [Logged.outcome_bind, Outcome.bind_eq_error] at h
  rcases h with hl | ⟨a, ha, hr | ⟨b, hb, hlast⟩⟩
  · rw [Logged.calls_bind_error hl, List.append_assoc]
    exact (ihl hl).append_right (r.nodes ++ [t])
  · rw [Logged.calls_bind_ok ha, Logged.calls_bind_error hr, List.append_assoc]
    exact ((ihr hr).append_right [t]).append_left (visits_of_generate ha)
  · rw [Logged.calls_bind_ok ha, Logged.calls_bind_ok hb, ← List.append_assoc]
    have hoperands := (visits_of_generate ha).append (visits_of_generate hb)
    exact (hfinish a b ha hb hlast).stops.append_left hoperands

variable [LawfulCondition C]

/-- Where no condition is generated, the walk stopped at the first node that fails. -/
theorem stops_of_generate {t : Tree} {e : Error} (h : (t.generate ctx).outcome = .error e) :
    Stops ctx t.nodes (t.generate ctx).calls e := by
  induction t generalizing e with
  | leaf name =>
      obtain ⟨hname, rfl⟩ := Context.resolve_eq_error.mp h
      exact (Failure.leaf hname).stops
  | not t ih =>
      rw [generate, Logged.outcome_bind, Outcome.bind_eq_error] at h
      rcases h with h | ⟨c, -, hnever⟩
      · rw [generate, Logged.calls_bind_error h, nodes]
        exact (ih h).append_right [.not t]
      · cases hnever
  | and l r ihl ihr =>
      refine stops_binary rfl ihl ihr (fun a b ha hb hlast => ?_) h
      obtain ⟨hkind, rfl⟩ := Condition.conjoin_eq_error.mp hlast
      obtain ⟨left, hleft, hakind⟩ := kind_leftmost ha
      obtain ⟨right, hright, hbkind⟩ := kind_leftmost hb
      rw [← hakind, ← hbkind] at hkind ⊢
      exact .and (denotes_of_generate ha) (denotes_of_generate hb) hleft hright hkind
  | or l r ihl ihr =>
      refine stops_binary rfl ihl ihr (fun a b ha hb hlast => ?_) h
      obtain ⟨hkind, rfl⟩ := Condition.disjoin_eq_error.mp hlast
      obtain ⟨left, hleft, hakind⟩ := kind_leftmost ha
      obtain ⟨right, hright, hbkind⟩ := kind_leftmost hb
      rw [← hakind, ← hbkind] at hkind ⊢
      exact .or (denotes_of_generate ha) (denotes_of_generate hb) hleft hright hkind

/-- A condition is generated exactly if all leaves have conditions of one kind, which it then has,
and each connective is called once in postorder on the conditions of its operands. Otherwise the
walk stops at the first node in postorder that fails, with the error of that node. -/
theorem generate_in_postorder (ctx : Context C) (t : Tree) :
    ((∃ c, (t.generate ctx).outcome = .ok c) ↔ ∃ kind, t.HasKind ctx kind) ∧
    (∀ c, (t.generate ctx).outcome = .ok c → t.HasKind ctx (Condition.kind c) ∧
      t.Denotes ctx c ∧ Visits ctx t.nodes (t.generate ctx).calls) ∧
    ∀ e, (t.generate ctx).outcome = .error e → Stops ctx t.nodes (t.generate ctx).calls e := by
  refine ⟨⟨?_, ?_⟩, fun c hc => ?_, fun e he => stops_of_generate he⟩
  · rintro ⟨c, hc⟩
    exact ⟨_, hasKind_of_generate hc⟩
  · rintro ⟨kind, hkind⟩
    obtain ⟨c, hc, -⟩ := generate_of_hasKind hkind
    exact ⟨c, hc⟩
  · exact ⟨hasKind_of_generate hc, denotes_of_generate hc, visits_of_generate hc⟩

/-- A missing leaf to the right of two operands of different kinds: the kinds are reported, and the
missing leaf is not reached. The left operand alone is generated. -/
theorem generate_in_postorder_kinds :
    let ctx : Context Trace := KeyMap.ofList [("a", ⟨"trace", "A"⟩), ("b", ⟨"memory", "B"⟩)]
    let l : Tree := .not (.leaf "a")
    let t : Tree := .or (.and l (.leaf "b")) (.leaf "c")
    let calls : List (Call Trace) := [.not ⟨"trace", "A"⟩, .and ⟨"trace", "NOT(A)"⟩ ⟨"memory", "B"⟩]
    t.generate ctx = ⟨calls, .error (.incompatibleKinds "trace" "memory")⟩ ∧
    Stops ctx t.nodes calls (.incompatibleKinds "trace" "memory") ∧
    (l.generate ctx).outcome = .ok ⟨"trace", "NOT(A)"⟩ ∧ l.HasKind ctx "trace" ∧
    Visits ctx l.nodes [.not ⟨"trace", "A"⟩] := by
  intro ctx l t calls
  have hfails : t.generate ctx = ⟨calls, .error (.incompatibleKinds "trace" "memory")⟩ := rfl
  have hleft : l.generate ctx = ⟨[.not ⟨"trace", "A"⟩], .ok ⟨"trace", "NOT(A)"⟩⟩ := rfl
  obtain ⟨-, -, hstops⟩ := generate_in_postorder ctx t
  obtain ⟨-, hok, -⟩ := generate_in_postorder ctx l
  have hstop := hstops (.incompatibleKinds "trace" "memory") (by rw [hfails])
  obtain ⟨hkind, -, hvisits⟩ := hok ⟨"trace", "NOT(A)"⟩ (by rw [hleft])
  rw [hfails] at hstop
  rw [hleft] at hvisits
  exact ⟨hfails, hstop, by rw [hleft], hkind, hvisits⟩

end Expr.Tree

end FilterLogic
