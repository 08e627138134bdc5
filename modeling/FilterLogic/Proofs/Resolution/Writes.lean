import FilterLogic.Condition.Trace
import FilterLogic.Proofs.Resolution.Faults

/-!
# A context through a run of writes

Each write either puts one condition under its key or leaves the whole context as it was. So after
any run of writes a context is the one collected from the pairs it began with and the conditions
that were written since, and under each key it has the last of these.
-/

namespace FilterLogic

variable {C : Type}

namespace Write

/-- The condition that a write puts under a key. There is none if its filter is not valid or the
builder refuses it. -/
def written? : Write C → Option (String × C)
  | .insert key condition => some (key, condition)
  | .insertWith builder key f =>
    match f.validate, builder f.property f.operator f.value with
    | .ok _, .ok condition => some (key, condition)
    | _, _ => none

theorem written?_of_ok {builder : Builder C} {key : String} {f : Filter} {c : C}
    (h : (f.build builder).outcome = .ok c) :
    (insertWith builder key f).written? = some (key, c) := by
  obtain ⟨hvalid, hbuilt⟩ := Filter.build_eq_ok.mp h
  simp only [written?, hvalid, hbuilt]

theorem written?_of_error {builder : Builder C} {key : String} {f : Filter} {e : Error}
    (h : (f.build builder).outcome = .error e) : (insertWith builder key f).written? = none := by
  cases Filter.fault_of_build h with
  | invalid hinvalid => simp only [written?, hinvalid]
  | unbuilt hvalid hunbuilt => simp only [written?, hvalid, hunbuilt]

end Write

namespace Context

/-- A write puts its condition under its key and reports no error, or it has no condition, leaves
the context as it was and reports one. -/
theorem perform_cases (ctx : Context C) (w : Write C) :
    (∃ key c, w.written? = some (key, c) ∧ (ctx.perform w).1 = ctx.insert key c ∧
      (ctx.perform w).2.outcome = .ok ()) ∨
    (∃ builder key f source, w = .insertWith builder key f ∧ w.written? = none ∧
      (ctx.perform w).1 = ctx ∧ (ctx.perform w).2.outcome = .error (.filter key source) ∧
      f.Fault builder source) := by
  cases w with
  | insert key c => exact .inl ⟨key, c, rfl, rfl, rfl⟩
  | insertWith builder key f =>
      cases hbuild : (f.build builder).outcome with
      | ok c =>
          have hrun : (ctx.insertWith builder key f).outcome = .ok (ctx.insert key c) :=
            insertWith_eq_ok.mpr ⟨c, hbuild, rfl⟩
          refine .inl ⟨key, c, Write.written?_of_ok hbuild, ?_, ?_⟩
          · simp only [perform, hrun]
          · simp only [perform, hrun]
      | error source =>
          have hrun : (ctx.insertWith builder key f).outcome = .error (.filter key source) :=
            insertWith_eq_error.mpr ⟨source, hbuild, rfl⟩
          refine .inr ⟨builder, key, f, source, rfl, Write.written?_of_error hbuild, ?_, ?_,
            Filter.fault_of_build hbuild⟩
          · simp only [perform, hrun]
          · simp only [perform, hrun]

/-- The context after a run of writes, of which some may fail. -/
def performAll (ctx : Context C) (writes : List (Write C)) : Context C :=
  writes.foldl (fun ctx w => (ctx.perform w).1) ctx

/-- A run of writes puts the written conditions under their keys one after the other. -/
theorem performAll_eq_foldl (ctx : Context C) (writes : List (Write C)) :
    ctx.performAll writes =
      (writes.filterMap Write.written?).foldl (fun ctx entry => ctx.insert entry.1 entry.2) ctx := by
  induction writes generalizing ctx with
  | nil => rfl
  | cons w writes ih =>
      have hstep : ctx.performAll (w :: writes) = (ctx.perform w).1.performAll writes := rfl
      rcases ctx.perform_cases w with
        ⟨key, c, hwritten, hctx, -⟩ | ⟨builder, key, f, source, -, hwritten, hctx, -⟩
      · rw [hstep, hctx, ih, List.filterMap_cons_some hwritten, List.foldl_cons]
      · rw [hstep, hctx, ih, List.filterMap_cons_none hwritten]

/-- After a run of writes a collected context is the one collected from the conditions written since
as well. -/
theorem performAll_ofList (pairs : List (String × C)) (writes : List (Write C)) :
    performAll (KeyMap.ofList pairs) writes =
      KeyMap.ofList (pairs ++ writes.filterMap Write.written?) := by
  rw [performAll_eq_foldl, KeyMap.ofList, KeyMap.ofList, List.foldl_append]

/-- A context that has the last of some conditions under each of their keys, and nothing else. -/
structure Holds (ctx : Context C) (entries : List (String × C)) : Prop where
  get? (key : String) : ctx.get? key = lastUnder entries key
  contains (key : String) : ctx.contains key = (lastUnder entries key).isSome
  mem_keys (key : String) : key ∈ ctx.keys ↔ key ∈ entries.map (·.1)
  nodup_keys : ctx.keys.Nodup
  size : ctx.size = ctx.keys.length
  isEmpty : ctx.isEmpty = true ↔ entries = []
  resolve_ok (key : String) (c : C) : ctx.resolve key = .ok c ↔ lastUnder entries key = some c
  resolve_error (key : String) (e : Error) : ctx.resolve key = .error e ↔
    key ∉ entries.map (·.1) ∧ e = .unknownFilterKey key (Text.suggest? key ctx.keys)

theorem holds_ofList (entries : List (String × C)) :
    Holds (KeyMap.ofList entries) entries where
  get? := KeyMap.get?_ofList entries
  contains key := by rw [KeyMap.contains, KeyMap.get?_ofList]
  mem_keys _ := KeyMap.mem_keys_ofList
  nodup_keys := KeyMap.nodup_keys _
  size := (List.length_map _).symm
  isEmpty := by
    simp only [KeyMap.isEmpty_iff, KeyMap.mem_keys_ofList]
    rw [← List.eq_nil_iff_forall_not_mem, List.map_eq_nil_iff]
  resolve_ok key c := by rw [resolve_eq_ok, KeyMap.get?_ofList]
  resolve_error key e := by
    rw [resolve_eq_error, KeyMap.get?_ofList, ← isSome_lastUnder, Option.not_isSome_iff_eq_none]

/-- After any run of writes to a collected context it has, under each key, the condition of the last
write that did not fail, or else the last one that was collected. A write fails exactly if its
filter cannot be used. It then leaves the context as it was, and its error carries its key. -/
theorem holds_performAll :
    (∀ (pairs : List (String × C)) (writes : List (Write C)),
      Holds (performAll (KeyMap.ofList pairs) writes)
        (pairs ++ writes.filterMap Write.written?)) ∧
    (∀ (ctx : Context C) (w : Write C),
      (ctx.perform w).2.outcome = .ok () ↔ ∃ entry, w.written? = some entry) ∧
    (∀ (ctx : Context C) (builder : Builder C) (key : String) (f : Filter) (e : Error),
      (ctx.perform (.insertWith builder key f)).2.outcome = .error e →
        (ctx.perform (.insertWith builder key f)).1 = ctx ∧
          ∃ source, e = .filter key source ∧ f.Fault builder source) := by
  refine ⟨fun pairs writes => ?_, fun ctx w => ?_, fun ctx builder key f e he => ?_⟩
  · rw [performAll_ofList]
    exact holds_ofList _
  · rcases ctx.perform_cases w with
      ⟨key, c, hwritten, -, hok⟩ | ⟨builder, key, f, source, -, hwritten, -, herror, -⟩
    · exact iff_of_true hok ⟨_, hwritten⟩
    · simp [herror, hwritten]
  · rcases ctx.perform_cases (.insertWith builder key f) with
      ⟨_, c, -, -, hok⟩ | ⟨_, _, _, source, hw, -, hctx, herror, hfault⟩
    · rw [hok] at he
      cases he
    · cases hw
      rw [herror] at he
      cases he
      exact ⟨hctx, source, rfl, hfault⟩

/-- A key that is collected twice and then written again, and writes that fail on two keys with
conditions and on one without. -/
theorem holds_performAll_refused :
    let age : Filter := ⟨.withDefaults "age" .integer, .equals, .number (.integer 18)⟩
    let invalid : Filter := ⟨.withDefaults "age" .integer, .like, .text "1%"⟩
    let refuse : Builder Trace := fun property _ _ => .error (.emptyOperatorSet property.name)
    let ctx := performAll (KeyMap.ofList
        [("a", ⟨"trace", "first"⟩), ("a", ⟨"trace", "second"⟩), ("b", ⟨"trace", "third"⟩)])
      [.insert "a" ⟨"trace", "fourth"⟩, .insertWith Trace.build "a" invalid,
        .insertWith Trace.build "c" age, .insertWith refuse "b" age, .insertWith refuse "d" age]
    ctx.get? "a" = some ⟨"trace", "fourth"⟩ ∧ ctx.get? "b" = some ⟨"trace", "third"⟩ ∧
    ctx.resolve "c" = .ok ⟨"trace", "age = 18"⟩ ∧ ctx.contains "d" = false ∧ ctx.size = 3 ∧
    (ctx.perform (.insertWith refuse "b" age)).1 = ctx := by
  obtain ⟨hholds, -, hfails⟩ := holds_performAll (C := Trace)
  exact ⟨((hholds _ _).get? "a").trans rfl, ((hholds _ _).get? "b").trans rfl,
    ((hholds _ _).resolve_ok "c" _).mpr rfl, ((hholds _ _).contains "d").trans rfl,
    (hholds _ _).size.trans rfl, (hfails _ _ _ _ _ rfl).1⟩

end Context

end FilterLogic
