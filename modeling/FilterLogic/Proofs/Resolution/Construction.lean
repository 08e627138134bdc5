import FilterLogic.Condition.Trace
import FilterLogic.Proofs.Resolution.Faults

/-!
# Building the context of listed filters

Of several filters listed for one key the last one is kept. The kept filters are visited in
ascending order of key, and each is validated before the builder is called for it. The first one
that is not valid or cannot be built ends the construction, so either all of them are written or
there is no context. Nothing depends on the order of the list but which filter is kept.
-/

namespace FilterLogic

variable {C : Type} {builder : Builder C}

/-- The filters of a request, in ascending order of key, are the last ones listed under each key. -/
theorem Request.mem_entries_ofList {filters : List (String × Filter)} {combineWith key : String}
    {f : Filter} : (key, f) ∈ (Request.ofList filters combineWith).filters.entries ↔
      lastUnder filters key = some f := by
  rw [← KeyMap.get?_eq_some_iff, Request.ofList, KeyMap.get?_ofList]

/-- A request with distinct keys does not show the order in which its filters were listed. -/
theorem Request.ofList_of_perm {filters filters' : List (String × Filter)}
    (hperm : filters.Perm filters') (hkeys : (filters.map (·.1)).Nodup) (combineWith : String) :
    Request.ofList filters combineWith = Request.ofList filters' combineWith := by
  rw [Request.ofList, Request.ofList, KeyMap.ofList_of_perm hperm hkeys]

namespace Context

/-- A context has the keys of its request, and the builder's results under them. -/
theorem keys_of_build {request : Request} {ctx : Context C}
    (h : (build builder request).outcome = .ok ctx) :
    ctx.keys = request.filters.keys ∧
      ∀ entry ∈ request.filters.entries, ∃ c,
        builder entry.2.property entry.2.operator entry.2.value = .ok c ∧
          ctx.get? entry.1 = some c := by
  constructor
  · apply KeyMap.keys_eq_of_contains
    intro key
    rw [Bool.eq_iff_iff, ← contains_of_build h key]
    exact Option.isSome_iff_exists
  · rintro ⟨key, f⟩ hmem
    have husable := (usable_of_insertAll h).1 _ hmem
    obtain ⟨hvalid, c, hbuilt⟩ := husable
    refine ⟨c, hbuilt, (get?_build h).mpr ⟨f, KeyMap.get?_eq_some_iff.mpr hmem, ?_⟩⟩
    exact Filter.build_eq_ok.mpr ⟨hvalid, hbuilt⟩

/-- The construction of a context from listed filters: when it has a result and which one, which
filter ends it otherwise, what the builder is called for, and that the order of filters with
distinct keys makes no difference to any of this. -/
theorem build_ofList (builder : Builder C) (filters : List (String × Filter))
    (combineWith : String) :
    ∃ kept : List (String × Filter), AscendingKeys kept ∧
      (∀ key f, (key, f) ∈ kept ↔ lastUnder filters key = some f) ∧
      let run := build builder (Request.ofList filters combineWith)
      ((∃ ctx, run.outcome = .ok ctx) ↔ ∀ entry ∈ kept, entry.2.Usable builder) ∧
      (∀ ctx, run.outcome = .ok ctx →
        ctx.keys = kept.map (·.1) ∧
        (∀ entry ∈ kept, ∃ c,
          builder entry.2.property entry.2.operator entry.2.value = .ok c ∧
            ctx.get? entry.1 = some c) ∧
        run.calls = kept.map fun entry => entry.2.call) ∧
      (∀ e, run.outcome = .error e →
        ∃ before key f after source, kept = before ++ (key, f) :: after ∧
          (∀ entry ∈ before, entry.2.Usable builder) ∧ f.Fault builder source ∧
          e = .filter key source ∧
          run.calls = before.map (fun entry => entry.2.call) ++ f.attempts) ∧
      ∀ filters', filters.Perm filters' → (filters.map (·.1)).Nodup →
        build builder (Request.ofList filters' combineWith) = run := by
  let request := Request.ofList filters combineWith
  refine ⟨request.filters.entries, request.filters.ascending,
    fun _ _ => Request.mem_entries_ofList, ?_, ?_, ?_, ?_⟩
  · rw [exists_build_eq_ok]
    constructor
    · intro husable entry hentry
      exact husable entry.1 entry.2 (KeyMap.get?_eq_some_iff.mpr hentry)
    · intro husable key f hf
      exact husable (key, f) (KeyMap.get?_eq_some_iff.mp hf)
  · intro ctx hctx
    obtain ⟨hkeys, hvalues⟩ := keys_of_build hctx
    exact ⟨hkeys, hvalues, (usable_of_insertAll hctx).2⟩
  · intro e he
    exact insertAll_eq_error he
  · intro filters' hperm hkeys
    rw [Request.ofList_of_perm hperm hkeys]

/-- Three keys, one of them listed twice, with two filters that cannot be used: the last filter under
the lesser key is reported, after a call for each of the first two keys. In another order of the
same keys nothing changes. -/
theorem build_ofList_refused :
    let builder : Builder Trace := fun property op value =>
      match property.type with
      | .boolean => .error (.emptyOperatorSet property.name)
      | _ => Trace.build property op value
    let age : Filter := ⟨.withDefaults "age" .integer, .equals, .number (.integer 18)⟩
    let secret : Filter := ⟨.withDefaults "secret" .boolean, .equals, .bool true⟩
    let invalid : Filter := ⟨.withDefaults "age" .integer, .like, .text "1%"⟩
    let run := build builder (Request.ofList
      [("b", invalid), ("c", invalid), ("a", age), ("b", secret)] "a & b & c")
    run.outcome = .error (.filter "b" (.emptyOperatorSet "secret")) ∧
    run.calls = [age.call, secret.call] ∧ secret.Fault builder (.emptyOperatorSet "secret") ∧
    build builder (Request.ofList [("c", invalid), ("a", age), ("b", secret)] "a & b & c") =
      build builder (Request.ofList [("a", age), ("b", secret), ("c", invalid)] "a & b & c") := by
  intro builder age secret invalid run
  obtain ⟨kept, -, hkept, -, -, herror, -⟩ := build_ofList builder
    [("b", invalid), ("c", invalid), ("a", age), ("b", secret)] "a & b & c"
  obtain ⟨-, -, -, -, -, -, hperm⟩ := build_ofList builder
    [("a", age), ("b", secret), ("c", invalid)] "a & b & c"
  have hrun : run =
      ⟨[age.call, secret.call], .error (.filter "b" (.emptyOperatorSet "secret"))⟩ := by
    unfold run invalid secret age builder
    rfl
  have houtcome : run.outcome = .error (.filter "b" (.emptyOperatorSet "secret")) := by rw [hrun]
  obtain ⟨before, key, f, after, source, hsplit, -, hfault, he, -⟩ := herror _ houtcome
  cases he
  have hlast : lastUnder _ "b" = some f := (hkept "b" f).mp (by simp [hsplit])
  cases hlast
  have hmoved : ([("a", age), ("b", secret)] ++ [("c", invalid)]).Perm
      ([("c", invalid)] ++ [("a", age), ("b", secret)]) := List.perm_append_comm
  exact ⟨houtcome, by rw [hrun], hfault, hperm _ hmoved (by simp)⟩

end Context

end FilterLogic
