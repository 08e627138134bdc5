import FilterLogic.Proofs.CommandLine.Stages

/-!
# How runs end

Each step of a command fails as its stage does, provided that the stages before it passed. So the
whole command ends with the failure of the first stage that fails, and well if none does.
-/

namespace FilterLogic.CommandLine

section Reading

variable {w : World} {form : Form} {path text : String} {f : Failure}

theorem readFile_eq_ok : readFile w path = .ok text ↔ w.read path = .ok text :=
  Outcome.mapError_eq_ok

theorem readFile_eq_error :
    readFile w path = .error f ↔ ∃ reason, w.read path = .error reason ∧
      f = .unreadable path reason :=
  Outcome.mapError_eq_error

variable {α : Type} {parse? : String → Option α}

/-- Decodes the contents of a file. -/
def decodeText (w : World) (form : Form) (parse? : String → Option α) (path text : String) :
    Except Failure α :=
  match parse? text with
  | some a => .ok a
  | none => .error (.invalidJson path (w.jsonReport form text))

theorem readJson_eq :
    readJson w form parse? path = readFile w path >>= decodeText w form parse? path := rfl

theorem decodeText_eq_ok {a : α} :
    decodeText w form parse? path text = .ok a ↔ parse? text = some a := by
  rw [decodeText]
  cases parse? text <;> simp

theorem decodeText_eq_error :
    decodeText w form parse? path text = .error f ↔
      parse? text = none ∧ f = .invalidJson path (w.jsonReport form text) := by
  rw [decodeText]
  cases parse? text <;> simp [eq_comm]

end Reading

namespace Job

variable {C : Type} {job : Job C} {w : World}

theorem Registers.unique {registry registry' : Registry} (h : job.Registers w registry)
    (h' : job.Registers w registry') : registry = registry' := by
  obtain ⟨text, htext, hload⟩ := h
  obtain ⟨text', htext', hload'⟩ := h'
  obtain rfl := Except.ok.inj (htext.symm.trans htext')
  exact Except.ok.inj (hload.symm.trans hload')

theorem Submits.unique {raw raw' : RawRequest} (h : job.Submits w raw)
    (h' : job.Submits w raw') : raw = raw' := by
  obtain ⟨text, htext, hparse⟩ := h
  obtain ⟨text', htext', hparse'⟩ := h'
  obtain rfl := Except.ok.inj (htext.symm.trans htext')
  exact Option.some.inj (hparse.symm.trans hparse')

section Stages

variable {f : Failure} {text : String} {registry : Registry} {raw : RawRequest}

theorem readSchema_iff :
    readFile w job.schema = .error f ↔ job.Fails w .readSchema f := by
  rw [readFile_eq_error]
  constructor
  · rintro ⟨reason, h, rfl⟩
    exact .readSchema h
  · rintro ⟨h⟩
    exact ⟨_, h, rfl⟩

theorem loadRegistry_iff (hschema : w.read job.schema = .ok text) :
    (Registry.load w.configReport text).mapError .filter = .error f ↔
      job.Fails w .loadRegistry f := by
  rw [Outcome.mapError_eq_error]
  simp only [Registry.load_eq_error]
  constructor
  · rintro ⟨_, ⟨fault, hfault, rfl⟩ | ⟨config, name, c, hconfig, hname, h, hleast, rfl⟩, rfl⟩
    · exact .configuration hschema hfault
    · exact .emptyOperators hschema hconfig hname h hleast
  · rintro (_ | ⟨hschema', h⟩ | ⟨hschema', hconfig, hname, h, hleast⟩)
    · obtain rfl := Except.ok.inj (hschema.symm.trans hschema')
      exact ⟨_, .inl ⟨_, h, rfl⟩, rfl⟩
    · obtain rfl := Except.ok.inj (hschema.symm.trans hschema')
      exact ⟨_, .inr ⟨_, _, _, hconfig, hname, h, hleast, rfl⟩, rfl⟩

theorem readRequest_iff :
    readFile w job.request = .error f ↔ job.Fails w .readRequest f := by
  rw [readFile_eq_error]
  constructor
  · rintro ⟨reason, h, rfl⟩
    exact .readRequest h
  · intro h
    cases h with
    | readRequest h => exact ⟨_, h, rfl⟩

theorem decodeRequest_iff (hrequest : w.read job.request = .ok text) :
    decodeText w .request RawRequest.parse? job.request text = .error f ↔
      job.Fails w .decodeRequest f := by
  rw [decodeText_eq_error]
  constructor
  · rintro ⟨h, rfl⟩
    exact .decodeRequest hrequest h
  · intro h
    cases h with
    | decodeRequest hrequest' h =>
        obtain rfl := Except.ok.inj (hrequest.symm.trans hrequest')
        exact ⟨h, rfl⟩

theorem parseExpression_iff (hraw : job.Submits w raw) :
    ((Expr.parse raw.combineWith).mapError Error.expression).mapError .filter = .error f ↔
      job.Fails w .parseExpression f := by
  rw [Outcome.mapError_eq_error]
  constructor
  · rintro ⟨_, h, rfl⟩
    obtain ⟨fault, hfault, rfl⟩ := Outcome.mapError_eq_error.mp h
    exact .parseExpression hraw hfault
  · intro h
    cases h with
    | parseExpression hraw' h =>
        obtain rfl := hraw.unique hraw'
        exact ⟨_, Outcome.mapError_eq_error.mpr ⟨_, h, rfl⟩, rfl⟩

theorem lookUpNames_iff (hregistry : job.Registers w registry)
    (hraw : job.Submits w raw) :
    (registry.resolveFilters raw.filters.entries).mapError .filter = .error f ↔
      job.Fails w .lookUpNames f := by
  rw [Outcome.mapError_eq_error]
  constructor
  · rintro ⟨_, h, rfl⟩
    obtain ⟨key, rawFilter, source, hkey, hfault, hleast, rfl⟩ :=
      Registry.resolveFilters_eq_error.mp h
    exact .lookUpNames hregistry hraw hkey hfault hleast
  · intro h
    cases h with
    | lookUpNames hregistry' hraw' hkey hfault hleast =>
        obtain rfl := hregistry.unique hregistry'
        obtain rfl := hraw.unique hraw'
        exact ⟨_, Registry.resolveFilters_eq_error.mpr ⟨_, _, _, hkey, hfault, hleast, rfl⟩, rfl⟩

variable {entries : List (String × Filter)}

theorem buildFilters_iff (hregistry : job.Registers w registry)
    (hraw : job.Submits w raw)
    (hentries : registry.resolveFilters raw.filters.entries = .ok entries) :
    ((Context.build job.builder (Request.ofList entries raw.combineWith)).outcome).mapError
        .filter = .error f ↔ job.Fails w .buildFilters f := by
  have hget {key g} : (Request.ofList entries raw.combineWith).filters.get? key = some g ↔
      ∃ rawFilter, raw.filters.get? key = some rawFilter ∧ rawFilter.Means registry g :=
    Registry.get?_of_resolveFilters hentries
  rw [Outcome.mapError_eq_error]
  simp only [Context.build_eq_error_iff, hget]
  constructor
  · rintro ⟨_, ⟨key, g, source, ⟨rawFilter, hkey, hmeans⟩, hfault, hleast, rfl⟩, rfl⟩
    refine .buildFilters hregistry hraw hkey hmeans hfault fun key' rawFilter' g' hlt hkey' h => ?_
    exact hleast key' g' hlt ⟨rawFilter', hkey', h⟩
  · intro h
    cases h with
    | buildFilters hregistry' hraw' hkey hmeans hfault hleast =>
        obtain rfl := hregistry.unique hregistry'
        obtain rfl := hraw.unique hraw'
        refine ⟨_, ⟨_, _, _, ⟨_, hkey, hmeans⟩, hfault, ?_, rfl⟩, rfl⟩
        rintro key' g' hlt ⟨rawFilter', hkey', hmeans'⟩
        exact hleast key' rawFilter' g' hlt hkey' hmeans'

theorem findLeaves_iff [Condition C] [LawfulCondition C] {kind : String}
    (hbuilder : job.builder.Regular kind) (hraw : job.Submits w raw) {t : Expr.Tree}
    (hparse : Expr.parse raw.combineWith = .ok t)
    (hentries : registry.resolveFilters raw.filters.entries = .ok entries) {ctx : Context C}
    (hctx : (Context.build job.builder (Request.ofList entries raw.combineWith)).outcome =
      .ok ctx) :
    ((t.generate ctx).outcome).mapError .filter = .error f ↔ job.Fails w .findLeaves f := by
  have hcontains (key : String) : ctx.contains key = raw.filters.contains key := by
    rw [← Registry.contains_of_resolveFilters hentries key, Bool.eq_iff_iff, KeyMap.contains,
      Option.isSome_iff_exists]
    exact Context.contains_of_build hctx key
  have hkeys : ctx.keys = raw.filters.keys := KeyMap.keys_eq_of_contains hcontains
  have huniform := Context.uniform_of_build hbuilder hctx
  rw [Outcome.mapError_eq_error]
  simp only [Expr.Tree.generate_eq_error_iff huniform, hcontains, hkeys]
  constructor
  · rintro ⟨_, ⟨key, hkey, rfl⟩, rfl⟩
    exact .findLeaves hraw hparse hkey
  · intro h
    cases h with
    | findLeaves hraw' hparse' hkey =>
        obtain rfl := hraw.unique hraw'
        obtain rfl := Except.ok.inj (hparse.symm.trans hparse')
        exact ⟨_, ⟨_, hkey, rfl⟩, rfl⟩

theorem readRecords_iff {path : String} (hdata : job.data = some path) :
    readFile w path = .error f ↔ job.Fails w .readRecords f := by
  rw [readFile_eq_error]
  constructor
  · rintro ⟨reason, h, rfl⟩
    exact .readRecords hdata h
  · intro h
    cases h with
    | readRecords hdata' h =>
        obtain rfl := Option.some.inj (hdata.symm.trans hdata')
        exact ⟨_, h, rfl⟩

theorem decodeRecords_iff {path : String} (hdata : job.data = some path)
    (hrecords : w.read path = .ok text) :
    decodeText w .records parseRecords? path text = .error f ↔ job.Fails w .decodeRecords f := by
  rw [decodeText_eq_error]
  constructor
  · rintro ⟨h, rfl⟩
    exact .decodeRecords hdata hrecords h
  · intro h
    cases h with
    | decodeRecords hdata' hrecords' h =>
        obtain rfl := Option.some.inj (hdata.symm.trans hdata')
        obtain rfl := Except.ok.inj (hrecords.symm.trans hrecords')
        exact ⟨h, rfl⟩

end Stages

/-- What is known of a request once it is loaded: where it comes from, that its expression is one
and that its names could be looked up. -/
structure Loads (job : Job C) (w : World) (request : Request) where
  registry : Registry
  raw : RawRequest
  t : Expr.Tree
  entries : List (String × Filter)
  registers : job.Registers w registry
  submits : job.Submits w raw
  parse_eq : Expr.parse raw.combineWith = .ok t
  resolve_eq : registry.resolveFilters raw.filters.entries = .ok entries
  request_eq : request = Request.ofList entries raw.combineWith

variable {β : Type}

/-- Loading a request passes through the stages before the filters are built. -/
theorem decided_load (job : Job C) {rest : Request → Except Failure β}
    (hrest : ∀ request, job.Loads w request →
      Passed (job.Fails w) Stage.buildFilters.index →
      Decided (job.Fails w) (rest request)) :
    Decided (job.Fails w) (loadRequest w job.schema job.request >>= rest) := by
  simp only [loadRequest, readJson_eq, Registry.resolveRequest, Outcome.mapError_bind, bind_assoc]
  have hnone : Passed (job.Fails w) Stage.readSchema.index := fun _ _ hlt => nomatch hlt
  refine .step .readSchema hnone (fun _ => readSchema_iff) fun text htext hpassed => ?_
  have hschema := readFile_eq_ok.mp htext
  refine .step .loadRegistry hpassed (fun _ => loadRegistry_iff hschema)
    fun registry hload hpassed => ?_
  have hregistry : job.Registers w registry :=
    ⟨text, hschema, Outcome.mapError_eq_ok.mp hload⟩
  refine .step .readRequest hpassed (fun _ => readRequest_iff) fun text htext hpassed => ?_
  have hrequest := readFile_eq_ok.mp htext
  refine .step .decodeRequest hpassed (fun _ => decodeRequest_iff hrequest)
    fun raw hdecode hpassed => ?_
  have hraw : job.Submits w raw := ⟨text, hrequest, decodeText_eq_ok.mp hdecode⟩
  refine .step .parseExpression hpassed (fun _ => parseExpression_iff hraw) fun t ht hpassed => ?_
  have hparse := Outcome.mapError_eq_ok.mp (Outcome.mapError_eq_ok.mp ht)
  refine .step .lookUpNames hpassed (fun _ => lookUpNames_iff hregistry hraw)
    fun entries hentries hpassed => ?_
  have hresolve := Outcome.mapError_eq_ok.mp hentries
  exact hrest _ ⟨registry, raw, t, entries, hregistry, hraw, hparse, hresolve, rfl⟩ hpassed

/-- Resolving a request that is loaded passes through the stages before the records are read. -/
theorem decided_resolve [Condition C] [LawfulCondition C] {kind : String}
    (hbuilder : job.builder.Regular kind) {request : Request} (hload : job.Loads w request)
    (hpassed : Passed (job.Fails w) Stage.buildFilters.index) {rest : C → Except Failure β}
    (hrest : ∀ c, Passed (job.Fails w) Stage.readRecords.index →
      Decided (job.Fails w) (rest c)) :
    Decided (job.Fails w)
      ((request.resolve job.builder).outcome.mapError .filter >>= rest) := by
  obtain ⟨registry, raw, t, entries, hregistry, hraw, hparse, hentries, rfl⟩ := hload
  have htree : (Request.ofList entries raw.combineWith).tree = .ok t :=
    Request.tree_eq_ok.mpr hparse
  -- The expression is parsed once more here, and was found to be one when the request was loaded.
  rw [Request.outcome_resolve, htree, Outcome.ok_bind, Outcome.mapError_bind, bind_assoc]
  refine .step .buildFilters hpassed (fun _ => buildFilters_iff hregistry hraw hentries)
    fun ctx hbuilt hpassed => ?_
  have hctx := Outcome.mapError_eq_ok.mp hbuilt
  refine .step .findLeaves hpassed (fun _ => findLeaves_iff hbuilder hraw hparse hentries hctx)
    fun c _ hpassed => ?_
  exact hrest c hpassed

end Job

theorem decided_expression {α β : Type} {x : Except SyntaxError α} {display : α → β} :
    Decided (ExpressionFails x)
      (x.mapError (fun fault => Failure.filter (.expression fault)) >>= fun a =>
        .ok (display a)) := by
  have hbefore : Passed (ExpressionFails x) Stage.parseExpression.index := by
    rintro s f hlt ⟨rfl, -⟩
    exact absurd hlt (Nat.lt_irrefl _)
  refine .step .parseExpression hbefore (fun f => ?_) fun a _ hpassed => .done ?_
  · rw [Outcome.mapError_eq_error, ExpressionFails, eq_self, true_and]
  · rintro s f - ⟨rfl, hfault⟩
    exact hpassed .parseExpression f (Nat.lt_succ_self _) ⟨rfl, hfault⟩

/-- Every command ends with the failure of the first stage that fails, or well. -/
theorem Command.decided_run (w : World) (command : Command) :
    Decided (command.Fails w) (command.run w) := by
  cases command with
  | parse expression => exact decided_expression
  | tokens expression => exact decided_expression
  | eval schema request data =>
      let job : Job Predicate := ⟨schema, request, some data, Predicate.build⟩
      refine job.decided_load fun request hload hpassed => ?_
      refine Job.decided_resolve Predicate.regular_build hload hpassed fun condition hpassed => ?_
      rw [readJson_eq, bind_assoc]
      refine .step .readRecords hpassed (fun _ => Job.readRecords_iff rfl)
        fun text htext hpassed => ?_
      have hrecords := readFile_eq_ok.mp htext
      refine .step .decodeRecords hpassed (fun _ => Job.decodeRecords_iff rfl hrecords)
        fun records _ hpassed => ?_
      exact .done hpassed
  | sql schema request dialect =>
      let job : Job Sql.Fragment := ⟨schema, request, none, Sql.Fragment.build dialect⟩
      refine job.decided_load fun request hload hpassed => ?_
      refine Job.decided_resolve (Sql.Fragment.regular_build dialect) hload hpassed
        fun fragment hpassed => ?_
      -- A job without records passes the stages about them.
      have hread : Passed (job.Fails w) Stage.decodeRecords.index :=
        hpassed.next .readRecords fun f h => by
          cases h with
          | readRecords hdata _ => cases hdata
      have hdecoded : Passed (job.Fails w) 10 :=
        hread.next .decodeRecords fun f h => by
          cases h with
          | decodeRecords hdata _ _ => cases hdata
      exact .done hdecoded

/-- The sort of a failure is told by the stage. -/
theorem Job.report_of_fails {C : Type} {job : Job C} {w : World} {s : Stage} {f : Failure}
    (h : job.Fails w s f) : (f.exitCode, f.code) = s.report := by
  cases h <;> rfl

theorem Command.report_of_fails {w : World} {command : Command} {s : Stage} {f : Failure}
    (h : command.Fails w s f) : (f.exitCode, f.code) = s.report := by
  cases command with
  | parse expression =>
      obtain ⟨rfl, fault, -, rfl⟩ := h
      rfl
  | tokens expression =>
      obtain ⟨rfl, fault, -, rfl⟩ := h
      rfl
  | eval schema request data => exact Job.report_of_fails h
  | sql schema request dialect => exact Job.report_of_fails h

theorem Failure.exitCode_pos (f : Failure) : 0 < f.exitCode := by
  unfold exitCode
  split
  case h_3 => split <;> decide
  all_goals decide

/-- What the message for a failure says: the file that it is about, with the reason or the report, or
else what the error says. -/
inductive Failure.Says : Failure → String → Prop
  | filter (error : Error) : Says (.filter error) error.message
  | unreadable (path reason : String) :
      Says (.unreadable path reason) ("cannot read " ++ path ++ ": " ++ reason)
  | invalidJson (path report : String) :
      Says (.invalidJson path report) ("invalid JSON in " ++ path ++ ": " ++ report)

theorem Failure.says_message (f : Failure) : f.Says f.message := by
  cases f with
  | filter error => exact .filter error
  | unreadable path reason => exact .unreadable path reason
  | invalidJson path report => exact .invalidJson path report

/-- The report on a failure with a word for it and a message: an object that holds the two, or a
line with the message. -/
def reportText (asJson : Bool) (code message : String) : String :=
  if asJson then
    "\x7b\n  \"error\": \x7b\n    \"code\": " ++ String.ofList (Json.quote code) ++
      ",\n    \"message\": " ++ String.ofList (Json.quote message) ++ "\n  \x7d\n\x7d\n"
  else "Error: " ++ message ++ "\n"

theorem Outcome.diagnostics_failure (f : Failure) (asJson : Bool) :
    (failure f asJson).diagnostics = reportText asJson f.code f.message := by
  cases asJson with
  | false => rfl
  | true =>
      have hnames : Json.quote "error" = "\"error\"".toList ∧
          Json.quote "code" = "\"code\"".toList ∧
          Json.quote "message" = "\"message\"".toList := by
        decide
      rw [← String.toList_inj]
      simp [hnames, diagnostics, reportText, Failure.json, Json.Value.pretty,
        Json.Value.prettyChars, Json.Value.prettyFields, Json.Value.bracketed, Json.Value.newLine,
        Json.joinChars]

/-- What two runs report of the same: nothing at all, or one failure, each run in its own form. -/
inductive ReportAlike (asJson asJson' : Bool) : String → String → Prop
  | nothing : ReportAlike asJson asJson' "" ""
  | failure (code message : String) :
      ReportAlike asJson asJson' (reportText asJson code message) (reportText asJson' code message)

/-- How a run of a command ends. -/
structure EndsByStage (w : World) (i : Invocation) (outcome : Outcome) : Prop where
  /-- It fails with the failure of the first stage that fails, and the flags decide only in which
  form that is reported. -/
  failure_iff (f : Failure) (asJson : Bool) : outcome = .failure f asJson ↔
    asJson = i.flags.contains .json ∧ ∃ s, FirstFailure (i.command.Fails w) s f
  /-- The exit code and the word for the failure are those of the stage. Nothing is printed, and the
  word and the message are reported. -/
  report {s f} (h : FirstFailure (i.command.Fails w) s f) :
    (outcome.exitCode, f.code) = s.report ∧ outcome.output = "" ∧
      ∃ message, f.Says message ∧
        outcome.diagnostics = reportText (i.flags.contains .json) s.report.2 message
  /-- It succeeds exactly if no stage fails, and then nothing is reported. -/
  exitCode_eq_zero : outcome.exitCode = 0 ↔ ∀ s f, ¬ i.command.Fails w s f
  diagnostics_eq_empty (h : outcome.exitCode = 0) : outcome.diagnostics = ""

theorem Invocation.endsByStage_run (w : World) (i : Invocation) :
    EndsByStage w i (i.run w) := by
  have hdecided := i.command.decided_run w
  have hfailure (f : Failure) (asJson : Bool) : i.run w = .failure f asJson ↔
      asJson = i.flags.contains .json ∧ ∃ s, FirstFailure (i.command.Fails w) s f := by
    rw [← hdecided f, run]
    cases i.command.run w with
    | ok d => simp
    | error e => simp [eq_comm, and_comm]
  refine ⟨hfailure, fun {s f} hfirst => ?_, ?_, ?_⟩
  · have hreport := Command.report_of_fails hfirst.1
    rw [(hfailure f _).mpr ⟨rfl, s, hfirst⟩, Outcome.diagnostics_failure, ← hreport]
    exact ⟨rfl, rfl, f.message, f.says_message, rfl⟩
  · rw [← hdecided.exists_ok, run]
    cases i.command.run w with
    | ok d => simp [Outcome.exitCode]
    | error e => simp [Outcome.exitCode, e.exitCode_pos.ne']
  · rw [run]
    cases i.command.run w with
    | ok d => exact fun _ => rfl
    | error e => exact fun h => absurd h e.exitCode_pos.ne'

theorem run_eq {args : List String} {i : Invocation} (h : readInvocation args = .ok i)
    (w : World) : run args w = i.run w := by
  rw [run, h]

/-- A run of any command that the arguments call ends with the failure of the first stage that
fails, or well. Runs of one command end with the same exit code and report the same word and the
same message, whatever the flags. -/
theorem run_decided :
    (∀ args w i, readInvocation args = .ok i → EndsByStage w i (run args w)) ∧
    ∀ args args' w i i', readInvocation args = .ok i → readInvocation args' = .ok i' →
      i.command = i'.command →
      (run args w).exitCode = (run args' w).exitCode ∧
        ReportAlike (i.flags.contains .json) (i'.flags.contains .json) (run args w).diagnostics
          (run args' w).diagnostics := by
  refine ⟨fun args w i h => ?_, fun args args' w i i' h h' hcommand => ?_⟩
  · rw [run_eq h]
    exact i.endsByStage_run w
  · rw [run_eq h, run_eq h', Invocation.run, Invocation.run, hcommand]
    cases i'.command.run w with
    | ok d => exact ⟨rfl, .nothing⟩
    | error f =>
        rw [Outcome.diagnostics_failure, Outcome.diagnostics_failure]
        exact ⟨rfl, .failure f.code f.message⟩

/-- The expression of a request is at fault, its property is not known and the records cannot be
read: the expression is reported, as text or as JSON. -/
theorem run_decided_faults :
    let w : World :=
      { read := fun path =>
          if path = "schema.toml" then .ok ""
          else if path = "request.json" then
            .ok "[\x7b\"adult\":[\"age\",\">=\",18]\x7d,\"adult &\"]"
          else .error "No such file or directory (os error 2)"
        configReport := fun _ fault => fault.message
        jsonReport := fun _ _ => "EOF while parsing a value at line 1 column 0" }
    let command := Command.eval "schema.toml" "request.json" "data.json"
    let operands := ["-s", "schema.toml", "-r", "request.json", "-d", "data.json"]
    let plain := run ("eval" :: operands) w
    let json := run ("--json" :: "eval" :: "--quiet" :: operands) w
    ∃ f, FirstFailure (command.Fails w) .parseExpression f ∧
      plain = .failure f false ∧ json = .failure f true ∧ plain.exitCode = 1 ∧ json.exitCode = 1 ∧
      plain.diagnostics = "Error: AND operator is missing an operand\n" ∧
      json.diagnostics =
        reportText true "SYNTAX_ERROR" "AND operator is missing an operand" := by
  intro w command operands plain json
  have hcall : readInvocation ("eval" :: operands) = .ok ⟨[], command⟩ := by decide +kernel
  have hcall' : readInvocation ("--json" :: "eval" :: "--quiet" :: operands) =
      .ok ⟨[.json, .quiet], command⟩ := by decide +kernel
  obtain ⟨hends, hflags⟩ := run_decided
  have hplain := hends _ w _ hcall
  have hjson := hends _ w _ hcall'
  have hcode : plain.exitCode = 1 := by decide +kernel
  have hfails : ¬ ∀ s f, ¬ command.Fails w s f := by
    rw [← hplain.exitCode_eq_zero, hcode]
    decide
  push Not at hfails
  obtain ⟨s', f', hfails⟩ := hfails
  obtain ⟨s, f, hfirst⟩ := exists_firstFailure hfails
  obtain ⟨hreport, -⟩ := hplain.report hfirst
  have hs : s = .parseExpression := by
    rw [hcode] at hreport
    cases s <;> first | rfl | simp [Stage.report] at hreport
  subst hs
  have hreported : json.diagnostics =
      reportText true "SYNTAX_ERROR" "AND operator is missing an operand" := by
    decide +kernel
  exact ⟨f, hfirst, (hplain.failure_iff f false).mpr ⟨rfl, _, hfirst⟩,
    (hjson.failure_iff f true).mpr ⟨rfl, _, hfirst⟩, hcode,
    (hflags _ _ w _ _ hcall' hcall rfl).1.trans hcode, by decide +kernel, hreported⟩

end FilterLogic.CommandLine
