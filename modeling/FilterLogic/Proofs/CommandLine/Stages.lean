import FilterLogic.CommandLine.Run
import FilterLogic.Proofs.Registry.Loading
import FilterLogic.Proofs.Resolution.Backends
import FilterLogic.Proofs.Resolution.Lookup

/-!
# The stages of a command

A command passes through stages in a fixed order, and each stage can fail in its own way. The first
one that fails decides how the program ends, whatever would fail later and whatever the flags are.

## Implementation notes

What a stage fails with is said about the contents of the files, without reference to the stages
before it: a file may be unreadable although a file that is read earlier is unreadable as well.
-/

namespace FilterLogic.CommandLine

/-- The stages of a command in the order in which it passes through them. -/
inductive Stage where
  | readSchema
  | loadRegistry
  | readRequest
  | decodeRequest
  | parseExpression
  | lookUpNames
  | buildFilters
  | findLeaves
  | readRecords
  | decodeRecords
  deriving DecidableEq

namespace Stage

/-- The place of a stage. -/
def index : Stage → Nat
  | .readSchema => 0
  | .loadRegistry => 1
  | .readRequest => 2
  | .decodeRequest => 3
  | .parseExpression => 4
  | .lookUpNames => 5
  | .buildFilters => 6
  | .findLeaves => 7
  | .readRecords => 8
  | .decodeRecords => 9

theorem index_injective : Function.Injective index := by
  intro s s' h
  cases s <;> cases s' <;> first | rfl | cases h

theorem index_lt (s : Stage) : s.index < 10 := by
  cases s <;> decide

/-- The exit code of a program that fails at a stage, and the word for the failure. -/
def report : Stage → Nat × String
  | .readSchema => (3, "IO_ERROR")
  | .loadRegistry => (5, "CONFIG_ERROR")
  | .readRequest => (3, "IO_ERROR")
  | .decodeRequest => (3, "INPUT_ERROR")
  | .parseExpression => (1, "SYNTAX_ERROR")
  | .lookUpNames => (2, "VALIDATION_ERROR")
  | .buildFilters => (2, "VALIDATION_ERROR")
  | .findLeaves => (2, "VALIDATION_ERROR")
  | .readRecords => (3, "IO_ERROR")
  | .decodeRecords => (3, "INPUT_ERROR")

end Stage

section Chains

variable {fails : Stage → Failure → Prop} {α β : Type}

/-- No stage fails before the one at a place. -/
def Passed (fails : Stage → Failure → Prop) (place : Nat) : Prop :=
  ∀ s f, s.index < place → ¬ fails s f

/-- The failure of the first stage that fails. -/
def FirstFailure (fails : Stage → Failure → Prop) (s : Stage) (f : Failure) : Prop :=
  fails s f ∧ Passed fails s.index

/-- A computation that ends with the first failure of the stages, or well if there is none. -/
def Decided (fails : Stage → Failure → Prop) (x : Except Failure α) : Prop :=
  ∀ f, x = .error f ↔ ∃ s, FirstFailure fails s f

/-- A stage that does not fail is passed. -/
theorem Passed.next (s : Stage) (hpassed : Passed fails s.index) (hnever : ∀ f, ¬ fails s f) :
    Passed fails (s.index + 1) := by
  intro s' f hlt hfails
  rcases Nat.lt_succ_iff_lt_or_eq.mp hlt with hlt | heq
  · exact hpassed s' f hlt hfails
  · obtain rfl := Stage.index_injective heq
    exact hnever f hfails

/-- If any stage fails, one is the first to fail. -/
theorem exists_firstFailure {s : Stage} {f : Failure} (h : fails s f) :
    ∃ s' f', FirstFailure fails s' f' := by
  induction hplace : s.index using Nat.strong_induction_on generalizing s f with
  | _ place ih =>
      by_cases hpassed : Passed fails s.index
      · exact ⟨s, f, h, hpassed⟩
      · simp only [Passed, not_forall, not_not] at hpassed
        obtain ⟨s', f', hlt, hfails⟩ := hpassed
        exact ih s'.index (hplace ▸ hlt) hfails rfl

/-- A computation that is decided ends well exactly if no stage fails. -/
theorem Decided.exists_ok {x : Except Failure α} (h : Decided fails x) :
    (∃ a, x = .ok a) ↔ ∀ s f, ¬ fails s f := by
  constructor
  · rintro ⟨a, rfl⟩ s f hfails
    obtain ⟨s', f', hfirst⟩ := exists_firstFailure hfails
    exact nomatch (h f').mpr ⟨s', hfirst⟩
  · intro hnone
    cases x with
    | ok a => exact ⟨a, rfl⟩
    | error f =>
        obtain ⟨s, hfails, -⟩ := (h f).mp rfl
        exact absurd hfails (hnone s f)

/-- A chain whose first step is the next stage is decided, if its rest is when that passes. -/
theorem Decided.step (s : Stage) {x : Except Failure α} {rest : α → Except Failure β}
    (hpassed : Passed fails s.index) (hstage : ∀ f, x = .error f ↔ fails s f)
    (hrest : ∀ a, x = .ok a → Passed fails (s.index + 1) → Decided fails (rest a)) :
    Decided fails (x >>= rest) := by
  cases x with
  | ok a =>
      have hnever : ∀ f, ¬ fails s f := fun f hfails => nomatch (hstage f).mpr hfails
      exact hrest a rfl (hpassed.next s hnever)
  | error e =>
      intro f
      rw [Outcome.error_bind]
      constructor
      · intro h
        cases h
        exact ⟨s, (hstage e).mp rfl, hpassed⟩
      · rintro ⟨s', hfails, hfirst⟩
        -- The stages before `s` do not fail, and those after it are not the first to fail.
        rcases Nat.lt_trichotomy s'.index s.index with hlt | heq | hgt
        · exact absurd hfails (hpassed s' f hlt)
        · obtain rfl := Stage.index_injective heq
          exact Except.error.inj ((hstage f).mpr hfails) ▸ rfl
        · exact absurd ((hstage e).mp rfl) (hfirst s e hgt)

/-- After the last stage nothing fails. -/
theorem Decided.done {a : α} (hpassed : Passed fails 10) : Decided fails (.ok a) := by
  intro f
  constructor
  · exact nofun
  · rintro ⟨s, hfails, -⟩
    exact absurd hfails (hpassed s f s.index_lt)

end Chains

/-- What commands that load a request have in common: the files that they read and what they make of
the filters. -/
structure Job (C : Type) where
  schema : String
  request : String
  data : Option String
  builder : Builder C

namespace Job

variable {C : Type}

/-- The registry that the files of a job describe. -/
def Registers (job : Job C) (w : World) (registry : Registry) : Prop :=
  ∃ text, w.read job.schema = .ok text ∧ Registry.load w.configReport text = .ok registry

/-- The request that the files of a job hold. -/
def Submits (job : Job C) (w : World) (raw : RawRequest) : Prop :=
  ∃ text, w.read job.request = .ok text ∧ RawRequest.parse? text = some raw

/-- How the stages of a job fail. -/
inductive Fails (job : Job C) (w : World) : Stage → Failure → Prop
  | readSchema {reason} (h : w.read job.schema = .error reason) :
      Fails job w .readSchema (.unreadable job.schema reason)
  | configuration {text fault} (hschema : w.read job.schema = .ok text)
      (h : PropertyConfig.parse text = .error fault) :
      Fails job w .loadRegistry (.filter (.configuration (w.configReport text fault)))
  | emptyOperators {text config name c} (hschema : w.read job.schema = .ok text)
      (hconfig : PropertyConfig.parse text = .ok config) (hname : config.get? name = some c)
      (h : c.ListsNone)
      (hleast : ∀ name' c', name' < name → config.get? name' = some c' → ¬ c'.ListsNone) :
      Fails job w .loadRegistry (.filter (.emptyOperatorSet name))
  | readRequest {reason} (h : w.read job.request = .error reason) :
      Fails job w .readRequest (.unreadable job.request reason)
  | decodeRequest {text} (hrequest : w.read job.request = .ok text)
      (h : RawRequest.parse? text = none) :
      Fails job w .decodeRequest (.invalidJson job.request (w.jsonReport .request text))
  | parseExpression {raw fault} (hraw : job.Submits w raw)
      (h : Expr.parse raw.combineWith = .error fault) :
      Fails job w .parseExpression (.filter (.expression fault))
  | lookUpNames {registry raw key rawFilter source} (hregistry : job.Registers w registry)
      (hraw : job.Submits w raw) (hkey : raw.filters.get? key = some rawFilter)
      (h : rawFilter.Fault registry source)
      (hleast : ∀ key' rawFilter', key' < key → raw.filters.get? key' = some rawFilter' →
        ∃ f, rawFilter'.Means registry f) :
      Fails job w .lookUpNames (.filter (.filter key source))
  | buildFilters {registry raw key rawFilter f source} (hregistry : job.Registers w registry)
      (hraw : job.Submits w raw) (hkey : raw.filters.get? key = some rawFilter)
      (hmeans : rawFilter.Means registry f) (h : f.Fault job.builder source)
      (hleast : ∀ key' rawFilter' f', key' < key → raw.filters.get? key' = some rawFilter' →
        rawFilter'.Means registry f' → f'.Usable job.builder) :
      Fails job w .buildFilters (.filter (.filter key source))
  | findLeaves {raw t key} (hraw : job.Submits w raw)
      (hparse : Expr.parse raw.combineWith = .ok t)
      (h : t.leaves.find? (fun name => !raw.filters.contains name) = some key) :
      Fails job w .findLeaves
        (.filter (.unknownFilterKey key (Text.suggest? key raw.filters.keys)))
  | readRecords {path reason} (hdata : job.data = some path) (h : w.read path = .error reason) :
      Fails job w .readRecords (.unreadable path reason)
  | decodeRecords {path text} (hdata : job.data = some path) (hrecords : w.read path = .ok text)
      (h : parseRecords? text = none) :
      Fails job w .decodeRecords (.invalidJson path (w.jsonReport .records text))

end Job

/-- A command that takes an expression as an operand has one stage, which fails with its fault. -/
def ExpressionFails {α : Type} (x : Except SyntaxError α) (s : Stage) (f : Failure) : Prop :=
  s = .parseExpression ∧ ∃ fault, x = .error fault ∧ f = .filter (.expression fault)

/-- How the stages of a command fail. -/
def Command.Fails (w : World) : Command → Stage → Failure → Prop
  | .parse expression => ExpressionFails (Expr.parse expression)
  | .tokens expression => ExpressionFails (Expr.tokenize expression)
  | .eval schema request data => Job.Fails ⟨schema, request, some data, Predicate.build⟩ w
  | .sql schema request dialect =>
      Job.Fails ⟨schema, request, none, Sql.Fragment.build dialect⟩ w

end FilterLogic.CommandLine
