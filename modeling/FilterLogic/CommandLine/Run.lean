import FilterLogic.CommandLine.Arguments
import FilterLogic.Condition.Memory
import FilterLogic.Registry.Config
import FilterLogic.Report

/-!
# Running commands

What the program prints and how it exits is a function of its arguments, of the contents of the
files that they name and of the reports on files that cannot be read or decoded. A command stops at
its first failure, and one that fails prints nothing.

The log, which is written beside what is reported of a failure, is left out.
-/

namespace FilterLogic.CommandLine

/-- Why a command failed. -/
inductive Failure where
  | filter (error : Error)
  /-- A file cannot be read, with the system's reason. -/
  | unreadable (path reason : String)
  /-- A file does not hold the JSON that is looked for, with the report on it. -/
  | invalidJson (path report : String)
  deriving DecidableEq

namespace Failure

/-- The word for the sort of a failure. An empty list of operators is a fault of the
configuration. -/
def code : Failure → String
  | .filter (.configuration _) | .filter (.emptyOperatorSet _) => "CONFIG_ERROR"
  | .filter error => if error.isSyntaxError then "SYNTAX_ERROR" else "VALIDATION_ERROR"
  | .unreadable _ _ => "IO_ERROR"
  | .invalidJson _ _ => "INPUT_ERROR"

/-- The exit code for a failure. -/
def exitCode : Failure → Nat
  | .filter (.configuration _) | .filter (.emptyOperatorSet _) => 5
  | .filter error => if error.isSyntaxError then 1 else 2
  | .unreadable _ _ | .invalidJson _ _ => 3

/-- The message for a failure. -/
def message : Failure → String
  | .filter error => error.message
  | .unreadable path reason => "cannot read " ++ path ++ ": " ++ reason
  | .invalidJson path report => "invalid JSON in " ++ path ++ ": " ++ report

/-- A failure as JSON. -/
def json (f : Failure) : String :=
  (Json.Value.object
    [("error", .object [("code", .text f.code), ("message", .text f.message)])]).pretty

end Failure

/-- What JSON a file is read for. -/
inductive Form where
  | request
  | records
  deriving DecidableEq

/-- What a run is given from outside: the contents of files by path, or why one cannot be read, and
the reports on documents that cannot be decoded. -/
structure World where
  read : String → Except String String
  configReport : ConfigReport
  jsonReport : Form → String → String

/-- Reads a file. -/
def readFile (w : World) (path : String) : Except Failure String :=
  (w.read path).mapError (.unreadable path)

/-- Reads a file that holds JSON of a certain form. -/
def readJson (w : World) (form : Form) (parse? : String → Option α) (path : String) :
    Except Failure α := do
  let text ← readFile w path
  match parse? text with
  | some a => .ok a
  | none => .error (.invalidJson path (w.jsonReport form text))

/-- The items of a JSON array. -/
def parseRecords? (text : String) : Option (List Json.Value) :=
  match Json.Value.parse? text with
  | some (.array records) => some records
  | _ => none

/-- Loads the registry, reads the request and looks up its names. -/
def loadRequest (w : World) (schema request : String) : Except Failure Request := do
  let registry ← (Registry.load w.configReport (← readFile w schema)).mapError .filter
  let raw ← readJson w .request RawRequest.parse? request
  (registry.resolveRequest raw).mapError .filter

/-- A result in the forms in which it can be printed: JSON, or text with or without colours. -/
structure Display where
  json : String
  text : Bool → String

/-- What a command has to show. -/
def Command.run (w : World) : Command → Except Failure Display
  | .parse expression => do
    let t ← (Expr.parse expression).mapError fun fault => .filter (.expression fault)
    return ⟨Report.expressionJson t, (Report.expressionText · t)⟩
  | .tokens expression => do
    let tokens ← (Expr.tokenize expression).mapError fun fault => .filter (.expression fault)
    return ⟨Report.tokensJson tokens, (Report.tokensText · tokens)⟩
  | .eval schema request data => do
    let request ← loadRequest w schema request
    let condition ← (request.resolve Predicate.build).outcome.mapError .filter
    let records ← readJson w .records parseRecords? data
    let found := condition.filter records
    return ⟨Report.recordsJson found records.length,
      (Report.recordsText · found records.length)⟩
  | .sql schema request dialect => do
    let request ← loadRequest w schema request
    let fragment ← (request.resolve (Sql.Fragment.build dialect)).outcome.mapError .filter
    return ⟨Report.sqlJson fragment, (Report.sqlText · fragment)⟩

/-- How the program ends. -/
inductive Outcome where
  /-- Without failure, having printed a text. -/
  | success (output : String)
  /-- With a failure, reported as JSON or as text. -/
  | failure (failure : Failure) (asJson : Bool)
  /-- With a note on how to call the program. -/
  | usage

/-- What is printed of a result. JSON takes precedence over quiet, and a line break follows it. -/
def Invocation.output (i : Invocation) (d : Display) : String :=
  if i.flags.contains .json then d.json ++ "\n"
  else if i.flags.contains .quiet then ""
  else d.text (!i.flags.contains .noColor)

/-- Runs a command. -/
def Invocation.run (i : Invocation) (w : World) : Outcome :=
  match i.command.run w with
  | .ok d => .success (i.output d)
  | .error failure => .failure failure (i.flags.contains .json)

/-- The files that a command may read. -/
def Command.paths : Command → List String
  | .parse _ | .tokens _ => []
  | .eval schema request data => [schema, request, data]
  | .sql schema request _ => [schema, request]

/-- The name of the program. -/
def programName : String := "fql"

/-- The name of the program or of one of its commands, with the version. -/
def versionLine (verb : Option Verb) : String :=
  let name :=
    match verb with
    | some verb => programName ++ "-" ++ verb.name
    | none => programName
  name ++ " 0.1.0\n"

/-- How the program is called. -/
def usageText : String :=
  "Usage: " ++ programName ++ " [-v | -q] [--json] [--no-color] COMMAND\n\n" ++
    "  parse EXPRESSION\n" ++
    "  tokens EXPRESSION\n" ++
    "  eval -s SCHEMA -r REQUEST -d DATA\n" ++
    "  sql -s SCHEMA -r REQUEST [--dialect postgres|sqlite]\n"

/-- Runs the program. -/
def run (args : List String) (w : World) : Outcome :=
  match readInvocation args with
  | .ok invocation => invocation.run w
  | .error .usage => .usage
  | .error .help => .success usageText
  | .error (.version verb) => .success (versionLine verb)

namespace Outcome

/-- The exit code. -/
def exitCode : Outcome → Nat
  | .success _ => 0
  | .failure f _ => f.exitCode
  | .usage => 2

/-- The standard output. -/
def output : Outcome → String
  | .success output => output
  | _ => ""

/-- What is reported on the standard error. -/
def diagnostics : Outcome → String
  | .success _ => ""
  | .failure f true => f.json ++ "\n"
  | .failure f false => "Error: " ++ f.message ++ "\n"
  | .usage => usageText

end Outcome

end FilterLogic.CommandLine
