import FilterLogic.Condition.Sql

/-!
# Arguments of the command line

The program is called with a command and its operands; flags may stand before the command and after
it. Arguments are read from left to right. A request for the version or for help takes effect where
it stands, before anything that follows it is looked at. Options and flags may be given once on
either side of the command, and `--` ends them.
-/

namespace FilterLogic.CommandLine

/-- Flags of all commands. -/
inductive Flag where
  | verbose
  | quiet
  | json
  | noColor
  deriving DecidableEq, Repr

/-- Options with a value. -/
inductive Setting where
  | schema
  | request
  | data
  | dialect
  deriving DecidableEq, Repr

/-- What an option means. -/
inductive Switch where
  | flag (flag : Flag)
  | setting (setting : Setting)
  | help
  | version
  deriving DecidableEq, Repr

/-- The names of the commands. -/
inductive Verb where
  | parse
  | tokens
  | eval
  | sql
  deriving DecidableEq, Repr

/-- A command with its operands. -/
inductive Command where
  | parse (expression : String)
  | tokens (expression : String)
  | eval (schema request data : String)
  | sql (schema request : String) (dialect : Sql.Dialect)
  deriving DecidableEq, Repr

/-- A command and the flags that it was called with. -/
structure Invocation where
  flags : List Flag
  command : Command
  deriving DecidableEq, Repr

/-- Why the arguments call no command. -/
inductive Halt where
  | usage
  | help
  /-- The version was asked for, of the program or of a command. -/
  | version (verb : Option Verb)
  deriving DecidableEq, Repr

namespace Verb

/-- The full name of a command. -/
def name : Verb → String
  | .parse => "parse"
  | .tokens => "tokens"
  | .eval => "eval"
  | .sql => "sql"

/-- The command that a word names, in full or by its first letter. -/
def parse? : String → Option Verb
  | "parse" | "p" => some .parse
  | "tokens" | "t" => some .tokens
  | "eval" | "e" => some .eval
  | "sql" => some .sql
  | _ => none

/-- The options with a value that a command knows. -/
def settings : Verb → List Setting
  | .parse | .tokens => []
  | .eval => [.schema, .request, .data]
  | .sql => [.schema, .request, .dialect]

/-- The number of operands that are no options. -/
def positionals : Verb → Nat
  | .parse | .tokens => 1
  | .eval | .sql => 0

end Verb

namespace Switch

/-- The option of a long name. -/
def ofLong? : String → Option Switch
  | "verbose" => some (.flag .verbose)
  | "quiet" => some (.flag .quiet)
  | "json" => some (.flag .json)
  | "no-color" => some (.flag .noColor)
  | "help" => some .help
  | "version" => some .version
  | "schema" => some (.setting .schema)
  | "request" => some (.setting .request)
  | "data" => some (.setting .data)
  | "dialect" => some (.setting .dialect)
  | _ => none

/-- The option of a letter. -/
def ofShort? : Char → Option Switch
  | 'v' => some (.flag .verbose)
  | 'q' => some (.flag .quiet)
  | 'h' => some .help
  | 'V' => some .version
  | 's' => some (.setting .schema)
  | 'r' => some (.setting .request)
  | 'd' => some (.setting .data)
  | _ => none

/-- Whether an option is known before a command, or to a command. -/
def isKnown (verb : Option Verb) : Switch → Bool
  | .setting s =>
    match verb with
    | some verb => verb.settings.contains s
    | none => false
  | _ => true

end Switch

/-- What was found on one side of the command. -/
structure Found where
  flags : List Flag
  settings : List (Setting × String)
  positionals : List String

namespace Found

/-- Nothing found yet. -/
def empty : Found := ⟨[], [], []⟩

/-- Takes a flag, once. -/
def addFlag (f : Found) (flag : Flag) : Except Halt Found :=
  if f.flags.contains flag then .error .usage else .ok { f with flags := f.flags ++ [flag] }

/-- Whether a value suits an option: a path is not empty, and a dialect is known. -/
def suits : Setting → String → Bool
  | .dialect, value => (Sql.Dialect.parse? value).isSome
  | _, value => value ≠ ""

/-- Takes an option with its value, once. -/
def addSetting (f : Found) (setting : Setting) (value : String) : Except Halt Found :=
  if suits setting value && !(f.settings.any (·.1 == setting)) then
    .ok { f with settings := f.settings ++ [(setting, value)] }
  else .error .usage

/-- Takes an operand, of which a command has a fixed number. -/
def addPositional (f : Found) (verb : Option Verb) (value : String) : Except Halt Found :=
  if f.positionals.length < (verb.map Verb.positionals).getD 0 then
    .ok { f with positionals := f.positionals ++ [value] }
  else .error .usage

/-- Takes an option without a value. -/
def addSwitch (f : Found) (verb : Option Verb) : Switch → Except Halt Found
  | .flag flag => f.addFlag flag
  | .help => .error .help
  | .version => .error (.version verb)
  | .setting _ => .error .usage

/-- The value of an option. -/
def value? (f : Found) (setting : Setting) : Option String := List.lookup setting f.settings

end Found

/-- What reading one argument that begins with a dash leads to. -/
inductive Reading where
  | done (found : Found)
  /-- The next argument is the value of an option. -/
  | needs (setting : Setting) (found : Found)

/-- Reads a long option without its dashes. -/
def readLong (verb : Option Verb) (f : Found) (cs : List Char) : Except Halt Reading :=
  let name := String.ofList (cs.takeWhile (· ≠ '='))
  let attached := cs.dropWhile (· ≠ '=')
  match (Switch.ofLong? name).filter (Switch.isKnown verb) with
  | some (.setting setting) =>
    match attached with
    | [] => .ok (.needs setting f)
    | _ :: value => do return .done (← f.addSetting setting (String.ofList value))
  | some switch =>
    if attached.isEmpty then do return .done (← f.addSwitch verb switch) else .error .usage
  | none => .error .usage

/-- Reads letters after a dash. The rest of the argument is the value of the first option that
takes one, with or without an equality sign. -/
def readShort (verb : Option Verb) (f : Found) : List Char → Except Halt Reading
  | [] => .ok (.done f)
  | c :: rest =>
    match (Switch.ofShort? c).filter (Switch.isKnown verb) with
    | some (.setting setting) =>
      match rest with
      | [] => .ok (.needs setting f)
      | '=' :: value => do return .done (← f.addSetting setting (String.ofList value))
      | value => do return .done (← f.addSetting setting (String.ofList value))
    | some switch => do readShort verb (← f.addSwitch verb switch) rest
    | none => .error .usage

/-- Whether an argument is an option or ends the options. A single dash is neither. -/
def isOption (arg : String) : Bool :=
  match arg.toList with
  | '-' :: _ :: _ => true
  | _ => false

/-- Reads one option. -/
def readOption (verb : Option Verb) (f : Found) (arg : String) : Except Halt Reading :=
  match arg.toList with
  | '-' :: '-' :: cs => readLong verb f cs
  | _ :: cs => readShort verb f cs
  | [] => .error .usage

/-- Reads arguments after `--`, which are operands. -/
def readPositionals (verb : Option Verb) (f : Found) (args : List String) : Except Halt Found :=
  args.foldlM (fun f arg => f.addPositional verb arg) f

/-- Reads the arguments of a command. -/
def readArguments (verb : Verb) (f : Found) : List String → Except Halt Found
  | [] => .ok f
  | arg :: rest =>
    if arg = "--" then readPositionals (some verb) f rest
    else if isOption arg then do
      match ← readOption (some verb) f arg with
      | .done f => readArguments verb f rest
      | .needs setting f =>
        match rest with
        | value :: rest =>
          if isOption value then .error .usage
          else do readArguments verb (← f.addSetting setting value) rest
        | [] => .error .usage
    else do readArguments verb (← f.addPositional (some verb) arg) rest

/-- Checks that a help request names one command, if anything. -/
def readHelp : List String → Halt
  | [] => .help
  | [arg] => if arg = "help" || (Verb.parse? arg).isSome then .help else .usage
  | _ => .usage

/-- Reads the flags before the command and the command. -/
def readVerb (f : Found) : List String → Except Halt (Found × Verb × List String)
  | [] => .error .usage
  | arg :: rest =>
    if isOption arg then do
      match ← readOption none f arg with
      | .done f => readVerb f rest
      | .needs _ _ => .error .usage
    else
      match Verb.parse? arg with
      | some verb => .ok (f, verb, rest)
      | none => .error (if arg = "help" then readHelp rest else .usage)

/-- Whether flags on one side of the command go together. -/
def areCompatible (flags : List Flag) : Bool := !(flags.contains .verbose && flags.contains .quiet)

/-- The command that was found, if its operands are complete. -/
def commandOf (verb : Verb) (f : Found) : Option Command :=
  match verb, f.positionals with
  | .parse, [expression] => some (.parse expression)
  | .tokens, [expression] => some (.tokens expression)
  | .eval, [] => do
    return .eval (← f.value? .schema) (← f.value? .request) (← f.value? .data)
  | .sql, [] => do
    let dialect ←
      match f.value? .dialect with
      | some name => Sql.Dialect.parse? name
      | none => some Sql.Dialect.default
    return .sql (← f.value? .schema) (← f.value? .request) dialect
  | _, _ => none

/-- Reads the arguments of the program. -/
def readInvocation (args : List String) : Except Halt Invocation := do
  let (before, verb, rest) ← readVerb Found.empty args
  let after ← readArguments verb Found.empty rest
  match commandOf verb after with
  | some command =>
    if areCompatible before.flags && areCompatible after.flags then
      return ⟨before.flags ++ after.flags, command⟩
    else .error .usage
  | none => .error .usage

end FilterLogic.CommandLine
