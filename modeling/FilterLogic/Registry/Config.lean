import FilterLogic.Registry
import FilterLogic.Toml.Reader

/-!
# Property configurations

A registry is configured by a TOML document with one table of properties, each with its type and
optionally its operators. The document is decoded in the order in which it is written, and the
first fault found is reported. Only then are the properties made, in ascending order of name, so
that an empty list of operators is reported for the least name that has one.

A report on a fault shows the line of the document too. It is not made here but taken from outside.
-/

namespace FilterLogic

/-- What is wrong with a property configuration. -/
inductive ConfigFault where
  | unknownOperator (text : String)
  | unknownType (name : String)
  | unknownTable (name : String)
  | unknownSetting (name : String)
  | missingType
  /-- The configuration is no document, or a value has the wrong shape. -/
  | malformed
  deriving DecidableEq

/-- What a fault is in one line, where it can be told so. -/
def ConfigFault.message : ConfigFault → String
  | .unknownOperator text => "unknown operator: " ++ text
  | .unknownType name =>
    "unknown variant `" ++ name ++ "`, expected one of `text`, `integer`, `number`, `boolean`"
  | .unknownTable name => "unknown field `" ++ name ++ "`, expected `properties`"
  | .unknownSetting name => "unknown field `" ++ name ++ "`, expected `type` or `operators`"
  | .missingType => "missing field `type`"
  | .malformed => ""

/-- The reports on faults, by the text of the document and its fault. -/
abbrev ConfigReport := String → ConfigFault → String

/-- What a configuration says about a property. -/
structure PropertyConfig where
  type : PropertyType
  operators : Option (List Operator)
  deriving DecidableEq

namespace PropertyConfig

open Toml (Value Entries)

/-- Whether a value holds nothing, so that it may stand under a name that says everything. -/
def isVoid : Value → Bool
  | .array [] | .table _ [] | .tables [] => true
  | _ => false

/-- The type that a name denotes. -/
def typeOfName (name : String) : Except ConfigFault PropertyType :=
  match PropertyType.parse? name with
  | some t => .ok t
  | none => .error (.unknownType name)

/-- Decodes a type: its name, or a table with nothing under the name. -/
def decodeType : Value → Except ConfigFault PropertyType
  | .text name => typeOfName name
  | .table _ [(name, value)] => do
    let t ← typeOfName name
    if isVoid value then return t else .error .malformed
  | _ => .error .malformed

/-- Decodes an operator. -/
def decodeOperator : Value → Except ConfigFault Operator
  | .text text =>
    match Operator.parse? text with
    | some op => .ok op
    | none => .error (.unknownOperator (Text.trim text))
  | _ => .error .malformed

/-- Decodes a list of operators. -/
def decodeOperators : Value → Except ConfigFault (List Operator)
  | .array items => items.mapM decodeOperator
  | .tables items => items.mapM decodeOperator
  | _ => .error .malformed

/-- The settings of a property found so far. -/
structure Settings where
  type : Option PropertyType
  operators : Option (List Operator)

/-- Decodes one setting. -/
def decodeSetting (s : Settings) (entry : String × Value) : Except ConfigFault Settings :=
  if entry.1 = "type" then do return { s with type := some (← decodeType entry.2) }
  else if entry.1 = "operators" then do
    return { s with operators := some (← decodeOperators entry.2) }
  else .error (.unknownSetting entry.1)

/-- Decodes a property from the list of its settings. Both are needed; more are passed over. -/
def decodeList : List Value → Except ConfigFault PropertyConfig
  | type :: operators :: _ => do
    return ⟨← decodeType type, some (← decodeOperators operators)⟩
  | [type] => do
    let _ ← decodeType type
    .error .malformed
  | [] => .error .malformed

/-- The setting that a date or a time counts as, in the place of a table of settings. -/
def momentSetting : String := "$__toml_private_datetime"

/-- Decodes a property from a table of settings or from their list. A moment counts as a table with
one setting, which is not known. -/
def decode : Value → Except ConfigFault PropertyConfig
  | .table _ entries => do
    let settings ← entries.foldlM decodeSetting ⟨none, none⟩
    match settings.type with
    | some type => return ⟨type, settings.operators⟩
    | none => .error .missingType
  | .array items => decodeList items
  | .tables items => decodeList items
  | .moment => .error (.unknownSetting momentSetting)
  | _ => .error .malformed

/-- Decodes the properties under their names. -/
def decodeAll : Entries → Except ConfigFault (List (String × PropertyConfig))
  | [] => .ok []
  | (name, value) :: rest => do
    let config ← decode value
    return (name, config) :: (← decodeAll rest)

/-- Decodes a document, in which only the table of properties is known. Without it there are no
properties. -/
def decodeDocument : Entries → Except ConfigFault (List (String × PropertyConfig))
  | [] => .ok []
  | (name, value) :: rest => do
    if name = "properties" then
      match value with
      | .table _ entries =>
        let configs ← decodeAll entries
        return configs ++ (← decodeDocument rest)
      | _ => .error .malformed
    else .error (.unknownTable name)

/-- Decodes the text of a document. -/
def parse (text : String) : Except ConfigFault (KeyMap PropertyConfig) :=
  match Toml.parse? text with
  | some entries => KeyMap.ofList <$> decodeDocument entries
  | none => .error .malformed

end PropertyConfig

namespace Registry

/-- Declares properties one after the other. -/
def declareAll : List (String × PropertyConfig) → Except Error (List Property)
  | [] => .ok []
  | (name, config) :: rest => do
    let p ← Property.declare name config.type config.operators
    return p :: (← declareAll rest)

/-- The registry that a configuration describes. -/
def ofConfig (config : KeyMap PropertyConfig) : Except Error Registry :=
  ofList <$> declareAll config.entries

/-- Loads a registry from the text of its configuration. -/
def load (report : ConfigReport) (text : String) : Except Error Registry := do
  let config ← (PropertyConfig.parse text).mapError fun fault => .configuration (report text fault)
  ofConfig config

end Registry

end FilterLogic
