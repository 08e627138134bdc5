/-!
# Tables of TOML

Values and the rules by which statements define tables. A table is defined once: by its own
header, by dotted keys, or in braces. A table that only occurs inside the path of a header is
implied, and its header may still follow. Entries stay in the order in which their keys came first;
an implied table moves to the end when its header follows.
-/

namespace FilterLogic.Toml

/-- How a table came to be. -/
inductive Origin where
  /-- Under its own header, or as the whole document. -/
  | header
  /-- Inside the path of a header. -/
  | implied
  /-- Inside a dotted key. -/
  | dotted
  /-- In braces. -/
  | braces
  deriving DecidableEq, Repr

/-- A value of TOML. What a number, a boolean or a moment is does not matter here, since no setting
is one. -/
inductive Value where
  | text (value : String)
  /-- A date, a time of day or both. -/
  | moment
  /-- A number or a boolean. -/
  | other
  | array (items : List Value)
  | table (origin : Origin) (entries : List (String × Value))
  /-- Tables under double-bracketed headers of one name. -/
  | tables (elements : List Value)

instance : Inhabited Value := ⟨.other⟩

/-- The entries of a table in order of definition. -/
abbrev Entries := List (String × Value)

namespace Entries

/-- The value of a key. -/
def find? (key : String) (entries : Entries) : Option Value := List.lookup key entries

/-- Puts a value in place of the one under a key, or at the end. -/
def put (key : String) (value : Value) : Entries → Entries
  | [] => [(key, value)]
  | (k, v) :: rest => if k = key then (k, value) :: rest else (k, v) :: put key value rest

/-- The entries without a key. -/
def without (key : String) (entries : Entries) : Entries := entries.filter (·.1 ≠ key)

/-- Changes the table at the end of a path. Missing tables on the way are made. A value that is no
table, and a table in braces, cannot be entered; by a dotted key neither can a table with its own
header. Of tables under double-bracketed headers the last one is entered. -/
def descend (dotted : Bool) (change : Origin → Entries → Option (α × Entries)) :
    List String → Origin → Entries → Option (α × Entries)
  | [], origin, entries => change origin entries
  | key :: path, _, entries =>
    match find? key entries with
    | none => do
      let origin := if dotted then .dotted else .implied
      let (a, inner) ← descend dotted change path origin []
      return (a, entries ++ [(key, .table origin inner)])
    | some (.table origin inner) =>
      if origin = .braces || (dotted && origin = .header) then none
      else do
        let (a, inner) ← descend dotted change path origin inner
        return (a, put key (.table origin inner) entries)
    | some (.tables elements) =>
      match elements.getLast? with
      | some (.table origin inner) => do
        let (a, inner) ← descend dotted change path origin inner
        return (a, put key (.tables (elements.dropLast ++ [.table origin inner])) entries)
      | _ => none
    | some _ => none

/-- Defines a key, dotted or not, by a value. The table that a dotted key leads to must be made of
dotted keys, and the last part of the key must be new there. -/
def define (path : List String) (key : String) (value : Value) (origin : Origin)
    (entries : Entries) : Option Entries := do
  let add (origin : Origin) (entries : Entries) : Option (Unit × Entries) :=
    if (origin == .dotted) == path.isEmpty then none
    else if (find? key entries).isSome then none
    else some ((), entries ++ [(key, value)])
  let (_, entries) ← descend true add path origin entries
  return entries

/-- The entries of a table in braces. -/
def ofPairs (pairs : List (List String × String × Value)) : Option Entries :=
  pairs.foldlM (fun entries (path, key, value) => define path key value .braces entries) []

end Entries

/-- A statement of a document. A key is split into its path and its last part. -/
inductive Statement where
  | pair (path : List String) (key : String) (value : Value)
  | header (path : List String) (key : String)
  | element (path : List String) (key : String)

/-- Where the table belongs that statements are being added to. -/
inductive Place where
  | document
  | table (path : List String) (key : String)
  | element (path : List String) (key : String)

/-- A document up to a statement. The table that is open is kept apart from the others. -/
structure Document where
  root : Entries
  place : Place
  opened : Entries

namespace Document

/-- The document without statements. -/
def start : Document := ⟨[], .document, []⟩

/-- The whole document with the open table put in its place. -/
def close (d : Document) : Option Entries :=
  match d.place with
  | .document => some d.opened
  | .table path key => do
    let put (_ : Origin) (entries : Entries) : Option (Unit × Entries) :=
      some ((), entries.put key (.table .header d.opened))
    let (_, root) ← Entries.descend false put path .header d.root
    return root
  | .element path key => do
    let append (_ : Origin) (entries : Entries) : Option (Unit × Entries) :=
      match entries.find? key with
      | some (.tables elements) =>
        some ((), entries.put key (.tables (elements ++ [.table .header d.opened])))
      | _ => none
    let (_, root) ← Entries.descend false append path .header d.root
    return root

/-- Opens the table of a header: a new one, or one that was implied so far. -/
def openTable (root : Entries) (path : List String) (key : String) : Option Document := do
  let take (_ : Origin) (entries : Entries) : Option (Entries × Entries) :=
    match entries.find? key with
    | none => some ([], entries)
    | some (.table .implied inner) => some (inner, entries.without key)
    | some _ => none
  let (opened, root) ← Entries.descend false take path .header root
  return ⟨root, .table path key, opened⟩

/-- Opens another table of a double-bracketed header. -/
def openElement (root : Entries) (path : List String) (key : String) : Option Document := do
  let prepare (_ : Origin) (entries : Entries) : Option (Unit × Entries) :=
    match entries.find? key with
    | none => some ((), entries ++ [(key, .tables [])])
    | some (.tables _) => some ((), entries)
    | some _ => none
  let (_, root) ← Entries.descend false prepare path .header root
  return ⟨root, .element path key, []⟩

/-- Adds a statement. -/
def step (d : Document) : Statement → Option Document
  | .pair path key value => do
    return { d with opened := ← Entries.define path key value .header d.opened }
  | .header path key => do openTable (← d.close) path key
  | .element path key => do openElement (← d.close) path key

/-- The entries of the document that statements define. -/
def ofStatements (statements : List Statement) : Option Entries := do
  (← statements.foldlM step start).close

end Document

end FilterLogic.Toml
