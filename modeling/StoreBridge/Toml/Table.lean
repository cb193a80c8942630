import StoreBridge.Entries
import StoreBridge.Toml.Basic

/-!
Tables while a document is read. Every key is written once: a table has one header, a table that
dotted keys made is only written to by dotted keys, and an array grows by one table a header.
-/
namespace StoreBridge.Toml

inductive TableKind where
  /-- By the header of a table inside it. -/
  | implied
  | dotted
  /-- By its own header. -/
  | header
  deriving DecidableEq, Repr

inductive Node where
  | value (value : Toml)
  | table (kind : TableKind) (fields : List (String × Node))
  /-- The tables of an array that has headers; it is never empty. -/
  | tables (items : List (List (String × Node)))
  deriving Repr

abbrev Fields := Entries Node

mutual

def Node.toToml : Node → Toml
  | .value value => value
  | .table _ fields => .table (tomlFields fields)
  | .tables items => .array (tomlTables items)

def tomlFields : List (String × Node) → List (String × Toml)
  | [] => []
  | (key, node) :: rest => (key, node.toToml) :: tomlFields rest

def tomlTables : List (List (String × Node)) → List Toml
  | [] => []
  | fields :: rest => .table (tomlFields fields) :: tomlTables rest

end

/-- Changes the table at a path. A table that is missing on the way is made, and of an array the
    last table is taken. A dotted key does not go through a table with a header. -/
def alter (isDotted : Bool) (change : TableKind → Fields → Option Fields) :
    List String → TableKind → Fields → Option Fields
  | [], kind, fields => change kind fields
  | key :: path, _, fields =>
    match fields.get? key with
    | none =>
      let kind := if isDotted then .dotted else .implied
      (alter isDotted change path kind []).map fun inner => fields.insert key (.table kind inner)
    | some (.value _) => none
    | some (.tables items) =>
      (alter isDotted change path .header (items.getLast?.getD [])).map fun inner =>
        fields.insert key (.tables (items.dropLast ++ [inner]))
    | some (.table kind inner) =>
      if isDotted && kind == .header then none
      else
        (alter isDotted change path kind inner).map fun inner =>
          fields.insert key (.table kind inner)

structure Assignment where
  path : List String
  key : String
  value : Toml
  deriving Repr

def assign (fields : Fields) (a : Assignment) : Option Fields :=
  let write (kind : TableKind) (fields : Fields) : Option Fields :=
    if (kind == .dotted) == a.path.isEmpty || fields.contains a.key then none
    else some (fields.insert a.key (.value a.value))
  alter true write a.path .header fields

def assignAll (fields : Fields) (assignments : List Assignment) : Option Fields :=
  assignments.foldlM assign fields

def inlineTable? (assignments : List Assignment) : Option Toml :=
  (assignAll [] assignments).map fun fields => .table (tomlFields fields)

structure Section where
  /-- Whether the table is the next one of an array. -/
  isItem : Bool
  path : List String
  key : String
  assignments : List Assignment
  deriving Repr

def addSection (fields : Fields) (s : Section) : Option Fields :=
  let add (_ : TableKind) (fields : Fields) : Option Fields :=
    match s.isItem, fields.get? s.key with
    | true, none =>
      (assignAll [] s.assignments).map fun inner => fields.insert s.key (.tables [inner])
    | true, some (.tables items) =>
      (assignAll [] s.assignments).map fun inner =>
        fields.insert s.key (.tables (items ++ [inner]))
    | false, none =>
      (assignAll [] s.assignments).map fun inner => fields.insert s.key (.table .header inner)
    | false, some (.table .implied inner) =>
      (assignAll inner s.assignments).map fun inner =>
        fields.insert s.key (.table .header inner)
    | _, _ => none
  alter false add s.path .header fields

def document? (top : List Assignment) (sections : List Section) : Option (Entries Toml) := do
  let fields ← assignAll [] top
  let fields ← sections.foldlM addSection fields
  some (tomlFields fields)

end StoreBridge.Toml
