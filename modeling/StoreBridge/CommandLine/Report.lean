import StoreBridge.Bson.ExtendedJson
import StoreBridge.CommandLine.Command
import StoreBridge.Document.Query
import StoreBridge.Filter.Reader
import StoreBridge.Json.Reader
import StoreBridge.Schema.Reader
import StoreBridge.Sql.Definition

/-!
What a command prints. A failure says what was tried, from the whole down to the cause.
-/
namespace StoreBridge.CommandLine

abbrev Trace := List String

def trying {α : Type} (what : String) (r : Except Error α) : Except Trace α :=
  r.mapError fun e => [what, e.message]

abbrev ReadFile := String → Except String String

/-- The file that an argument names, behind an at sign. -/
def path? (argument : String) : Option String :=
  match argument.toList with
  | '@' :: path => some (String.ofList path)
  | _ => none

def contents (readFile : ReadFile) (argument : String) : Except Trace String :=
  match path? argument with
  | some path => (readFile path).mapError fun cause => ["Failed to read " ++ path, cause]
  | none => .ok argument

def readJson (readFile : ReadFile) (what argument : String) : Except Trace Json := do
  let text ← (contents readFile argument).mapError (("Failed to read " ++ what) :: ·)
  match Json.ofText? text with
  | some json => .ok json
  | none => .error ["Failed to read " ++ what, "Not valid JSON"]

def queryJson (query : Document) (o : DocumentOptions) : Json :=
  let document (d : Document) : Json := d.toJson
  let number (n : Nat) : Json := .integer n
  let field (key : String) (value : Option Json) : List (String × Json) :=
    value.toList.map fun value => (key, value)
  .object (("filter", query.toJson) :: field "sort" (o.sort.map document) ++
    field "limit" (o.limit.map number) ++ field "skip" (o.skip.map number) ++
    field "projection" (o.projection.map document))

/-- The token of a parameter. One that has no number of its own is given it. -/
def parameterName (d : Dialect) (index : Nat) : String :=
  String.ofList ((d.placeholder index).toList.flatMap fun c =>
    if c = '?' then '?' :: (Digits.ofNat index).toList else [c])

def statementText (s : Sql.Statement) : String :=
  let line (p : Value × Nat) : String :=
    "  " ++ parameterName s.dialect (p.2 + 1) ++ " = " ++ p.1.jsonText ++ "\n"
  s.sql ++ ";\n" ++ String.join (s.parameters.zipIdx.map line)

def statementOf (kind : StatementKind) (table : String) (filter : Filter) (options : FindOptions)
    (d : Dialect) : Except Error Sql.Statement :=
  match kind with
  | .select => Sql.Statement.select table filter options d
  | .count => Sql.Statement.countRows table filter d
  | .delete => Sql.Statement.delete table filter d

def readOptions (readFile : ReadFile) : Option String → Except Trace FindOptions
  | none => .ok {}
  | some argument => do
    let json ← readJson readFile "options" argument
    trying "Invalid options" (FindOptions.ofJson json)

def compiled (backend : Backend) (table : String) (filter : Filter) (options : FindOptions)
    (kind : StatementKind) : Except Trace String :=
  let what := "Failed to compile filter"
  if backend.dialect.isSql then do
    let statement ← trying what (statementOf kind table filter options backend.dialect)
    .ok (statementText statement)
  else do
    let query ← trying what (Query.ofFilter .objectId filter)
    .ok ((queryJson query (.ofOptions options)).pretty 0 ++ "\n")

def Command.paths : Command → List String
  | .compile _ _ options _ filter => (filter :: options.toList).filterMap path?
  | .define _ _ schema => [schema].filterMap path?

def Command.run (readFile : ReadFile) : Command → Except Trace String
  | .compile backend table options kind filter => do
    let json ← readJson readFile "filter" filter
    let filter ← trying "Invalid filter" (Filter.ofJson json)
    let options ← readOptions readFile options
    compiled backend table filter options kind
  | .define backend table schema =>
    if !backend.dialect.isSql then
      .error [backend.name ++ " has no DDL statements; collections are created by the adapter"]
    else do
      let json ← readJson readFile "schema" schema
      let schema ← trying "Invalid table schema" (TableSchema.ofJson json)
      let statement ← trying ("Failed to build DDL for " ++ table)
        (Sql.Statement.createTable table schema backend.dialect)
      .ok (statement.sql ++ ";\n")

def usage : String :=
  "Usage: storebridge compile --backend BACKEND [--table TABLE] [--options JSON]\n" ++
  "                           [--operation select|count|delete] FILTER\n" ++
  "       storebridge ddl --backend BACKEND --table TABLE SCHEMA\n"

inductive Outcome where
  | printed (text : String)
  | failed (trace : Trace)
  | misused
  deriving Repr

namespace Outcome

def ofWords (readFile : ReadFile) (words : List String) : Outcome :=
  match Command.ofWords words with
  | .error .help => .printed usage
  | .error .misuse => .misused
  | .ok command =>
    match command.run readFile with
    | .ok text => .printed text
    | .error trace => .failed trace

def status : Outcome → Nat
  | .printed _ => 0
  | .failed _ => 1
  | .misused => 2

def output : Outcome → String
  | .printed text => text
  | _ => ""

def traceText : Trace → String
  | [] => ""
  | [only] => "Error: " ++ only ++ "\n"
  | [first, cause] => "Error: " ++ first ++ "\n\nCaused by:\n    " ++ cause ++ "\n"
  | first :: causes =>
    let line (c : String × Nat) : String := "    " ++ Digits.ofNat c.2 ++ ": " ++ c.1 ++ "\n"
    "Error: " ++ first ++ "\n\nCaused by:\n" ++ String.join (causes.zipIdx.map line)

def complaint : Outcome → String
  | .printed _ => ""
  | .failed trace => traceText trace
  | .misused => usage

end Outcome
end StoreBridge.CommandLine
