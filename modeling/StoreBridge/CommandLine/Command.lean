import StoreBridge.Error

/-!
The command line as a command. Options may stand before and after the one plain argument, and in
one word with their value. What follows two dashes is plain.
-/
namespace StoreBridge.CommandLine

inductive StatementKind where
  | select | count | delete
  deriving DecidableEq, Repr

def StatementKind.name : StatementKind → String
  | .select => "select"
  | .count => "count"
  | .delete => "delete"

def StatementKind.ofName? (name : String) : Option StatementKind :=
  [StatementKind.select, .count, .delete].find? fun k => k.name == name

inductive Command where
  /-- Shows a filter as a statement with its parameters. -/
  | compile (backend : Backend) (table : String) (options : Option String)
      (kind : StatementKind) (filter : String)
  /-- Shows the statement that makes the table of a schema. -/
  | define (backend : Backend) (table schema : String)
  deriving Repr

inductive Refusal where
  | help
  | misuse
  deriving DecidableEq, Repr

inductive Word where
  | plain (text : String)
  /-- Two dashes. -/
  | separator
  /-- An option, with its value if that stands in the same word. -/
  | option (name : String) (value : Option String)
  | help
  | unknown
  deriving DecidableEq, Repr

def Word.ofLong (s : List Char) : Word :=
  let name := String.ofList (s.takeWhile (· != '='))
  match s.dropWhile (· != '=') with
  | [] => if name == "help" then .help else .option name none
  | _ :: value => .option name (some (String.ofList value))

/-- A word with one dash. Its value needs no equals sign. -/
def Word.ofShort : List Char → Word
  | ['b'] => .option "backend" none
  | 'b' :: '=' :: value => .option "backend" (some (String.ofList value))
  | 'b' :: value => .option "backend" (some (String.ofList value))
  | 'h' :: _ => .help
  | _ => .unknown

/-- A lone dash is plain. -/
def Word.ofText (text : String) : Word :=
  match text.toList with
  | ['-', '-'] => .separator
  | '-' :: '-' :: rest => .ofLong rest
  | ['-'] => .plain text
  | '-' :: rest => .ofShort rest
  | _ => .plain text

structure Arguments where
  options : Entries String := []
  plain : Option String := none
  deriving Repr

namespace Arguments

def addPlain (a : Arguments) (text : String) : Except Refusal Arguments :=
  if a.plain.isSome then .error .misuse else .ok { a with plain := some text }

/-- Each option is given once, and only those that the command has. -/
def addOption (known : List String) (a : Arguments) (name value : String) :
    Except Refusal Arguments :=
  if !known.contains name || a.options.contains name then .error .misuse
  else .ok { a with options := a.options.insert name value }

/-- Reads words. `awaiting` is the option whose value is the next word. -/
def read (known : List String) :
    Option String → Arguments → List String → Except Refusal Arguments
  | some _, _, [] => .error .misuse
  | none, a, [] => .ok a
  | awaiting, a, word :: rest =>
    match Word.ofText word, awaiting with
    | .help, none => .error .help
    | .plain text, some name => do
      let a ← addOption known a name text
      read known none a rest
    | .plain text, none => do
      let a ← addPlain a text
      read known none a rest
    | .option name (some value), none => do
      let a ← addOption known a name value
      read known none a rest
    | .option name none, none => read known (some name) a rest
    | .separator, none => rest.foldlM addPlain a
    | _, _ => .error .misuse

end Arguments

def needed {α : Type} : Option α → Except Refusal α
  | some a => .ok a
  | none => .error .misuse

namespace Command

def backendOf (a : Arguments) : Except Refusal Backend := do
  let name ← needed (a.options.get? "backend")
  needed (Backend.ofName? name)

def compileOf (a : Arguments) : Except Refusal Command := do
  let backend ← backendOf a
  let kind ← match a.options.get? "operation" with
    | some name => needed (StatementKind.ofName? name)
    | none => .ok .select
  let filter ← needed a.plain
  .ok (.compile backend ((a.options.get? "table").getD "items") (a.options.get? "options") kind
    filter)

def defineOf (a : Arguments) : Except Refusal Command := do
  let backend ← backendOf a
  let table ← needed (a.options.get? "table")
  let schema ← needed a.plain
  .ok (.define backend table schema)

def ofWords : List String → Except Refusal Command
  | "compile" :: rest => do
    let a ← Arguments.read ["backend", "table", "options", "operation"] none {} rest
    compileOf a
  | "ddl" :: rest => do
    let a ← Arguments.read ["backend", "table"] none {} rest
    defineOf a
  | "help" :: _ => .error .help
  | word :: _ => if Word.ofText word == .help then .error .help else .error .misuse
  | [] => .error .misuse

end Command
end StoreBridge.CommandLine
