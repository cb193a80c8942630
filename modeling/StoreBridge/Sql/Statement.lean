import StoreBridge.Sql.Clause

/-!
The statements that read and change rows. A statement keeps its tokens; its text numbers the
placeholders from one, and its parameters are the values behind them.
-/
namespace StoreBridge.Sql

structure Statement where
  dialect : Dialect
  tokens : List Token
  deriving Repr

namespace Statement
open Token

def sql (s : Statement) : String := textOf s.dialect s.tokens

def parameters (s : Statement) : List Value := Token.parameters s.tokens

def sortTokens (sort : List (String × Direction)) : List Token :=
  listed (sort.map fun entry => [.name entry.1, .space, .word entry.2.keyword])

def orderBy (sort : List (String × Direction)) : List Token :=
  if sort.isEmpty then [] else words ["ORDER", "BY"] ++ .space :: sortTokens sort

/-- The columns of the rows. No fields stand for all of them. -/
def selectList (fields : List String) : List Token :=
  if fields.isEmpty then [.symbol "*"] else names fields

def count (n : Nat) : Token := .number (Digits.ofNat n)

def skipped (n : Nat) : List Token := [.word "OFFSET", .space, count n]

def limited (n : Nat) : List Token := [.word "LIMIT", .space, count n]

def boundless : Nat := 2 ^ 64 - 1

def fetchWindow : Option Nat → Option Nat → List Token
  | none, none => []
  | none, some offset => skipped offset ++ [.space, .word "ROWS"]
  | some limit, offset =>
    spaced [skipped (offset.getD 0), words ["ROWS", "FETCH", "NEXT"], [count limit],
      words ["ROWS", "ONLY"]]

/-- The window of rows. MySQL and SQLite leave out rows only behind a limit. -/
def limitWindow (d : Dialect) : Option Nat → Option Nat → List Token
  | none, none => []
  | some limit, none => limited limit
  | some limit, some offset => spaced [limited limit, skipped offset]
  | none, some offset =>
    match d with
    | .mysql => spaced [limited boundless, skipped offset]
    | .sqlite => spaced [[.word "LIMIT", .space, .number "-1"], skipped offset]
    | _ => skipped offset

def window (d : Dialect) (limit offset : Option Nat) : List Token :=
  match d with
  | .mssql => fetchWindow limit offset
  | _ => limitWindow d limit offset

def anyOrder : List Token :=
  words ["ORDER", "BY"] ++ .space :: inParens (words ["SELECT", "NULL"])

/-- The order of the rows and the window on them. SQL Server has no window without an order. -/
def tail (d : Dialect) (options : FindOptions) : List (List Token) :=
  let order := orderBy options.sort
  let window := window d options.limit options.offset
  let order := if order.isEmpty && d == .mssql && !window.isEmpty then anyOrder else order
  [order, window].filter fun part => !part.isEmpty

def select (table : String) (filter : Filter) (options : FindOptions) (d : Dialect) :
    Except Error Statement := do
  let clause ← Clause.ofFilter d filter
  let body := spaced [[.word "SELECT"], selectList options.select, [.word "FROM"],
    Token.table table ++ clause.whereTokens]
  .ok ⟨d, spaced (body :: tail d options)⟩

def countRows (table : String) (filter : Filter) (d : Dialect) : Except Error Statement := do
  let clause ← Clause.ofFilter d filter
  .ok ⟨d, spaced [[.word "SELECT"], .word "COUNT" :: inParens [.symbol "*"], [.word "AS"],
    [.name "count"], [.word "FROM"], Token.table table ++ clause.whereTokens]⟩

def delete (table : String) (filter : Filter) (d : Dialect) : Except Error Statement := do
  let clause ← Clause.ofFilter d filter
  .ok ⟨d, spaced [words ["DELETE", "FROM"], Token.table table ++ clause.whereTokens]⟩

def fieldParameters (d : Dialect) (fields : Record) : List (List Token) :=
  fields.map fun field => [.parameter (d.stored field.2)]

def assignments (d : Dialect) (fields : Record) : List Token :=
  listed (fields.map fun field =>
    [.name field.1, .space, .symbol "=", .space, .parameter (d.stored field.2)])

def update (table : String) (fields : Record) (filter : Filter) (d : Dialect) :
    Except Error Statement :=
  if fields.isEmpty then refuse (.nothingToSet table)
  else do
    let clause ← Clause.ofFilter d filter
    .ok ⟨d, spaced [[.word "UPDATE"], Token.table table, [.word "SET"],
      assignments d fields ++ clause.whereTokens]⟩

def outputTokens : InsertStrategy → List (List Token)
  | .outputClause => [[.word "OUTPUT", .space, .word "INSERTED", .symbol ".", .symbol "*"]]
  | _ => []

def returningTokens : InsertStrategy → List (List Token)
  | .returning => [[.word "RETURNING", .space, .symbol "*"]]
  | _ => []

def defaultValues : Dialect → List Token
  | .mysql => spaced [inParens [], [.word "VALUES"], inParens []]
  | _ => words ["DEFAULT", "VALUES"]

def insert (table : String) (record : Record) (backend : Backend) : Statement :=
  let d := backend.dialect
  let output := outputTokens backend.insertStrategy
  let returning := returningTokens backend.insertStrategy
  let start := [words ["INSERT", "INTO"], Token.table table]
  if record.isEmpty then ⟨d, spaced (start ++ output ++ [defaultValues d] ++ returning)⟩
  else
    ⟨d, spaced (start ++ [inParens (names record.keys)] ++ output ++
      [[.word "VALUES"], inParens (listed (fieldParameters d record))] ++ returning)⟩

end Statement
end StoreBridge.Sql
