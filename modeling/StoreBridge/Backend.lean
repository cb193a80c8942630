import StoreBridge.Text.Blank

/-!
Dialects and the products that speak them. A dialect settles what SQL looks like: placeholders,
quotes, and which kinds of value it stores as they are. A product adds how it reports an inserted
row and whether it takes foreign keys.
-/
namespace StoreBridge

inductive Dialect where
  | postgres | mysql | sqlite | mssql | document
  deriving DecidableEq, Repr

namespace Dialect

def name : Dialect → String
  | .postgres => "PostgreSQL"
  | .mysql => "MySQL"
  | .sqlite => "SQLite"
  | .mssql => "SQL Server"
  | .document => "MongoDB"

def isSql (d : Dialect) : Bool := d != .document

/-- The token for the parameter with this number, counted from one. -/
def placeholder (d : Dialect) (index : Nat) : String :=
  match d with
  | .postgres => "$" ++ toString index
  | .mssql => "@p" ++ toString index
  | .mysql | .sqlite | .document => "?"

def quotes : Dialect → Char × Char
  | .mysql => ('\x60', '\x60')
  | .mssql => ('[', ']')
  | .postgres | .sqlite | .document => ('"', '"')

/-- The closing character is doubled inside a quoted name. -/
def doubleClosing (close : Char) : List Char → List Char
  | [] => []
  | c :: rest =>
    if c = close then close :: c :: doubleClosing close rest else c :: doubleClosing close rest

/-- A name between the dialect's quotes. The document store has no quotes. -/
def quoteName (d : Dialect) (name : String) : String :=
  if d.isSql then
    String.ofList (d.quotes.1 :: doubleClosing d.quotes.2 name.toList ++ [d.quotes.2])
  else name

def bindsLists (d : Dialect) : Bool := d == .postgres

def hasCaselessLike (d : Dialect) : Bool := d == .postgres

def storesBooleans (d : Dialect) : Bool := d == .postgres || d == .document

def storesStructures (d : Dialect) : Bool := d == .postgres || d == .document

def storesTimes (d : Dialect) : Bool := d != .sqlite

end Dialect

inductive InsertStrategy where
  /-- The statement ends in a clause that returns the row. -/
  | returning
  /-- The statement names the row before its values. -/
  | outputClause
  /-- The session knows the last generated number. -/
  | lastInsertId
  /-- The store reports the identity it gave. -/
  | generatedId
  deriving DecidableEq, Repr

inductive Backend where
  | postgres | mysql | mariadb | sqlite | mssql | mongodb
  deriving DecidableEq, Repr

namespace Backend

def dialect : Backend → Dialect
  | .postgres => .postgres
  | .mysql | .mariadb => .mysql
  | .sqlite => .sqlite
  | .mssql => .mssql
  | .mongodb => .document

def name : Backend → String
  | .postgres => "PostgreSQL"
  | .mysql => "MySQL"
  | .mariadb => "MariaDB"
  | .sqlite => "SQLite"
  | .mssql => "SQL Server"
  | .mongodb => "MongoDB"

def insertStrategy : Backend → InsertStrategy
  | .postgres | .mariadb => .returning
  | .mssql => .outputClause
  | .mysql | .sqlite => .lastInsertId
  | .mongodb => .generatedId

def hasForeignKeys (b : Backend) : Bool := b != .sqlite && b != .mongodb

def key : Backend → String
  | .postgres => "postgres"
  | .mysql => "mysql"
  | .mariadb => "mariadb"
  | .sqlite => "sqlite"
  | .mssql => "mssql"
  | .mongodb => "mongodb"

def all : List Backend := [.postgres, .mysql, .mariadb, .sqlite, .mssql, .mongodb]

def ofKey? (key : String) : Option Backend := all.find? fun b => b.key == key

/-- A product by any of its names, in any letter case. -/
def ofName? (name : String) : Option Backend :=
  match Text.lower name with
  | "postgres" | "postgresql" | "pg" => some .postgres
  | "mysql" => some .mysql
  | "mariadb" => some .mariadb
  | "sqlite" | "sqlite3" => some .sqlite
  | "mssql" | "sqlserver" => some .mssql
  | "mongodb" | "mongo" => some .mongodb
  | _ => none

end Backend
end StoreBridge
