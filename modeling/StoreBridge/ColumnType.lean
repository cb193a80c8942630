import StoreBridge.Backend

/-!
Column types by their portable names, and the type that each dialect gives them. An unknown name
gets the dialect's widest text type, so that every column has a type.
-/
namespace StoreBridge

inductive ColumnType where
  | string | text | integer | bigInt | float | decimal | boolean | date | dateTime | time | json
  | array | binary | uuid | id
  deriving DecidableEq, Repr

namespace ColumnType

def ofName? (name : String) : Option ColumnType :=
  match Text.lower (Text.trim name) with
  | "string" | "varchar" => some .string
  | "text" | "longtext" => some .text
  | "integer" | "int" | "number" => some .integer
  | "bigint" | "long" => some .bigInt
  | "float" | "double" | "real" => some .float
  | "decimal" | "numeric" => some .decimal
  | "boolean" | "bool" => some .boolean
  | "date" => some .date
  | "datetime" | "timestamp" => some .dateTime
  | "time" => some .time
  | "json" | "object" => some .json
  | "array" => some .array
  | "binary" | "blob" | "buffer" => some .binary
  | "uuid" => some .uuid
  | "id" | "objectid" => some .id
  | _ => none

def defaultLength : Nat := 255

def sized (name : String) (length : Nat) : String := name ++ "(" ++ toString length ++ ")"

def inPostgres (length : Nat) : ColumnType → String
  | .string => sized "VARCHAR" length
  | .text => "TEXT"
  | .integer => "INTEGER"
  | .bigInt => "BIGINT"
  | .float => "DOUBLE PRECISION"
  | .decimal => "NUMERIC"
  | .boolean => "BOOLEAN"
  | .date => "DATE"
  | .dateTime => "TIMESTAMPTZ"
  | .time => "TIME"
  | .json | .array => "JSONB"
  | .binary => "BYTEA"
  | .uuid => "UUID"
  | .id => "VARCHAR(24)"

def inMysql (length : Nat) : ColumnType → String
  | .string => sized "VARCHAR" length
  | .text => "TEXT"
  | .integer => "INT"
  | .bigInt => "BIGINT"
  | .float => "DOUBLE"
  | .decimal => "DECIMAL(18,4)"
  | .boolean => "TINYINT(1)"
  | .date => "DATE"
  | .dateTime => "DATETIME(3)"
  | .time => "TIME"
  | .json | .array => "JSON"
  | .binary => "LONGBLOB"
  | .uuid => "CHAR(36)"
  | .id => "VARCHAR(24)"

def inSqlite : ColumnType → String
  | .string | .text | .date | .dateTime | .time | .json | .array | .uuid | .id => "TEXT"
  | .integer | .bigInt | .boolean => "INTEGER"
  | .float => "REAL"
  | .decimal => "NUMERIC"
  | .binary => "BLOB"

def inMssql (length : Nat) : ColumnType → String
  | .string => sized "NVARCHAR" length
  | .text | .json | .array => "NVARCHAR(MAX)"
  | .integer => "INT"
  | .bigInt => "BIGINT"
  | .float => "FLOAT"
  | .decimal => "DECIMAL(18,4)"
  | .boolean => "BIT"
  | .date => "DATE"
  | .dateTime => "DATETIME2"
  | .time => "TIME"
  | .binary => "VARBINARY(MAX)"
  | .uuid => "UNIQUEIDENTIFIER"
  | .id => "NVARCHAR(24)"

def inDocument : ColumnType → String
  | .string | .text | .uuid => "string"
  | .integer => "int"
  | .bigInt => "long"
  | .float => "double"
  | .decimal => "decimal"
  | .boolean => "bool"
  | .date | .dateTime | .time => "date"
  | .json => "object"
  | .array => "array"
  | .binary => "binData"
  | .id => "objectId"

def native (t : ColumnType) (length : Nat) : Dialect → String
  | .postgres => inPostgres length t
  | .mysql => inMysql length t
  | .sqlite => inSqlite t
  | .mssql => inMssql length t
  | .document => inDocument t

end ColumnType

def Dialect.widestText : Dialect → String
  | .postgres | .sqlite => "TEXT"
  | .mysql => "LONGTEXT"
  | .mssql => "NVARCHAR(MAX)"
  | .document => "string"

def Dialect.columnType (d : Dialect) (name : String) (length : Option Nat) : String :=
  match ColumnType.ofName? name with
  | some t => t.native (length.getD ColumnType.defaultLength) d
  | none => d.widestText

end StoreBridge
