import StoreBridge.ColumnType
import StoreBridge.Schema.Basic
import StoreBridge.Sql.Statement

/-!
The statements that define tables, indexes and foreign keys. They bind no parameters: the values
in them, defaults and choices, are written as literals. A table's definition holds one definition
a column, and a primary key of several columns stands behind them.
-/
namespace StoreBridge.Sql
open Token

def literal (d : Dialect) : Value → Except Error (List Token)
  | .null => .ok [.word "NULL"]
  | .bool b =>
    if d = .postgres then .ok [.word (if b then "TRUE" else "FALSE")]
    else .ok [.number (if b then "1" else "0")]
  | .int i => .ok [.number (Digits.ofInt i.toInt)]
  | .float x => if x.isFinite then .ok [.number (Layout.plain x)] else refuse (.noLiteral x)
  | .text s => .ok [.literal s]
  | .timestamp t => .ok [.literal t.iso8601]
  | .objectId id => .ok [.literal id.text]
  | value => .ok [.literal value.jsonText]

def literals (d : Dialect) : List Value → Except Error (List (List Token))
  | [] => .ok []
  | value :: rest => do
    let first ← literal d value
    let rest ← literals d rest
    .ok (first :: rest)

inductive ColumnConstraint where
  | primaryKey
  | autoIncrement (spelling : List Token)
  | notNull
  | unique
  | default (value : List Token)
  | oneOf (column : String) (values : List (List Token))
  deriving Repr

def ColumnConstraint.tokens : ColumnConstraint → List Token
  | .primaryKey => words ["PRIMARY", "KEY"]
  | .autoIncrement spelling => spelling
  | .notNull => words ["NOT", "NULL"]
  | .unique => [.word "UNIQUE"]
  | .default value => .word "DEFAULT" :: .space :: value
  | .oneOf column values =>
    .word "CHECK" :: .space ::
      inParens ([.name column, .space, .word "IN", .space] ++ inParens (listed values))

structure ColumnDefinition where
  name : String
  type : String
  constraints : List ColumnConstraint
  deriving Repr

def ColumnDefinition.tokens (c : ColumnDefinition) : List Token :=
  spaced ([.name c.name] :: [.word c.type] :: c.constraints.map ColumnConstraint.tokens)

structure TableDefinition where
  name : String
  columns : List ColumnDefinition
  primaryKey : Option (List String)
  deriving Repr

namespace TableDefinition

/-- A column that counts up by itself has a type of its own in some dialects. -/
def columnType (d : Dialect) (spec : ColumnSpec) : String :=
  match spec.autoIncrement, d with
  | true, .postgres =>
    if ColumnType.ofName? spec.type = some .bigInt then "BIGSERIAL" else "SERIAL"
  | true, .sqlite => "INTEGER"
  | _, _ => d.columnType spec.type spec.length

/-- How a dialect marks a column that counts up by itself. SQLite knows it only on an inline
    primary key. -/
def increment (d : Dialect) (spec : ColumnSpec) (inlineKey : Bool) : List ColumnConstraint :=
  if !spec.autoIncrement then []
  else
    match d with
    | .mysql => [.autoIncrement [.word "AUTO_INCREMENT"]]
    | .sqlite => if inlineKey then [.autoIncrement [.word "AUTOINCREMENT"]] else []
    | .mssql =>
      [.autoIncrement (.word "IDENTITY" :: inParens [.number "1", .symbol ",", .number "1"])]
    | .postgres | .document => []

def defaultOf (d : Dialect) (spec : ColumnSpec) : Except Error (List ColumnConstraint) :=
  match spec.default with
  | none => .ok []
  | some value => (literal d value).map fun tokens => [.default tokens]

/-- An empty list of choices asks for nothing. -/
def choicesOf (d : Dialect) (name : String) (spec : ColumnSpec) :
    Except Error (List ColumnConstraint) :=
  match spec.choices with
  | none | some [] => .ok []
  | some values => (literals d values).map fun tokens => [.oneOf name tokens]

/-- A column's definition. A key column is inline where the key has no other column. -/
def columnOf (d : Dialect) (composite : Bool) (name : String) (spec : ColumnSpec) :
    Except Error ColumnDefinition := do
  let inlineKey := spec.primaryKey && !composite
  let key := if inlineKey then [ColumnConstraint.primaryKey] else []
  let notNull :=
    if (spec.required || spec.primaryKey) && !inlineKey then [ColumnConstraint.notNull] else []
  let unique := if spec.unique && !spec.primaryKey then [ColumnConstraint.unique] else []
  let default ← defaultOf d spec
  let choices ← choicesOf d name spec
  .ok ⟨name, columnType d spec,
    key ++ increment d spec inlineKey ++ notNull ++ unique ++ default ++ choices⟩

def columnsOf (d : Dialect) (composite : Bool) :
    List (String × ColumnSpec) → Except Error (List ColumnDefinition)
  | [] => .ok []
  | (name, spec) :: rest => do
    let first ← columnOf d composite name spec
    let rest ← columnsOf d composite rest
    .ok (first :: rest)

def ofSchema (name : String) (schema : TableSchema) (d : Dialect) :
    Except Error TableDefinition :=
  if schema.columns.isEmpty then refuse (.noColumns name)
  else do
    let keys := schema.primaryKeys
    let composite := 1 < keys.length
    let columns ← columnsOf d composite schema.columns
    .ok ⟨name, columns, if composite then some keys else none⟩

def keyTokens : Option (List String) → List (List Token)
  | none => []
  | some columns => [words ["PRIMARY", "KEY"] ++ .space :: inParens (names columns)]

/-- The test that no table has the name, where the statement itself cannot ask for it. -/
def absenceTest (name : String) : List Token :=
  [.word "IF", .space, .word "OBJECT_ID"] ++
    inParens [.word "N", .literal name, .symbol ",", .space, .word "N", .literal "U"] ++
    .space :: words ["IS", "NULL"]

def tokens (d : Dialect) (t : TableDefinition) : List Token :=
  let body := inParens (listed (t.columns.map ColumnDefinition.tokens ++ keyTokens t.primaryKey))
  if d = .mssql then
    spaced [absenceTest t.name, words ["CREATE", "TABLE"], Token.table t.name, body]
  else spaced [words ["CREATE", "TABLE", "IF", "NOT", "EXISTS"], Token.table t.name, body]

end TableDefinition

namespace Statement

def createTable (table : String) (schema : TableSchema) (d : Dialect) : Except Error Statement :=
  (TableDefinition.ofSchema table schema d).map fun definition => ⟨d, definition.tokens d⟩

def dropTable (table : String) (d : Dialect) : Statement :=
  ⟨d, words ["DROP", "TABLE", "IF", "EXISTS"] ++ .space :: Token.table table⟩

def unlessThere : Dialect → List (List Token)
  | .postgres | .sqlite => [words ["IF", "NOT", "EXISTS"]]
  | _ => []

def createIndex (table : String) (index : IndexSpec) (d : Dialect) : Except Error Statement :=
  if index.fields.isEmpty then refuse (.indexWithoutFields index.name)
  else
    let unique := if index.unique then ["UNIQUE"] else []
    .ok ⟨d, spaced (words (["CREATE"] ++ unique ++ ["INDEX"]) :: unlessThere d ++
      [[.name index.name], [.word "ON"], Token.table table, inParens (sortTokens index.fields)])⟩

def dropIndex (table name : String) (d : Dialect) : Statement :=
  let onTable := [[.name name], [.word "ON"], Token.table table]
  match d with
  | .mysql => ⟨d, spaced (words ["DROP", "INDEX"] :: onTable)⟩
  | .mssql => ⟨d, spaced (words ["DROP", "INDEX", "IF", "EXISTS"] :: onTable)⟩
  | _ => ⟨d, spaced [words ["DROP", "INDEX", "IF", "EXISTS"], [.name name]]⟩

def actionTokens (event : String) : Option ReferentialAction → List (List Token)
  | none => []
  | some action => [words ["ON", event, action.keyword]]

def createForeignKey (table : String) (key : ForeignKeySpec) (backend : Backend) :
    Except Error Statement :=
  if !backend.hasForeignKeys then .error (.unsupported .createForeignKey backend)
  else if key.columns.isEmpty || key.columns.length != key.referencesColumns.length then
    refuse (.unmatchedColumns key.name)
  else
    .ok ⟨backend.dialect, spaced ([words ["ALTER", "TABLE"], Token.table table,
      words ["ADD", "CONSTRAINT"], [.name key.name], words ["FOREIGN", "KEY"],
      inParens (names key.columns), [.word "REFERENCES"], Token.table key.referencesTable,
      inParens (names key.referencesColumns)] ++
      actionTokens "DELETE" key.onDelete ++ actionTokens "UPDATE" key.onUpdate)⟩

def dropForeignKey (table name : String) (backend : Backend) : Except Error Statement :=
  if !backend.hasForeignKeys then .error (.unsupported .dropForeignKey backend)
  else
    let kind := if backend.dialect = .mysql then ["FOREIGN", "KEY"] else ["CONSTRAINT"]
    .ok ⟨backend.dialect, spaced [words ["ALTER", "TABLE"], Token.table table,
      words ("DROP" :: kind), [.name name]]⟩

end Statement
end StoreBridge.Sql
