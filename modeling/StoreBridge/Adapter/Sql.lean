import StoreBridge.Adapter.Operation
import StoreBridge.Insert.Reconciliation
import StoreBridge.Sql.Definition

/-!
Records in SQL databases. Each operation is a plan of statements. A single row is found first and
then changed or deleted by its key, and an inserted row is read back where the insert does not
return it.
-/
namespace StoreBridge

structure ExecOutcome where
  affected : Nat
  lastInsertId : Option Int64
  deriving Repr

inductive SqlCall where
  | query (statement : Sql.Statement)
  | execute (statement : Sql.Statement)
  deriving Repr

@[reducible] def SqlCall.Reply : SqlCall → Type
  | .query _ => List Record
  | .execute _ => ExecOutcome

abbrev SqlPlan (α : Type) := Plan SqlCall SqlCall.Reply α

/-- An adapter knows the primary keys of the tables that were declared to it. -/
structure SqlAdapter where
  backend : Backend
  keys : Entries (List String) := []
  deriving Repr

namespace SqlAdapter

/-- The document store has no SQL adapter. -/
def make (backend : Backend) : Except Error SqlAdapter :=
  if backend.dialect.isSql then .ok { backend } else .error (.config (.notSql backend))

def dialect (a : SqlAdapter) : Dialect := a.backend.dialect

def declarePrimaryKey (a : SqlAdapter) (table : String) (columns : List String) : SqlAdapter :=
  { a with keys := a.keys.insert table columns }

def primaryKeys (a : SqlAdapter) (table : String) : List String := (a.keys.get? table).getD []

def idField (a : SqlAdapter) (table : String) : String := (a.primaryKeys table).head?.getD "id"

def call (place : Place) (c : SqlCall) : SqlPlan c.Reply := Plan.call place c

def query (place : Place) (s : Sql.Statement) : SqlPlan (List Record) := call place (.query s)

def execute (place : Place) (s : Sql.Statement) : SqlPlan ExecOutcome := call place (.execute s)

def find (a : SqlAdapter) (place : Place) (table : String) (filter : Filter)
    (options : FindOptions) : SqlPlan (List Record) := do
  let statement ← Plan.lift (Sql.Statement.select table filter options a.dialect)
  query place statement

def findOne (a : SqlAdapter) (place : Place) (table : String) (filter : Filter) :
    SqlPlan (Option Record) := do
  let rows ← a.find place table filter .first
  return rows.head?

def outcome (a : SqlAdapter) (place : Place) (s : Sql.Statement) : SqlPlan InsertOutcome :=
  match a.backend.insertStrategy with
  | .returning | .outputClause => do
    let rows ← query place s
    return .rows rows
  | .lastInsertId | .generatedId => do
    let done ← execute place s
    return match done.lastInsertId with
      | some id => .lastInsertId (.int id)
      | none => .nothing

/-- Inserts a record and returns it as it was stored. A look-up that fails is as good as one that
    finds nothing. -/
def insert (a : SqlAdapter) (place : Place) (table : String) (record : Record) :
    SqlPlan Record := do
  let outcome ← a.outcome place (.insert table record a.backend)
  match Reconciliation.ofOutcome outcome record (a.primaryKeys table) with
  | .settled record => return record
  | .lookUp field value fallback =>
    let row ← (a.findOne place table (.equals field value)).attempt
    return row.join.getD fallback

def insertMany (a : SqlAdapter) (place : Place) (table : String) (records : List Record) :
    SqlPlan (List Record) :=
  Plan.each (a.insert place table) records

def identityFilter (a : SqlAdapter) (table : String) (id : Value) : Except Error Filter :=
  if id.isNull then .error .missingIdentity else .ok (.equals (a.idField table) id)

def findById (a : SqlAdapter) (place : Place) (table : String) (id : Value) :
    SqlPlan (Option Record) := do
  let filter ← Plan.lift (a.identityFilter table id)
  a.findOne place table filter

def update (a : SqlAdapter) (place : Place) (table : String) (filter : Filter)
    (changes : Record) : SqlPlan Nat := do
  let statement ← Plan.lift (Sql.Statement.update table changes filter a.dialect)
  let done ← execute place statement
  return done.affected

def rowKey (a : SqlAdapter) (table : String) (row : Record) : Except Error (String × Value) :=
  match Reconciliation.keyField row (a.primaryKeys table) with
  | none => .error .missingIdentity
  | some field =>
    match Reconciliation.assigned? row field.name with
    | some value => .ok (field.name, value)
    | none => .error .missingIdentity

/-- Changes the first row of a filter and reads it again, by the key that it has then. -/
def updateOne (a : SqlAdapter) (place : Place) (table : String) (filter : Filter)
    (changes : Record) : SqlPlan (Option Record) := do
  match ← a.findOne place table filter with
  | none => return none
  | some row =>
    let (field, value) ← Plan.lift (a.rowKey table row)
    let _ ← a.update place table (.equals field value) changes
    a.findOne place table (.equals field ((changes.get? field).getD value))

def updateById (a : SqlAdapter) (place : Place) (table : String) (id : Value)
    (changes : Record) : SqlPlan (Option Record) := do
  let filter ← Plan.lift (a.identityFilter table id)
  a.updateOne place table filter changes

def delete (a : SqlAdapter) (place : Place) (table : String) (filter : Filter) :
    SqlPlan Nat := do
  let statement ← Plan.lift (Sql.Statement.delete table filter a.dialect)
  let done ← execute place statement
  return done.affected

def deleteOne (a : SqlAdapter) (place : Place) (table : String) (filter : Filter) :
    SqlPlan Bool := do
  match ← a.findOne place table filter with
  | none => return false
  | some row =>
    let (field, value) ← Plan.lift (a.rowKey table row)
    let count ← a.delete place table (.equals field value)
    return 0 < count

def deleteById (a : SqlAdapter) (place : Place) (table : String) (id : Value) :
    SqlPlan Bool := do
  let filter ← Plan.lift (a.identityFilter table id)
  let count ← a.delete place table filter
  return 0 < count

def countOf : Value → Option Nat
  | .int i => if 0 ≤ i.toInt then some i.toInt.toNat else none
  | .float x => if x.isNonnegative then some (x.truncated (2 ^ 64 - 1)) else none
  | .text s => Digits.toUInt64? (Text.trimmed s.toList)
  | _ => none

/-- The number in the column `count`, or in the first column. -/
def countOfRows (rows : List Record) : Nat :=
  match rows with
  | [] => 0
  | row :: _ => (((row.get? "count" <|> row.values.head?).bind countOf).getD 0)

def count (a : SqlAdapter) (place : Place) (table : String) (filter : Filter) :
    SqlPlan Nat := do
  let statement ← Plan.lift (Sql.Statement.countRows table filter a.dialect)
  let rows ← query place statement
  return countOfRows rows

def contains (a : SqlAdapter) (place : Place) (table : String) (filter : Filter) :
    SqlPlan Bool := do
  let row ← a.findOne place table filter
  return row.isSome

def upsert (a : SqlAdapter) (place : Place) (table : String) (filter : Filter)
    (record : Record) : SqlPlan Record := do
  match ← a.updateOne place table filter record with
  | some row => return row
  | none => a.insert place table (filter.seed record)

def rows (a : SqlAdapter) (place : Place) (table : String) : RowOperation → SqlPlan RowResult
  | .insert record => .record <$> a.insert place table record
  | .insertMany records => .records <$> a.insertMany place table records
  | .find filter options => .records <$> a.find place table filter options
  | .findOne filter => .found <$> a.findOne place table filter
  | .findById id => .found <$> a.findById place table id
  | .update filter changes => .count <$> a.update place table filter changes
  | .updateOne filter changes => .found <$> a.updateOne place table filter changes
  | .updateById id changes => .found <$> a.updateById place table id changes
  | .delete filter => .count <$> a.delete place table filter
  | .deleteOne filter => .flag <$> a.deleteOne place table filter
  | .deleteById id => .flag <$> a.deleteById place table id
  | .count filter => .count <$> a.count place table filter
  | .contains filter => .flag <$> a.contains place table filter
  | .upsert filter record => .record <$> a.upsert place table filter record

def definition (a : SqlAdapter) (table : String) : TableOperation → Except Error Sql.Statement
  | .create schema => Sql.Statement.createTable table schema a.dialect
  | .drop => .ok (.dropTable table a.dialect)
  | .createIndex index => Sql.Statement.createIndex table index a.dialect
  | .dropIndex name => .ok (.dropIndex table name a.dialect)
  | .createForeignKey key => Sql.Statement.createForeignKey table key a.backend
  | .dropForeignKey name => Sql.Statement.dropForeignKey table name a.backend

/-- The adapter after an operation: it knows the primary key of a table that was made, and forgets
    the one of a table that was dropped. -/
def afterwards (a : SqlAdapter) (table : String) : TableOperation → SqlAdapter
  | .create schema =>
    if schema.primaryKeys.isEmpty then a else a.declarePrimaryKey table schema.primaryKeys
  | .drop => { a with keys := a.keys.erase table }
  | _ => a

/-- The plan of an operation on a table. No transaction holds it. -/
def define (a : SqlAdapter) (table : String) (operation : TableOperation) :
    SqlPlan SqlAdapter := do
  let statement ← Plan.lift (a.definition table operation)
  let _ ← execute .own statement
  return a.afterwards table operation

end SqlAdapter
end StoreBridge
