import StoreBridge.Adapter.Operation
import StoreBridge.ColumnType
import StoreBridge.Document.Query
import StoreBridge.Insert.Reconciliation

/-!
Records in the document store. Each operation is a plan of calls on collections. What goes to the
store is in stored form, and what comes back is a record again.
-/
namespace StoreBridge

inductive DocumentCall where
  | insertOne (collection : String) (document : Document)
  | insertMany (collection : String) (documents : List Document)
  | find (collection : String) (query : Document) (options : DocumentOptions)
  | updateMany (collection : String) (query update : Document)
  | updateOne (collection : String) (query update : Document)
  | deleteMany (collection : String) (query : Document)
  | deleteOne (collection : String) (query : Document)
  | count (collection : String) (query : Document)
  | aggregate (collection : String) (pipeline : List Document)
  | createCollection (name : String) (validator : Document)
  | dropCollection (name : String)
  | createIndex (collection : String) (keys : Document) (name : String) (unique : Bool)
  | dropIndex (collection name : String)
  deriving Repr

@[reducible] def DocumentCall.Reply : DocumentCall → Type
  | .insertOne _ _ => Bson
  | .insertMany _ _ => List Bson
  | .find _ _ _ => List Document
  | .updateMany _ _ _ => Nat
  | .updateOne _ _ _ => Nat
  | .deleteMany _ _ => Nat
  | .deleteOne _ _ => Nat
  | .count _ _ => Nat
  | .aggregate _ _ => List Document
  | .createCollection _ _ => Unit
  | .dropCollection _ => Unit
  | .createIndex _ _ _ _ => Unit
  | .dropIndex _ _ => Unit

abbrev DocumentPlan (α : Type) := Plan DocumentCall DocumentCall.Reply α

structure DocumentAdapter where
  mode : IdentityMode
  deriving Repr

namespace DocumentAdapter

def first : DocumentOptions := { limit := some 1 }

def call (place : Place) (c : DocumentCall) : DocumentPlan c.Reply := Plan.call place c

def findDocuments (place : Place) (collection : String) (query : Document)
    (options : DocumentOptions) : DocumentPlan (List Document) :=
  call place (.find collection query options)

def inserted (record : Record) (id : Bson) : Record :=
  (Reconciliation.ofOutcome (.generatedId id.toValue) record []).finish none

def insert (a : DocumentAdapter) (place : Place) (collection : String) (record : Record) :
    DocumentPlan Record := do
  let id ← call place (.insertOne collection (a.mode.document record))
  return inserted record id

/-- Inserts records in one call; without records there is none. -/
def insertMany (a : DocumentAdapter) (place : Place) (collection : String)
    (records : List Record) : DocumentPlan (List Record) :=
  if records.isEmpty then return []
  else do
    let ids ← call place (.insertMany collection (records.map a.mode.document))
    return List.zipWith inserted records ids

def find (a : DocumentAdapter) (place : Place) (collection : String) (filter : Filter)
    (options : FindOptions) : DocumentPlan (List Record) := do
  let query ← Plan.lift (Query.ofFilter a.mode filter)
  let documents ← findDocuments place collection query (.ofOptions options)
  return documents.map Record.ofDocument

def findOne (a : DocumentAdapter) (place : Place) (collection : String) (filter : Filter) :
    DocumentPlan (Option Record) := do
  let records ← a.find place collection filter .first
  return records.head?

def findById (a : DocumentAdapter) (place : Place) (collection : String) (id : Value) :
    DocumentPlan (Option Record) := do
  let query ← Plan.lift (a.mode.query id)
  let documents ← findDocuments place collection query first
  return documents.head?.map Record.ofDocument

/-- The update that writes changes. An identity is never among them. -/
def setDocument (a : DocumentAdapter) (collection : String) (changes : Record) :
    Except Error Document :=
  let fields := (a.mode.document changes).erase storedId
  if fields.isEmpty then refuse (.nothingToSet collection)
  else .ok [("$set", .document fields)]

def update (a : DocumentAdapter) (place : Place) (collection : String) (filter : Filter)
    (changes : Record) : DocumentPlan Nat := do
  let query ← Plan.lift (Query.ofFilter a.mode filter)
  let update ← Plan.lift (a.setDocument collection changes)
  call place (.updateMany collection query update)

def updateFirst (a : DocumentAdapter) (place : Place) (collection : String) (query : Document)
    (changes : Record) : DocumentPlan (Option Record) := do
  let update ← Plan.lift (a.setDocument collection changes)
  let found ← findDocuments place collection query first
  match found.head?.bind fun d => d.get? storedId with
  | none => return none
  | some id =>
    let _ ← call place (.updateOne collection [(storedId, id)] update)
    let updated ← findDocuments place collection [(storedId, id)] first
    return updated.head?.map Record.ofDocument

def updateOne (a : DocumentAdapter) (place : Place) (collection : String) (filter : Filter)
    (changes : Record) : DocumentPlan (Option Record) := do
  let query ← Plan.lift (Query.ofFilter a.mode filter)
  a.updateFirst place collection query changes

def updateById (a : DocumentAdapter) (place : Place) (collection : String) (id : Value)
    (changes : Record) : DocumentPlan (Option Record) := do
  let query ← Plan.lift (a.mode.query id)
  a.updateFirst place collection query changes

def delete (a : DocumentAdapter) (place : Place) (collection : String) (filter : Filter) :
    DocumentPlan Nat := do
  let query ← Plan.lift (Query.ofFilter a.mode filter)
  call place (.deleteMany collection query)

def deleteFirst (place : Place) (collection : String) (query : Document) :
    DocumentPlan Bool := do
  let count : Nat ← call place (.deleteOne collection query)
  return 0 < count

def deleteOne (a : DocumentAdapter) (place : Place) (collection : String) (filter : Filter) :
    DocumentPlan Bool := do
  let query ← Plan.lift (Query.ofFilter a.mode filter)
  deleteFirst place collection query

def deleteById (a : DocumentAdapter) (place : Place) (collection : String) (id : Value) :
    DocumentPlan Bool := do
  let query ← Plan.lift (a.mode.query id)
  deleteFirst place collection query

def count (a : DocumentAdapter) (place : Place) (collection : String) (filter : Filter) :
    DocumentPlan Nat := do
  let query ← Plan.lift (Query.ofFilter a.mode filter)
  call place (.count collection query)

def contains (a : DocumentAdapter) (place : Place) (collection : String) (filter : Filter) :
    DocumentPlan Bool := do
  let record ← a.findOne place collection filter
  return record.isSome

def upsert (a : DocumentAdapter) (place : Place) (collection : String) (filter : Filter)
    (record : Record) : DocumentPlan Record := do
  match ← a.updateOne place collection filter record with
  | some record => return record
  | none => a.insert place collection (filter.seed record)

def aggregate (place : Place) (collection : String) (pipeline : List Document) :
    DocumentPlan (List Record) := do
  let documents : List Document ← call place
    (.aggregate collection (withIdentityProjection pipeline))
  return documents.map Record.ofDocument

def ownColumns (schema : TableSchema) : List (String × ColumnSpec) :=
  (schema.columns.map fun c => (IdentityMode.fieldName c.1, c.2)).filter fun c => c.1 != storedId

def property (spec : ColumnSpec) : Bson :=
  let type := ("bsonType", Bson.string (Dialect.columnType .document spec.type spec.length))
  match spec.choices with
  | some values => .document [type, ("enum", .array (values.map Bson.ofValue))]
  | none => .document [type]

def validator (schema : TableSchema) : Document :=
  let columns := ownColumns schema
  let properties := Entries.ofList (columns.map fun c => (c.1, property c.2))
  let required := (columns.filter fun c => c.2.required).map fun c => Bson.string c.1
  let asked := if required.isEmpty then [] else [("required", Bson.array required)]
  [("$jsonSchema", .document ([("bsonType", .string "object")] ++ asked ++
    [("properties", .document properties)]))]

def uniqueIndex (collection field : String) : DocumentCall :=
  .createIndex collection [(field, .int32 1)] (collection ++ "_" ++ field ++ "_unique") true

def uniqueFields (schema : TableSchema) : List String :=
  ((ownColumns schema).filter fun c => c.2.unique || c.2.primaryKey).map Prod.fst

/-- The calls of an operation on a collection, in order. The store has no foreign keys. -/
def definition (collection : String) : TableOperation → Except Error (List DocumentCall)
  | .create schema =>
    .ok (.createCollection collection (validator schema) ::
      (uniqueFields schema).map (uniqueIndex collection))
  | .drop => .ok [.dropCollection collection]
  | .createIndex index =>
    if index.fields.isEmpty then refuse (.indexWithoutFields index.name)
    else
      let keys := Entries.ofList (index.fields.map fun e =>
        (IdentityMode.fieldName e.1, Query.directionValue e.2))
      .ok [.createIndex collection keys index.name index.unique]
  | .dropIndex name => .ok [.dropIndex collection name]
  | .createForeignKey _ => .error (.unsupported .createForeignKey .mongodb)
  | .dropForeignKey _ => .error (.unsupported .dropForeignKey .mongodb)

def callAll : List DocumentCall → DocumentPlan Unit
  | [] => return ()
  | c :: rest => do
    let _ ← call .own c
    callAll rest

/-- The plan of an operation on a collection. No transaction holds it. -/
def define (collection : String) (operation : TableOperation) : DocumentPlan Unit := do
  let calls ← Plan.lift (definition collection operation)
  callAll calls

def rows (a : DocumentAdapter) (place : Place) (collection : String) :
    RowOperation → DocumentPlan RowResult
  | .insert record => .record <$> a.insert place collection record
  | .insertMany records => .records <$> a.insertMany place collection records
  | .find filter options => .records <$> a.find place collection filter options
  | .findOne filter => .found <$> a.findOne place collection filter
  | .findById id => .found <$> a.findById place collection id
  | .update filter changes => .count <$> a.update place collection filter changes
  | .updateOne filter changes => .found <$> a.updateOne place collection filter changes
  | .updateById id changes => .found <$> a.updateById place collection id changes
  | .delete filter => .count <$> a.delete place collection filter
  | .deleteOne filter => .flag <$> a.deleteOne place collection filter
  | .deleteById id => .flag <$> a.deleteById place collection id
  | .count filter => .count <$> a.count place collection filter
  | .contains filter => .flag <$> a.contains place collection filter
  | .upsert filter record => .record <$> a.upsert place collection filter record

end DocumentAdapter
end StoreBridge
