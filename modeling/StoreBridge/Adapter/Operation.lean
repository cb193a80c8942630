import StoreBridge.Adapter.Plan
import StoreBridge.Schema.Basic

/-!
What can be asked of a table in any store: operations on its rows, and operations on the table
itself.
-/
namespace StoreBridge

inductive RowOperation where
  | insert (record : Record)
  | insertMany (records : List Record)
  | find (filter : Filter) (options : FindOptions)
  | findOne (filter : Filter)
  | findById (id : Value)
  /-- Changes every row of a filter. -/
  | update (filter : Filter) (changes : Record)
  /-- Changes the first row of a filter. -/
  | updateOne (filter : Filter) (changes : Record)
  | updateById (id : Value) (changes : Record)
  | delete (filter : Filter)
  | deleteOne (filter : Filter)
  | deleteById (id : Value)
  | count (filter : Filter)
  /-- Asks whether a filter has a row. -/
  | contains (filter : Filter)
  /-- Changes the first row of a filter, or inserts a row where there is none. -/
  | upsert (filter : Filter) (record : Record)
  deriving Repr

inductive RowResult where
  | record (record : Record)
  | found (record : Option Record)
  | records (records : List Record)
  | count (number : Nat)
  | flag (holds : Bool)
  deriving Repr

inductive TableOperation where
  | create (schema : TableSchema)
  | drop
  | createIndex (index : IndexSpec)
  | dropIndex (name : String)
  | createForeignKey (key : ForeignKeySpec)
  | dropForeignKey (name : String)
  deriving Repr

def FindOptions.first : FindOptions := { limit := some 1 }

/-- What an upsert inserts: the values that the filter asks for, under the record's own. -/
def Filter.seed (f : Filter) (record : Record) : Record :=
  Entries.merge (Entries.ofList f.equalityLeaves) record

end StoreBridge
