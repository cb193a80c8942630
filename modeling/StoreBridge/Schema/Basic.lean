import StoreBridge.Filter.Basic

/-!
Tables as their columns in order, indexes, and foreign keys.
-/
namespace StoreBridge

structure ColumnSpec where
  type : String
  length : Option Nat := none
  required : Bool := false
  unique : Bool := false
  primaryKey : Bool := false
  autoIncrement : Bool := false
  default : Option Value := none
  choices : Option (List Value) := none
  deriving Inhabited, Repr

structure TableSchema where
  columns : List (String × ColumnSpec)
  deriving Repr

def TableSchema.primaryKeys (s : TableSchema) : List String :=
  (s.columns.filter fun c => c.2.primaryKey).map Prod.fst

structure IndexSpec where
  name : String
  fields : List (String × Direction)
  unique : Bool
  deriving Repr

inductive ReferentialAction where
  | cascade | setNull | setDefault | restrict | noAction
  deriving DecidableEq, Repr

def ReferentialAction.keyword : ReferentialAction → String
  | .cascade => "CASCADE"
  | .setNull => "SET NULL"
  | .setDefault => "SET DEFAULT"
  | .restrict => "RESTRICT"
  | .noAction => "NO ACTION"

structure ForeignKeySpec where
  name : String
  columns : List String
  referencesTable : String
  referencesColumns : List String
  onDelete : Option ReferentialAction
  onUpdate : Option ReferentialAction
  deriving Repr

end StoreBridge
