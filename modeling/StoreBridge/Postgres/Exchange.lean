import StoreBridge.Postgres.Decode

/-!
One statement with the server: the parameters that are bound to it, and the rows that come back.
-/
namespace StoreBridge.Postgres

structure Prepared where
  parameters : List PgType
  columns : List (String × PgType)
  deriving Repr

inductive BindError where
  | count (expected actual : Nat)
  /-- The place of a parameter that has no form in its type, counted from zero. -/
  | parameter (index : Nat)
  deriving DecidableEq, Repr

def BindError.message : BindError → String
  | .count expected actual =>
    "expected " ++ toString expected ++ " parameters but got " ++ toString actual
  | .parameter index => "error serializing parameter " ++ toString index

def bindFrom (index : Nat) :
    List PgType → List Value → Except BindError (List (Option (List UInt8)))
  | type :: types, value :: values =>
    match encodeChecked type value with
    | .error _ => .error (.parameter index)
    | .ok bytes => (bindFrom (index + 1) types values).map (bytes :: ·)
  | _, _ => .ok []

/-- As many parameters as the statement has. -/
def bind (types : List PgType) (values : List Value) :
    Except BindError (List (Option (List UInt8))) :=
  if types.length ≠ values.length then .error (.count types.length values.length)
  else bindFrom 0 types values

/-- A row as a record. Of columns with one name the last has its value. -/
def rowRecord (columns : List (String × PgType)) (cells : List (Option (List UInt8))) : Record :=
  Entries.ofList (List.zipWith (fun column cell => (column.1, decodeCell column.2 cell))
    columns cells)

end StoreBridge.Postgres
