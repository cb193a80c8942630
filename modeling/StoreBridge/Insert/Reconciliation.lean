import StoreBridge.Value

/-!
From what a store reports about an insert to the record that was stored. Where the report does
not hold the row, at most one look-up by a key is left to do, and the record to fall back on is
known before it.
-/
namespace StoreBridge

inductive InsertOutcome where
  | rows (rows : List Record)
  | generatedId (id : Value)
  | lastInsertId (id : Value)
  | nothing
  deriving Repr

inductive Reconciliation where
  | settled (record : Record)
  | lookUp (field : String) (value : Value) (fallback : Record)
  deriving Repr

namespace Reconciliation

def withIdentity (record : Record) (id : Value) : Record :=
  ("id", id) :: record.filter fun e => e.1 != "id"

/-- The number that an insert generated. Null and zero say that there is none. -/
def generated? : Value → Option Value
  | .null => none
  | .int 0 => none
  | value => some value

/-- A field that may tell the row, and whether it was taken only for being the first. -/
structure KeyField where
  name : String
  guessed : Bool
  deriving Repr

def hasEnding (name ending : String) : Bool := ending.toList.isSuffixOf name.toList

def findName (record : Record) (test : String → Bool) : Option String :=
  record.keys.find? fun name => test (Text.lower name)

/-- Declared keys come first, then names that sound like keys, then the first field. -/
def keyField (record : Record) (declared : List String) : Option KeyField :=
  let named := (findName record fun name => name == "id")
    <|> (findName record fun name =>
      hasEnding name "_id" || hasEnding name "_name" || hasEnding name "_code")
    <|> (findName record fun name => Text.hasPart "primary".toList name.toList)
  match declared, named, record.keys with
  | name :: _, _, _ => some ⟨name, false⟩
  | [], some name, _ => some ⟨name, false⟩
  | [], none, name :: _ => some ⟨name, true⟩
  | [], none, [] => none

def assigned? (record : Record) (field : String) : Option Value :=
  (record.get? field).filter fun value => !value.isNull

/-- The key's value. A generated number stands behind an assigned value that is no number. -/
def keyValue (assigned generated : Option Value) : Option Value :=
  match assigned, generated with
  | some assigned, some generated => some (if assigned.isNumeric then generated else assigned)
  | assigned, none => assigned
  | none, generated => generated

def ofGenerated (generated : Option Value) (given : Record) (declared : List String) :
    Reconciliation :=
  match keyField given declared, generated with
  | none, some id => .settled [("id", id)]
  | none, none => .settled given
  | some ⟨_, true⟩, some id => .settled (withIdentity given id)
  | some field, generated =>
    match keyValue (assigned? given field.name) generated with
    | none => .settled given
    | some value => .lookUp field.name value (given.insert field.name value)

def ofOutcome (outcome : InsertOutcome) (given : Record) (declared : List String) :
    Reconciliation :=
  match outcome with
  | .rows [] => .settled given
  | .rows (row :: _) => .settled row
  | .generatedId id => .settled (withIdentity given id)
  | .lastInsertId id => ofGenerated (generated? id) given declared
  | .nothing => ofGenerated none given declared

def finish (r : Reconciliation) (row : Option Record) : Record :=
  match r with
  | .settled record => record
  | .lookUp _ _ fallback => row.getD fallback

end Reconciliation
end StoreBridge
