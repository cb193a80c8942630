import StoreBridge.Bson.Decimal128
import StoreBridge.Value

/-!
The values and documents of the document store. A document keeps its fields in order, and each
field once.
-/
namespace StoreBridge

inductive Bson where
  | null
  | boolean (value : Bool)
  | int32 (value : Int32)
  | int64 (value : Int64)
  | double (value : Binary64)
  | string (value : String)
  | objectId (value : ObjectId)
  /-- Milliseconds from the start of 1970. -/
  | dateTime (millis : Int)
  | binary (subtype : Nat) (bytes : List UInt8)
  | array (items : List Bson)
  | document (fields : List (String × Bson))
  | regex (pattern options : String)
  | timestamp (time increment : Nat)
  | code (text : String)
  | codeWithScope (text : String) (scope : List (String × Bson))
  | symbol (name : String)
  | decimal (value : Decimal128)
  | undefined
  | minKey
  | maxKey
  | dbPointer (collection : String) (id : ObjectId)
  deriving Inhabited, Repr

abbrev Document := Entries Bson

namespace Bson

/-- The smaller of the two types of whole numbers that holds the number. -/
def ofInt64 (i : Int64) : Bson :=
  if i.toInt32.toInt64 = i then .int32 i.toInt32 else .int64 i

def genericSubtype : Nat := 0

mutual

def ofValue : Value → Bson
  | .null => .null
  | .bool b => .boolean b
  | .int i => ofInt64 i
  | .float x => .double x
  | .text s => .string s
  | .bytes b => .binary genericSubtype b
  | .timestamp t => .dateTime t.toMillis
  | .objectId id => .objectId id
  | .array items => .array (ofValues items)
  | .object fields => .document (Entries.ofList (ofFields fields))

def ofValues : List Value → List Bson
  | [] => []
  | value :: rest => ofValue value :: ofValues rest

def ofFields : List (String × Value) → List (String × Bson)
  | [] => []
  | (key, value) :: rest => (key, ofValue value) :: ofFields rest

end

end Bson
end StoreBridge
