import StoreBridge.Json.Writer
import StoreBridge.ObjectId
import StoreBridge.Time.Instant

/-!
The values that every store reads and writes, and the records made of them. Fields keep the order
in which they were written.
-/
namespace StoreBridge

inductive Value where
  | null
  | bool (value : Bool)
  | int (value : Int64)
  | float (value : Binary64)
  | text (value : String)
  | bytes (value : List UInt8)
  | timestamp (value : Instant)
  | objectId (value : ObjectId)
  | array (items : List Value)
  | object (fields : List (String × Value))
  deriving Inhabited, Repr

abbrev Record := Entries Value

inductive ValueKind where
  | null | boolean | integer | float | string | binary | timestamp | objectId | array | object
  deriving DecidableEq, Repr

def ValueKind.name : ValueKind → String
  | .null => "null"
  | .boolean => "boolean"
  | .integer => "integer"
  | .float => "float"
  | .string => "string"
  | .binary => "binary"
  | .timestamp => "timestamp"
  | .objectId => "objectId"
  | .array => "array"
  | .object => "object"

namespace Value

def kind : Value → ValueKind
  | .null => .null
  | .bool _ => .boolean
  | .int _ => .integer
  | .float _ => .float
  | .text _ => .string
  | .bytes _ => .binary
  | .timestamp _ => .timestamp
  | .objectId _ => .objectId
  | .array _ => .array
  | .object _ => .object

def isNull : Value → Bool
  | .null => true
  | _ => false

def text? : Value → Option String
  | .text s => some s
  | _ => none

def bool? : Value → Option Bool
  | .bool b => some b
  | _ => none

def items? : Value → Option (List Value)
  | .array items => some items
  | _ => none

def least64 : Int := -(2 ^ 63)
def greatest64 : Int := 2 ^ 63 - 1

/-- A whole number; one beyond 64 bits stands for the end of the range on its side. -/
def int64? : Value → Option Int64
  | .int i => some i
  | .float x => x.toInt?.map fun i => Int64.ofInt (max least64 (min greatest64 i))
  | _ => none

/-- Numbers, and text that reads as a whole number: what a generated number can stand for. -/
def isNumeric : Value → Bool
  | .int _ => true
  | .float _ => true
  | .text s => (Digits.toInt64? (Text.trimmed s.toList)).isSome
  | _ => false

mutual

/-- A value as JSON. Timestamps and identities become text, bytes become numbers, and a double
    that is not finite becomes null. -/
def toJson : Value → Json
  | .null => .null
  | .bool b => .bool b
  | .int i => .integer i.toInt
  | .float x => if x.isFinite then .float x else .null
  | .text s => .string s
  | .bytes b => .array (b.map fun byte => .integer (byte.toNat : Int))
  | .timestamp t => .string t.iso8601
  | .objectId id => .string id.text
  | .array items => .array (itemsToJson items)
  | .object fields => .object (fieldsToJson fields)

def itemsToJson : List Value → List Json
  | [] => []
  | item :: rest => item.toJson :: itemsToJson rest

def fieldsToJson : List (String × Value) → List (String × Json)
  | [] => []
  | (key, value) :: rest => (key, value.toJson) :: fieldsToJson rest

end

mutual

/-- A JSON value. A whole number beyond 64 bits with a sign becomes a double. -/
def ofJson : Json → Value
  | .null => .null
  | .bool b => .bool b
  | .integer i => if Digits.inInt64 i then .int (Int64.ofInt i) else .float (Binary64.ofInt i)
  | .float x => .float x
  | .string s => .text s
  | .array items => .array (itemsOfJson items)
  | .object fields => .object (Entries.ofList (fieldsOfJson fields))

def itemsOfJson : List Json → List Value
  | [] => []
  | item :: rest => ofJson item :: itemsOfJson rest

def fieldsOfJson : List (String × Json) → List (String × Value)
  | [] => []
  | (key, value) :: rest => (key, ofJson value) :: fieldsOfJson rest

end

theorem itemsToJson_map (items : List Value) : itemsToJson items = items.map toJson := by
  induction items with
  | nil => rfl
  | cons item rest ih => rw [itemsToJson, ih, List.map_cons]

theorem fieldsToJson_map (fields : List (String × Value)) :
    fieldsToJson fields = fields.map fun e => (e.1, e.2.toJson) := by
  induction fields with
  | nil => rfl
  | cons field rest ih => rw [fieldsToJson, ih, List.map_cons]

theorem itemsOfJson_map (items : List Json) : itemsOfJson items = items.map ofJson := by
  induction items with
  | nil => rfl
  | cons item rest ih => rw [itemsOfJson, ih, List.map_cons]

theorem fieldsOfJson_map (fields : List (String × Json)) :
    fieldsOfJson fields = fields.map fun e => (e.1, ofJson e.2) := by
  induction fields with
  | nil => rfl
  | cons field rest ih => rw [fieldsOfJson, ih, List.map_cons]

def jsonText (v : Value) : String := v.toJson.text

end Value

namespace Record

def first? (r : Record) : Option (String × Value) := r.head?

/-- Changes a field that is there. -/
def set (r : Record) (key : String) (value : Value) : Record :=
  if r.contains key then r.insert key value else r

def jsonText (r : Record) : String := (Value.object r).jsonText

end Record
end StoreBridge
