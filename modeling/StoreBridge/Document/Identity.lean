import StoreBridge.Bson.Basic
import StoreBridge.Error

/-!
The border between records and stored documents. A record has its identity in `id` and a document
in `_id`, at every depth. Values that only the store knows leave it as text.
-/
namespace StoreBridge

def recordId : String := "id"

def storedId : String := "_id"

/-- Whether text in an identity's place is read as an identity that the store generated. -/
inductive IdentityMode where
  | objectId | raw
  deriving DecidableEq, Repr

namespace IdentityMode

def fieldName (field : String) : String := if field = recordId then storedId else field

def isOperatorName (name : String) : Bool := name.toList.head? == some '$'

def textValue (mode : IdentityMode) (identity : Bool) (s : String) : Bson :=
  match mode, identity, ObjectId.ofText? s with
  | .objectId, true, some id => .objectId id
  | _, _, _ => .string s

mutual

/-- The stored form of a value. In an identity's place text may become an identity, also inside
    arrays. -/
def stored (mode : IdentityMode) (identity : Bool) : Value → Bson
  | .text s => mode.textValue identity s
  | .array items => .array (storedItems mode identity items)
  | .object fields => .document (Entries.ofList (storedFields mode fields))
  | .null => .null
  | .bool b => .boolean b
  | .int i => .ofInt64 i
  | .float x => .double x
  | .bytes b => .binary Bson.genericSubtype b
  | .timestamp t => .dateTime t.toMillis
  | .objectId id => .objectId id

def storedItems (mode : IdentityMode) (identity : Bool) : List Value → List Bson
  | [] => []
  | item :: rest => mode.stored identity item :: storedItems mode identity rest

/-- Fields under their stored names. What stands under an operator is not looked into. -/
def storedFields (mode : IdentityMode) : List (String × Value) → List (String × Bson)
  | [] => []
  | (key, value) :: rest =>
    let field :=
      if isOperatorName key then (key, Bson.ofValue value)
      else if key = recordId then (storedId, mode.stored true value)
      else (key, mode.stored false value)
    field :: storedFields mode rest

end

def fieldValue (mode : IdentityMode) (field : String) (value : Value) : Bson :=
  mode.stored (field == recordId) value

def document (mode : IdentityMode) (record : Record) : Document :=
  Entries.ofList (mode.storedFields record)

def query (mode : IdentityMode) (identity : Value) : Except Error Document :=
  if identity.isNull then .error .missingIdentity
  else
    match mode with
    | .raw => .ok [(storedId, Bson.ofValue identity)]
    | .objectId => .ok [(storedId, mode.stored true identity)]

end IdentityMode

/-- Puts a stored identity in front, under its name in a record. An `id` beside it is dropped. -/
def Record.ofStored (fields : Entries Value) : Record :=
  match fields.get? storedId with
  | some identity =>
    (recordId, identity) :: fields.filter fun e => e.1 != storedId && e.1 != recordId
  | none => fields

namespace Bson

mutual

/-- A stored value as records hold it. Kinds that records do not have become text. -/
def toValue : Bson → Value
  | .null => .null
  | .undefined => .null
  | .boolean b => .bool b
  | .int32 i => .int i.toInt64
  | .int64 i => .int i
  | .double x => .float x
  | .string s => .text s
  | .objectId id => .text id.text
  | .dateTime ms => .text (Instant.clampMillis ms).iso8601
  | .binary _ bytes => .bytes bytes
  | .array items => .array (toValues items)
  | .document fields => .object (Record.ofStored (toFields fields))
  | .regex pattern _ => .text pattern
  | .timestamp time _ => .int (Int64.ofNat time)
  | .code text => .text text
  | .codeWithScope text _ => .text text
  | .symbol name => .text ("Symbol(\"" ++ name ++ "\")")
  | .decimal x => .text x.text
  | .minKey => .text "MinKey"
  | .maxKey => .text "MaxKey"
  | .dbPointer collection id => .text ("DbPointer(" ++ collection ++ ", " ++ id.text ++ ")")

def toValues : List Bson → List Value
  | [] => []
  | item :: rest => item.toValue :: toValues rest

def toFields : List (String × Bson) → List (String × Value)
  | [] => []
  | (key, value) :: rest => (key, value.toValue) :: toFields rest

end

end Bson

def Record.ofDocument (d : Document) : Record := Record.ofStored (Bson.toFields d)

/-- A pipeline that ends by giving the identity as text. A last stage that projects is extended. -/
def withIdentityProjection (pipeline : List Document) : List Document :=
  let identity : Bson := .document [("$toString", .string ("$" ++ storedId))]
  let extended : List Document :=
    pipeline ++ [[("$addFields", .document [(recordId, identity)])],
      [("$project", .document [(storedId, .int32 0)])]]
  match pipeline.getLast? with
  | none => extended
  | some stage =>
    match Entries.get? stage "$project" with
    | some (.document fields) =>
      let fields := Entries.insert fields recordId identity
      let fields :=
        if Entries.contains fields storedId then fields
        else Entries.insert fields storedId (.int32 0)
      pipeline.dropLast ++ [Entries.insert stage "$project" (.document fields)]
    | _ => extended

end StoreBridge
