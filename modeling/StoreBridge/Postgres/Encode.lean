import StoreBridge.Postgres.Numeric
import StoreBridge.Postgres.Type
import StoreBridge.Time.Reader
import StoreBridge.Uuid
import StoreBridge.Value

/-!
Values as parameters. The type that the server expects decides the form, so one whole number binds
to every type of whole numbers that holds it. A value with no faithful form for a type is refused.
-/
namespace StoreBridge.Postgres

inductive EncodeError where
  /-- A type that takes no value of this kind. -/
  | mismatch (kind : ValueKind) (type : PgType)
  /-- A type that takes such values, but not this one. -/
  | refused
  deriving Repr

def EncodeError.message : EncodeError → String
  | .mismatch kind type =>
    "cannot bind a " ++ kind.name ++ " value to a parameter of type " ++ type.label
  | .refused => "the value has no form in the type"

def epoch : Date := ⟨2000, 1, 1⟩

def encodeDate (d : Date) : List UInt8 := Bytes.ofInt 4 (d.toDays - epoch.toDays)

def encodeTime (t : TimeOfDay) : List UInt8 :=
  Bytes.ofInt 8 (t.seconds * 1000000 + t.nanos / 1000)

/-- Microseconds from the start of 2000, cut towards it. -/
def encodeInstant (t : Instant) : List UInt8 :=
  let nanos : Int := (t.seconds - epoch.toDays * 86400) * Instant.billion + t.nanos
  Bytes.ofInt 8 (nanos.tdiv 1000)

/-- The mark before a value of the binary kind of JSON. -/
def jsonbVersion : UInt8 := 1

def encodeJson (t : BaseType) (v : Value) : List UInt8 :=
  if t = .jsonb then jsonbVersion :: Bytes.ofText v.jsonText else Bytes.ofText v.jsonText

def encodeInt (width : Nat) (i : Int) : Except EncodeError (List UInt8) :=
  if Bytes.toInt (Bytes.ofInt width i) = i then .ok (Bytes.ofInt width i) else .error .refused

def found {α : Type} (encode : α → List UInt8) : Option α → Except EncodeError (List UInt8)
  | some value => .ok (encode value)
  | none => .error .refused

def encodeValue (t : BaseType) (v : Value) : Except EncodeError (List UInt8) :=
  let mismatch : Except EncodeError (List UInt8) := .error (.mismatch v.kind (.base t))
  let asText (s : String) : Except EncodeError (List UInt8) :=
    if t.isText then .ok (Bytes.ofText s) else mismatch
  match v, t with
  | .bool b, .bool => .ok [if b then 1 else 0]
  | .bool _, .json | .bool _, .jsonb => .ok (encodeJson t v)
  | .bool b, _ => asText (if b then "true" else "false")
  | .int i, .int2 => encodeInt 2 i.toInt
  | .int i, .int4 => encodeInt 4 i.toInt
  | .int i, .int8 => encodeInt 8 i.toInt
  | .int i, .float4 => .ok (Bytes.ofNat 4 (Binary64.singleBitsOfInt i.toInt).toNat)
  | .int i, .float8 => .ok (Bytes.ofNat 8 (Binary64.ofInt i.toInt).bits.toNat)
  | .int i, .numeric => .ok (Numeric.encode (.ofInt i.toInt))
  | .int _, .json | .int _, .jsonb => .ok (encodeJson t v)
  | .int i, _ => asText (Digits.ofInt i.toInt)
  | .float x, .float4 => .ok (Bytes.ofNat 4 x.toSingleBits.toNat)
  | .float x, .float8 => .ok (Bytes.ofNat 8 x.bits.toNat)
  | .float x, .numeric => found Numeric.encode (ScaledDecimal.ofBinary64? x)
  | .float _, .json | .float _, .jsonb => .ok (encodeJson t v)
  | .float x, _ => asText (Layout.plain x)
  | .text s, .uuid => found id (Uuid.ofText? s.toList)
  | .text s, .numeric => found Numeric.encode (ScaledDecimal.ofText? (Text.trimmed s.toList))
  | .text s, .date => found encodeDate (Date.ofText? s.toList)
  | .text s, .time => found encodeTime (TimeOfDay.ofText? s.toList)
  | .text s, .timestamptz => found encodeInstant (Instant.ofZonedText? s.toList)
  | .text s, .timestamp => found encodeInstant (Instant.ofPlainText? s.toList)
  | .text _, .json | .text _, .jsonb => .ok (encodeJson t v)
  | .text s, _ => asText s
  | .bytes b, .bytea => .ok b
  | .timestamp i, .timestamptz | .timestamp i, .timestamp => .ok (encodeInstant i)
  | .timestamp i, .date => .ok (encodeDate i.date)
  | .timestamp i, _ => asText i.iso8601
  | .objectId id, _ => asText id.text
  | .array _, .json | .array _, .jsonb => .ok (encodeJson t v)
  | .object _, .json | .object _, .jsonb => .ok (encodeJson t v)
  | _, _ => mismatch

def encodeBase (t : BaseType) : Value → Except EncodeError (Option (List UInt8))
  | .null => .ok none
  | value => (encodeValue t value).map some

/-- The greatest number and length that a frame can say. -/
def greatestLength : Nat := 2 ^ 31 - 1

def encodeItem (t : BaseType) (v : Value) : Except EncodeError (Option (List UInt8)) := do
  let bytes ← encodeBase t v
  if greatestLength < (bytes.getD []).length then .error .refused else .ok bytes

def encodeItems (t : BaseType) : List Value → Except EncodeError (List (Option (List UInt8)))
  | [] => .ok []
  | item :: rest => do
    let first ← encodeItem t item
    let rest ← encodeItems t rest
    .ok (first :: rest)

/-- An item behind its length. A null item has the length minus one. -/
def frameItem : Option (List UInt8) → List UInt8
  | none => Bytes.ofInt 4 (-1)
  | some bytes => Bytes.ofNat 4 bytes.length ++ bytes

/-- One dimension of items, counted from one. -/
def frame (t : BaseType) (items : List (Option (List UInt8))) : List UInt8 :=
  let hasNull := items.any Option.isNone
  Bytes.ofNat 4 1 ++ Bytes.ofNat 4 (if hasNull then 1 else 0) ++ Bytes.ofNat 4 t.number ++
    Bytes.ofNat 4 items.length ++ Bytes.ofNat 4 1 ++ items.flatMap frameItem

def encode (t : PgType) (v : Value) : Except EncodeError (Option (List UInt8)) :=
  match t, v with
  | _, .null => .ok none
  | .base t, _ => encodeBase t v
  | .array t, .array items =>
    if greatestLength < items.length then .error .refused
    else (encodeItems t items).map fun items => some (frame t items)
  | .array _, _ => .error (.mismatch v.kind t)

def encodeChecked (t : PgType) (v : Value) : Except EncodeError (Option (List UInt8)) :=
  if t.isAccepted then encode t v else .error .refused

end StoreBridge.Postgres
