import StoreBridge.Json.Reader
import StoreBridge.Postgres.Encode

/-!
Columns as values, by the type that the server names. Decimal numbers, dates and times become
text, so that no digit is lost. Bytes that do not fit their type are refused.
-/
namespace StoreBridge.Postgres

def decodeDate? (bytes : List UInt8) : Option Date := do
  let days ← Bytes.exactly? 4 bytes
  let date := Date.ofDays (epoch.toDays + days)
  if date.isValid then some date else none

/-- A time of day, counted on past midnight from the start again. -/
def decodeTime? (bytes : List UInt8) : Option TimeOfDay := do
  let micros ← Bytes.exactly? 8 bytes
  let ofDay := (micros % 86400000000).toNat
  some ⟨ofDay / 1000000, ofDay % 1000000 * 1000⟩

def decodeInstant? (bytes : List UInt8) : Option Instant := do
  let micros ← Bytes.exactly? 8 bytes
  let instant : Instant :=
    ⟨epoch.toDays * 86400 + micros / 1000000, (micros % 1000000).toNat * 1000⟩
  if instant.date.isValid then some instant else none

def decodeJson? (bytes : List UInt8) : Option Value := do
  let text ← Bytes.toText? bytes
  let json ← Json.ofText? text
  some (Value.ofJson json)

def decodeJsonb? : List UInt8 → Option Value
  | version :: rest => if version = jsonbVersion then decodeJson? rest else none
  | [] => none

def decodeInt? (width : Nat) (bytes : List UInt8) : Option Value :=
  (Bytes.exactly? width bytes).map fun i => .int (Int64.ofInt i)

def decodeSingle? (bytes : List UInt8) : Option Value :=
  if bytes.length = 4 then
    some (.float (Binary64.ofSingleBits (BitVec.ofNat 32 (Bytes.toNat bytes))))
  else none

def decodeDouble? (bytes : List UInt8) : Option Value :=
  if bytes.length = 8 then some (.float ⟨BitVec.ofNat 64 (Bytes.toNat bytes)⟩) else none

def decodeBase? (t : BaseType) (bytes : List UInt8) : Option Value :=
  match t with
  | .bool => if bytes.length = 1 then some (.bool (bytes != [0])) else none
  | .int2 => decodeInt? 2 bytes
  | .int4 => decodeInt? 4 bytes
  | .int8 => decodeInt? 8 bytes
  | .float4 => decodeSingle? bytes
  | .float8 => decodeDouble? bytes
  | .numeric => (Numeric.decode? bytes).map fun d => .text d.text
  | .uuid => if bytes.length = 16 then some (.text (Uuid.text bytes)) else none
  | .bytea => some (.bytes bytes)
  | .date => (decodeDate? bytes).map fun d => .text d.text
  | .time => (decodeTime? bytes).map fun t => .text t.text
  | .timestamp | .timestamptz => (decodeInstant? bytes).map .timestamp
  | .json => decodeJson? bytes
  | .jsonb => decodeJsonb? bytes
  | .text | .varchar | .bpchar | .name | .unknown => (Bytes.toText? bytes).map .text
  | .inet | .interval | .point | .oid => none

/-- As many items as counted, each behind its length, and nothing behind them. -/
def decodeItems? (t : BaseType) : Nat → List UInt8 → Option (List Value)
  | 0, bytes => if bytes.isEmpty then some [] else none
  | count + 1, bytes => do
    let (length, rest) ← Bytes.signed? 4 bytes
    if length < 0 then
      let items ← decodeItems? t count rest
      some (.null :: items)
    else
      let (item, rest) ← Bytes.split? length.toNat rest
      let value ← decodeBase? t item
      let items ← decodeItems? t count rest
      some (value :: items)

/-- An array with one dimension, or with none and no items. -/
def decodeArray? (t : BaseType) (bytes : List UInt8) : Option Value := do
  let (dimensions, rest) ← Bytes.signed? 4 bytes
  let (_, rest) ← Bytes.signed? 4 rest
  let (_, rest) ← Bytes.unsigned? 4 rest
  if dimensions = 0 then (decodeItems? t 0 rest).map .array
  else if dimensions = 1 then
    let (count, rest) ← Bytes.signed? 4 rest
    let (_, rest) ← Bytes.signed? 4 rest
    if count < 0 then none else (decodeItems? t count.toNat rest).map .array
  else none

def decode? : PgType → List UInt8 → Option Value
  | .base t, bytes => decodeBase? t bytes
  | .array t, bytes => decodeArray? t bytes

/-- A cell of a row. What cannot be decoded is null. -/
def decodeCell (t : PgType) : Option (List UInt8) → Value
  | none => .null
  | some bytes => (decode? t bytes).getD .null

end StoreBridge.Postgres
