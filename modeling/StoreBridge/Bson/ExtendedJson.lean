import StoreBridge.Bson.Basic
import StoreBridge.Json.Writer
import StoreBridge.Text.Base64

/-!
Stored values as JSON. A type that JSON has is written as it is, and a type that it lacks is an
object with a key of its own.
-/
namespace StoreBridge.Bson
open Text

def wrapped (key : String) (value : Json) : Json := .object [(key, value)]

/-- Numbers that are not finite have names. -/
def doubleJson (x : Binary64) : Json :=
  if x.isFinite then .float x
  else if x.isNaN then wrapped "$numberDouble" (.string "NaN")
  else wrapped "$numberDouble" (.string (if x.isNegative then "-Infinity" else "Infinity"))

/-- Dates are text from 1970 to the last year of four digits. -/
def dateJson (millis : Int) : Json :=
  let t := Instant.clampMillis millis
  if 0 ≤ millis ∧ t.date.year ≤ 9999 then
    let text := t.iso8601.toList
    let short := if millis % 1000 = 0 then text.take (text.length - 5) ++ ['Z'] else text
    wrapped "$date" (.string (String.ofList short))
  else wrapped "$date" (wrapped "$numberLong" (.string (Digits.ofInt millis)))

def binaryJson (subtype : Nat) (bytes : List UInt8) : Json :=
  wrapped "$binary" (.object [("base64", .string (String.ofList (Base64.ofBytes bytes))),
    ("subType", .string (String.ofList (Hex.ofNat 2 subtype)))])

/-- The letters of the options in alphabetical order. -/
def regexJson (pattern options : String) : Json :=
  let letters := options.toList.mergeSort fun a b => a.toNat ≤ b.toNat
  wrapped "$regularExpression" (.object [("pattern", .string pattern),
    ("options", .string (String.ofList letters))])

mutual

def toJson : Bson → Json
  | .null => .null
  | .boolean b => .bool b
  | .int32 i => .integer i.toInt
  | .int64 i => .integer i.toInt
  | .double x => doubleJson x
  | .string s => .string s
  | .objectId id => wrapped "$oid" (.string id.text)
  | .dateTime millis => dateJson millis
  | .binary subtype bytes => binaryJson subtype bytes
  | .array items => .array (itemsJson items)
  | .document fields => .object (fieldsJson fields)
  | .regex pattern options => regexJson pattern options
  | .timestamp time increment =>
    wrapped "$timestamp" (.object [("t", .integer time), ("i", .integer increment)])
  | .code text => wrapped "$code" (.string text)
  | .codeWithScope text scope =>
    .object [("$code", .string text), ("$scope", .object (fieldsJson scope))]
  | .symbol name => wrapped "$symbol" (.string name)
  | .decimal x => wrapped "$numberDecimal" (.string x.text)
  | .undefined => wrapped "$undefined" (.bool true)
  | .minKey => wrapped "$minKey" (.integer 1)
  | .maxKey => wrapped "$maxKey" (.integer 1)
  | .dbPointer collection id =>
    wrapped "$dbPointer" (.object [("$ref", .string collection),
      ("$id", wrapped "$oid" (.string id.text))])

def itemsJson : List Bson → List Json
  | [] => []
  | item :: rest => item.toJson :: itemsJson rest

def fieldsJson : List (String × Bson) → List (String × Json)
  | [] => []
  | (key, value) :: rest => (key, value.toJson) :: fieldsJson rest

end

end StoreBridge.Bson

namespace StoreBridge

def Document.toJson (d : Document) : Json := .object (Bson.fieldsJson d)

end StoreBridge
