import StoreBridge.Entries
import StoreBridge.Number.Binary64

/-!
JSON values. A number without point and exponent is a whole number as long as it fits into 64
bits, signed or unsigned; all others are doubles.
-/
namespace StoreBridge

inductive Json where
  | null
  | bool (value : Bool)
  | integer (value : Int)
  | float (value : Binary64)
  | string (value : String)
  | array (items : List Json)
  | object (fields : List (String × Json))
  deriving Inhabited, Repr

inductive JsonKind where
  | null | boolean | number | string | array | object
  deriving DecidableEq, Repr

def JsonKind.name : JsonKind → String
  | .null => "null"
  | .boolean => "boolean"
  | .number => "number"
  | .string => "string"
  | .array => "array"
  | .object => "object"

namespace Json

def kind : Json → JsonKind
  | .null => .null
  | .bool _ => .boolean
  | .integer _ => .number
  | .float _ => .number
  | .string _ => .string
  | .array _ => .array
  | .object _ => .object

def toInt64? : Json → Option Int64
  | .integer i => if Digits.inInt64 i then some (Int64.ofInt i) else none
  | _ => none

def toUInt64? : Json → Option Nat
  | .integer i => if 0 ≤ i ∧ i < 2 ^ 64 then some i.toNat else none
  | _ => none

end Json
end StoreBridge
