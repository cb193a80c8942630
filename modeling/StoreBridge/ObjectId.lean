import StoreBridge.Text.Hex

/-!
The identity that the document store generates: twelve bytes, written as twenty-four hexadecimal
digits in small letters and read in either case.
-/
namespace StoreBridge

structure ObjectId where
  value : BitVec 96
  deriving DecidableEq, Repr

namespace ObjectId
open Text

def digits (id : ObjectId) : List Char := Hex.ofNat 24 id.value.toNat

def text (id : ObjectId) : String := String.ofList id.digits

/-- Exactly twenty-four digits are an identity. -/
def ofText? (s : String) : Option ObjectId :=
  let digits := s.toList
  if digits.length = 24 then (Hex.toNat? digits).map fun n => ⟨BitVec.ofNat 96 n⟩ else none

end ObjectId
end StoreBridge
