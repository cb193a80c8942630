import StoreBridge.Number.Places

/-!
Numbers as bytes, the highest byte first, and text as the bytes of its encoding.
-/
namespace StoreBridge.Postgres.Bytes

abbrev ofNat (width n : Nat) : List UInt8 := Places.ofNat 256 UInt8.ofNat width n

def ofInt (width : Nat) (i : Int) : List UInt8 := ofNat width (i % 256 ^ width).toNat

def toNat (bytes : List UInt8) : Nat := bytes.foldl (fun n b => 256 * n + b.toNat) 0

def toInt (bytes : List UInt8) : Int :=
  let n : Int := toNat bytes
  let size : Int := 256 ^ bytes.length
  if 2 * n < size then n else n - size

def exactly? (width : Nat) (bytes : List UInt8) : Option Int :=
  if bytes.length = width then some (toInt bytes) else none

def split? (width : Nat) (bytes : List UInt8) : Option (List UInt8 × List UInt8) :=
  if width ≤ bytes.length then some (bytes.take width, bytes.drop width) else none

def signed? (width : Nat) (bytes : List UInt8) : Option (Int × List UInt8) :=
  (split? width bytes).map fun (front, rest) => (toInt front, rest)

def unsigned? (width : Nat) (bytes : List UInt8) : Option (Nat × List UInt8) :=
  (split? width bytes).map fun (front, rest) => (toNat front, rest)

def ofText (s : String) : List UInt8 := s.toUTF8.data.toList

def toText? (bytes : List UInt8) : Option String := String.fromUTF8? ⟨bytes.toArray⟩

end StoreBridge.Postgres.Bytes
