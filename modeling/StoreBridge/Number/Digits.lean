import StoreBridge.Number.Places
import StoreBridge.Text.Blank

/-!
Whole numbers as decimal text. A reader takes ASCII digits only, and at least one of them.
-/
namespace StoreBridge.Digits

def isDigit (c : Char) : Bool := 48 ≤ c.toNat && c.toNat ≤ 57

def value (c : Char) : Nat := c.toNat - 48

/-- The number that digits write; what stands between them is not looked at. -/
def toNat (digits : List Char) : Nat := digits.foldl (fun n c => 10 * n + value c) 0

def toNat? (s : List Char) : Option Nat :=
  if s.isEmpty || !s.all isDigit then none else some (toNat s)

def split (s : List Char) : List Char × List Char := (s.takeWhile isDigit, s.dropWhile isDigit)

def toInt? : List Char → Option Int
  | '-' :: s => (toNat? s).map fun n => -(n : Int)
  | '+' :: s => (toNat? s).map fun n => (n : Int)
  | s => (toNat? s).map fun n => (n : Int)

def toUnsigned? : List Char → Option Nat
  | '+' :: s => toNat? s
  | s => toNat? s

def inInt64 (i : Int) : Bool := -(2 ^ 63) ≤ i && i < 2 ^ 63

def toInt64? (s : List Char) : Option Int64 :=
  (toInt? s).bind fun i => if inInt64 i then some (Int64.ofInt i) else none

def toUInt64? (s : List Char) : Option Nat :=
  (toUnsigned? s).bind fun n => if n < 2 ^ 64 then some n else none

def ofNat (n : Nat) : String := toString n

def ofInt (i : Int) : String := if i < 0 then "-" ++ ofNat i.natAbs else ofNat i.natAbs

/-- At least `width` digits, zeros in front where the number has fewer. -/
def padded (width n : Nat) : String :=
  let digits := ofNat n
  String.ofList (List.replicate (width - digits.length) '0') ++ digits

end StoreBridge.Digits
