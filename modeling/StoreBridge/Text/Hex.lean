import StoreBridge.Number.Places

/-!
Hexadecimal digits: two per byte, small letters when written, either case when read.
-/
namespace StoreBridge.Text.Hex

def digit (n : Nat) : Char :=
  if n < 10 then Char.ofNat (48 + n) else Char.ofNat (87 + n)

def value? (c : Char) : Option Nat :=
  let n := c.toNat
  if 48 ≤ n ∧ n ≤ 57 then some (n - 48)
  else if 97 ≤ n ∧ n ≤ 102 then some (n - 87)
  else if 65 ≤ n ∧ n ≤ 70 then some (n - 55)
  else none

abbrev ofNat (width n : Nat) : List Char := Places.ofNat 16 digit width n

def toNat? (digits : List Char) : Option Nat :=
  digits.foldl (fun n c => n.bind fun n => (value? c).map (16 * n + ·)) (some 0)

def ofBytes : List UInt8 → List Char
  | [] => []
  | b :: rest => digit (b.toNat / 16) :: digit (b.toNat % 16) :: ofBytes rest

/-- Two digits make a byte; a lone digit makes none. -/
def toBytes? : List Char → Option (List UInt8)
  | [] => some []
  | [_] => none
  | high :: low :: rest => do
    let high ← value? high
    let low ← value? low
    let rest ← toBytes? rest
    some (UInt8.ofNat (16 * high + low) :: rest)

def shortest (n : Nat) : List Char :=
  if n < 16 then [digit n] else shortest (n / 16) ++ [digit (n % 16)]

theorem value?_digit : ∀ n, n < 16 → value? (digit n) = some n := by decide

end StoreBridge.Text.Hex
