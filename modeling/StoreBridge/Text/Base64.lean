import StoreBridge.Number.Places

/-!
Bytes as text of 64 characters: three bytes make four characters, and the last characters of a
group that is not full are equals signs.
-/
namespace StoreBridge.Text.Base64

def digit (n : Nat) : Char :=
  if n < 26 then Char.ofNat (65 + n)
  else if n < 52 then Char.ofNat (71 + n)
  else if n < 62 then Char.ofNat (n - 4)
  else if n = 62 then '+'
  else '/'

/-- The first characters of a group, whose bytes make one number of 24 bits. -/
def group (count : Nat) (a b c : Nat) : List Char :=
  let n := (a * 256 + b) * 256 + c
  [digit (n / 2 ^ 18), digit (n / 2 ^ 12 % 64), digit (n / 2 ^ 6 % 64), digit (n % 64)].take count

def ofBytes : List UInt8 → List Char
  | [] => []
  | [a] => group 2 a.toNat 0 0 ++ ['=', '=']
  | [a, b] => group 3 a.toNat b.toNat 0 ++ ['=']
  | a :: b :: c :: rest => group 4 a.toNat b.toNat c.toNat ++ ofBytes rest

end StoreBridge.Text.Base64
