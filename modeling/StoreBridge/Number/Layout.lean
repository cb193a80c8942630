import StoreBridge.Number.Shortest

/-!
How a double is written. The plain layout never has an exponent and writes a whole number without
a point. The marked layout always shows that the number is a double: by a point, or by an exponent
where the number is large or small. Where two texts are equally near, the plain layout takes the
one farther from zero and the marked layout the one whose last digit is even.
-/
namespace StoreBridge.Layout

/-- How the marked layout writes a number: without an exponent where the leading digit has a power
    of ten between these two, and a tie between two texts goes this way. -/
structure Marked where
  least : Int
  greatest : Int
  tie : Shortest.Tie

def marked : Marked := ⟨-5, 15, .toEven⟩

def plainTie : Shortest.Tie := .toAway

def zeros (n : Int) : List Char := List.replicate n.toNat '0'

/-- Digits around a point at `place`. The ending stands where no digit follows the point. -/
def positional (digits : List Char) (place : Int) (ending : List Char) : List Char :=
  if place ≤ 0 then ['0', '.'] ++ zeros (-place) ++ digits
  else if digits.length ≤ place.toNat then digits ++ zeros (place - digits.length) ++ ending
  else digits.take place.toNat ++ '.' :: digits.drop place.toNat

def scientific (digits : List Char) (power : Int) : List Char :=
  let mantissa := match digits with
    | [] => []
    | [d] => [d]
    | d :: rest => d :: '.' :: rest
  let sign := if power < 0 then '-' else '+'
  mantissa ++ 'e' :: sign :: (Digits.ofNat power.natAbs).toList

def withSign (x : Binary64) (text : List Char) : String :=
  String.ofList (if x.isNegative then '-' :: text else text)

def plain (x : Binary64) : String :=
  if x.isNaN then "NaN"
  else if !x.isFinite then (if x.isNegative then "-inf" else "inf")
  else if x.isZero then withSign x ['0']
  else
    let d := Shortest.digits plainTie x
    withSign x (positional d.1 d.2 [])

def asDouble (x : Binary64) : String :=
  if x.isZero then withSign x ['0', '.', '0']
  else
    let d := Shortest.digits marked.tie x
    let power := d.2 - 1
    if marked.least ≤ power ∧ power ≤ marked.greatest then
      withSign x (positional d.1 d.2 ['.', '0'])
    else withSign x (scientific d.1 power)

end StoreBridge.Layout
