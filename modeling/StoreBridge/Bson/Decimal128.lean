import StoreBridge.Number.Digits

/-!
Decimal numbers with a coefficient of at most thirty-four digits and a power of ten. Equal numbers
with different powers are different values and are written differently.
-/
namespace StoreBridge

inductive Decimal128 where
  | nan
  | infinity (negative : Bool)
  | finite (negative : Bool) (coefficient : Nat) (power : Int)
  deriving DecidableEq, Repr

namespace Decimal128

def greatestDigits : Nat := 34
def leastPower : Int := -6176
def greatestPower : Int := 6111

def shorten? (digits : Nat) (coefficient : Nat) : Nat → Option Nat
  | 0 => if coefficient < 10 ^ digits then some coefficient else none
  | places + 1 =>
    if coefficient % 10 = 0 then shorten? digits (coefficient / 10) places else none

/-- A number whose coefficient and power fit, moved into range where this loses no digit. -/
def fit? (negative : Bool) (coefficient : Nat) (power : Int) : Option Decimal128 :=
  let length := if coefficient = 0 then 1 else (Digits.ofNat coefficient).length
  let excess := length - greatestDigits
  (shorten? greatestDigits coefficient excess).bind fun coefficient =>
    let power := power + excess
    if power < leastPower then
      (shorten? greatestDigits coefficient (if coefficient = 0 then 0 else
        (leastPower - power).toNat)).map fun c => .finite negative c leastPower
    else if greatestPower < power then
      let coefficient := if coefficient = 0 then 0
        else coefficient * 10 ^ (min (power - greatestPower).toNat greatestDigits)
      if coefficient < 10 ^ greatestDigits then some (.finite negative coefficient greatestPower)
      else none
    else some (.finite negative coefficient power)

def ofFiniteText? (negative : Bool) (s : List Char) : Option Decimal128 := do
  let mantissa := s.takeWhile fun c => c != 'e'
  let power ← match s.dropWhile fun c => c != 'e' with
    | [] => some 0
    | _ :: power => Digits.toInt? power
  let whole := mantissa.takeWhile fun c => c != '.'
  let fraction := (mantissa.dropWhile fun c => c != '.').drop 1
  let coefficient ← Digits.toNat? (whole ++ fraction)
  fit? negative coefficient (power - fraction.length)

def ofText? (s : List Char) : Option Decimal128 :=
  let negative := s.head? == some '-'
  let size := (if negative || s.head? == some '+' then s.drop 1 else s).map Char.toLower
  if size = "nan".toList ∨ size = "snan".toList then some .nan
  else if size = "inf".toList ∨ size = "infinity".toList then some (.infinity negative)
  else ofFiniteText? negative size

def pointed (digits : List Char) (places : Nat) : List Char :=
  if places = 0 then digits
  else if digits.length ≤ places then
    ['0', '.'] ++ List.replicate (places - digits.length) '0' ++ digits
  else digits.take (digits.length - places) ++ '.' :: digits.drop (digits.length - places)

def sizeText (coefficient : Nat) (power : Int) : List Char :=
  let digits := (Digits.ofNat coefficient).toList
  let leading := power + digits.length - 1
  if power ≤ 0 ∧ -6 ≤ leading then pointed digits power.natAbs
  else
    let mantissa := match digits with
      | first :: second :: rest => first :: '.' :: second :: rest
      | digits => digits
    mantissa ++ 'E' :: (if leading < 0 then '-' else '+') ::
      (Digits.ofNat leading.natAbs).toList

/-- Without a power where at most six zeros stand behind the point, with one digit before the
    point and a power elsewhere. -/
def text : Decimal128 → String
  | .nan => "NaN"
  | .infinity negative => if negative then "-Infinity" else "Infinity"
  | .finite negative coefficient power =>
    let size := String.ofList (sizeText coefficient power)
    if negative then "-" ++ size else size

end Decimal128
end StoreBridge
