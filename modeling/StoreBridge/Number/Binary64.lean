import StoreBridge.Number.Digits

/-!
Binary floating point held as its bits, and computed with exactly: a finite number is a fraction,
and every rounding is to the nearest representable one, ties to the even one. Nothing here uses
the machine's own floating point unit.
-/
namespace StoreBridge

/-- The nearest whole number to `num / den`, the even one of two that are equally near. -/
def roundRatio (num den : Nat) : Nat :=
  let floor := num / den
  let rest := num % den
  if 2 * rest < den then floor
  else if den < 2 * rest then floor + 1
  else floor + floor % 2

def overPowerOfTwo (num den : Nat) (exponent : Int) : Nat × Nat :=
  if 0 ≤ exponent then (num, den * 2 ^ exponent.toNat) else (num * 2 ^ (-exponent).toNat, den)

structure BinaryFormat where
  fractionBits : Nat
  exponentBits : Nat

namespace BinaryFormat

def double : BinaryFormat := ⟨52, 11⟩
def single : BinaryFormat := ⟨23, 8⟩

def leastExponent (f : BinaryFormat) : Int := 2 - 2 ^ (f.exponentBits - 1) - f.fractionBits

/-- The bits of infinity, which is what all larger numbers round to. -/
def infinity (f : BinaryFormat) : Nat := (2 ^ f.exponentBits - 1) * 2 ^ f.fractionBits

def placeExponent (f : BinaryFormat) (num den : Nat) : Int :=
  let guess : Int := num.log2 - den.log2 - f.fractionBits
  let scaled := overPowerOfTwo num den guess
  let fitting := if 2 ^ f.fractionBits ≤ scaled.1 / scaled.2 then guess else guess - 1
  max fitting f.leastExponent

/-- The bits below the sign of the representable number nearest to `num / den`. A mantissa that
    rounds up to the next power of two carries into the exponent field by itself. -/
def magnitude (f : BinaryFormat) (num den : Nat) : Nat :=
  if num = 0 then 0
  else
    let exponent := f.placeExponent num den
    let scaled := overPowerOfTwo num den exponent
    let bits := (exponent - f.leastExponent).toNat * 2 ^ f.fractionBits +
      roundRatio scaled.1 scaled.2
    min bits f.infinity

end BinaryFormat

/-- A double precision number: a sign bit, eleven bits of exponent, fifty-two of fraction. -/
structure Binary64 where
  bits : BitVec 64
  deriving DecidableEq, Repr

namespace Binary64

def isNegative (x : Binary64) : Bool := 2 ^ 63 ≤ x.bits.toNat
def exponentField (x : Binary64) : Nat := x.bits.toNat / 2 ^ 52 % 2 ^ 11
def fractionField (x : Binary64) : Nat := x.bits.toNat % 2 ^ 52

def isFinite (x : Binary64) : Bool := x.exponentField != 2047
def isNaN (x : Binary64) : Bool := x.exponentField == 2047 && x.fractionField != 0
def isZero (x : Binary64) : Bool := x.exponentField == 0 && x.fractionField == 0

/-- A finite number is its mantissa times two to its exponent, with its sign. -/
def mantissa (x : Binary64) : Nat :=
  if x.exponentField = 0 then x.fractionField else 2 ^ 52 + x.fractionField

def exponent (x : Binary64) : Int := (max x.exponentField 1 : Nat) - 1075

def ratio (x : Binary64) : Nat × Nat := overPowerOfTwo x.mantissa 1 (-x.exponent)

def ofSignMagnitude (negative : Bool) (magnitude : Nat) : Binary64 :=
  ⟨BitVec.ofNat 64 ((if negative then 2 ^ 63 else 0) + magnitude)⟩

def ofRatio (negative : Bool) (num den : Nat) : Binary64 :=
  ofSignMagnitude negative (BinaryFormat.double.magnitude num den)

def ofInt (i : Int) : Binary64 := ofRatio (i < 0) i.natAbs 1

def nan : Binary64 := ⟨0x7FF8000000000000#64⟩

def mulSize (x y : Binary64) : Binary64 :=
  let a := x.ratio
  let b := y.ratio
  ofRatio false (a.1 * b.1) (a.2 * b.2)

def divSize (x y : Binary64) : Binary64 :=
  let a := x.ratio
  let b := y.ratio
  ofRatio false (a.1 * b.2) (a.2 * b.1)

def negate (x : Binary64) : Binary64 := ofSignMagnitude true (x.bits.toNat % 2 ^ 63)

def toInt? (x : Binary64) : Option Int :=
  if !x.isFinite then none
  else
    let r := x.ratio
    if r.1 % r.2 = 0 then
      some (if x.isNegative then -((r.1 / r.2 : Nat) : Int) else ((r.1 / r.2 : Nat) : Int))
    else none

/-- The part before the point, or `top` where the number is at least that large. -/
def truncated (top : Nat) (x : Binary64) : Nat :=
  if x.isFinite then min top (x.ratio.1 / x.ratio.2) else top

/-- Whether the number is at least zero; minus zero is. -/
def isNonnegative (x : Binary64) : Bool := !x.isNaN && (!x.isNegative || x.isZero)

/-- The single precision number nearest to a double, as its 32 bits. What is no number keeps its
    sign and the top of its fraction, and is made quiet. -/
def toSingleBits (x : Binary64) : BitVec 32 :=
  let sign := if x.isNegative then 2 ^ 31 else 0
  if x.isNaN then
    BitVec.ofNat 32 (sign + 0x7F800000 + (x.fractionField / 2 ^ 29) % 2 ^ 22 + 2 ^ 22)
  else if x.isFinite then
    BitVec.ofNat 32 (sign + BinaryFormat.single.magnitude x.ratio.1 x.ratio.2)
  else BitVec.ofNat 32 (sign + BinaryFormat.single.infinity)

def ofSingleBits (b : BitVec 32) : Binary64 :=
  let n := b.toNat
  let negative : Bool := 2 ^ 31 ≤ n
  let exponentField := n / 2 ^ 23 % 2 ^ 8
  let fraction := n % 2 ^ 23
  if exponentField = 255 then
    if fraction = 0 then ofSignMagnitude negative BinaryFormat.double.infinity
    else ofSignMagnitude negative
      (BinaryFormat.double.infinity + (2 ^ 51 + fraction % 2 ^ 22 * 2 ^ 29))
  else
    let mantissa := if exponentField = 0 then fraction else 2 ^ 23 + fraction
    let r := overPowerOfTwo mantissa 1 (150 - ((max exponentField 1 : Nat) : Int))
    ofRatio negative r.1 r.2

def singleBitsOfInt (i : Int) : BitVec 32 :=
  BitVec.ofNat 32 ((if i < 0 then 2 ^ 31 else 0) + BinaryFormat.single.magnitude i.natAbs 1)

def tenTo (power : Nat) : Binary64 := ofRatio false (10 ^ power) 1

def greatestPower : Nat := 308

/-- A size times ten to a power, rounded at the product or the quotient. Small powers take
    several quotients. There is no answer where the result would be infinite. -/
def scaleTen? (size : Binary64) (power : Int) : Option Binary64 :=
  if power.natAbs ≤ greatestPower then
    if 0 ≤ power then
      let result := size.mulSize (tenTo power.natAbs)
      if result.isFinite then some result else none
    else some (size.divSize (tenTo power.natAbs))
  else if size.isZero then some size
  else if 0 ≤ power then none
  else scaleTen? (size.divSize (tenTo greatestPower)) (power + greatestPower)
termination_by power.natAbs
decreasing_by
  simp only [greatestPower] at *
  omega

end Binary64
end StoreBridge
