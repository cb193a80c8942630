import StoreBridge.Number.Binary64

/-!
Decimal numbers with a coefficient of at most 96 bits and at most 28 places after the point.
A reader rounds what does not fit behind the point and refuses what does not fit in front of it.
-/
namespace StoreBridge

structure ScaledDecimal where
  negative : Bool
  coefficient : Nat
  scale : Nat
  deriving DecidableEq, Repr

namespace ScaledDecimal

def bound : Nat := 2 ^ 96
def greatestScale : Nat := 28

def make (negative : Bool) (coefficient scale : Nat) : ScaledDecimal :=
  ⟨negative && coefficient != 0, coefficient, scale⟩

def ofInt (i : Int) : ScaledDecimal := make (i < 0) i.natAbs 0

/-- What stands behind the last place that fits has to be digits and underscores. The first of its
    digits, or zero where there is none. -/
def firstBeyond? (tail : List Char) : Option Nat :=
  if tail.all fun c => Digits.isDigit c || c == '_' then
    some (((tail.find? Digits.isDigit).map Digits.value).getD 0)
  else none

/-- Rounds by what did not fit, a half upwards. A coefficient that grows beyond its bound gives up
    its last place. -/
def roundBy (negative : Bool) (coefficient scale : Nat) (tail : List Char) :
    Option ScaledDecimal := do
  let digit ← firstBeyond? tail
  if digit < 5 then some (make negative coefficient scale)
  else if coefficient + 1 < bound then some (make negative (coefficient + 1) scale)
  else if scale = 0 then none
  else some (make negative ((coefficient + 5) / 10) (scale - 1))

/-- Gives up the places behind the first `scale` ones, a half away from zero. -/
def roundTo (d : ScaledDecimal) (scale : Nat) : ScaledDecimal :=
  if d.scale ≤ scale then d
  else
    let unit := 10 ^ (d.scale - scale)
    make d.negative ((2 * d.coefficient + unit) / (2 * unit)) scale

/-- What has been read of a number: its digits, how many of them stand behind the point, whether
    there was a point, and whether there was a digit. -/
structure Reading where
  coefficient : Nat
  scale : Nat
  point : Bool
  started : Bool

def readDigits (negative : Bool) : List Char → Reading → Option ScaledDecimal
  | [], r => if r.started then some (make negative r.coefficient r.scale) else none
  | c :: rest, r =>
    if Digits.isDigit c then
      let next := 10 * r.coefficient + Digits.value c
      if bound ≤ next then
        if r.point then roundBy negative r.coefficient r.scale (c :: rest) else none
      else
        let scale := if r.point then r.scale + 1 else 0
        if r.point && greatestScale ≤ scale then roundBy negative next scale rest
        else readDigits negative rest ⟨next, scale, r.point, true⟩
    else if c = '.' ∧ !r.point then readDigits negative rest { r with point := true }
    else if c = '_' ∧ r.started then readDigits negative rest r
    else none

def ofPlainText? : List Char → Option ScaledDecimal
  | '-' :: s => readDigits true s ⟨0, 0, false, false⟩
  | '+' :: s => readDigits false s ⟨0, 0, false, false⟩
  | s => readDigits false s ⟨0, 0, false, false⟩

/-- Moves the point by an exponent, which may not itself be more than the places a number can hold.
    To the right, places that the number has are used up before its coefficient grows. To the left,
    places that it cannot hold are rounded away. -/
def shift? (d : ScaledDecimal) (exponent : List Char) : Option ScaledDecimal := do
  let unsigned (s : List Char) : Option Nat :=
    (Digits.toUnsigned? s).bind fun n => if n < 2 ^ 32 then some n else none
  match exponent with
  | '-' :: s =>
    let places ← unsigned s
    if greatestScale < places then none
    else
      let kept := d.roundTo (greatestScale - places)
      some { kept with scale := kept.scale + places }
  | s =>
    let places ← unsigned s
    if places ≤ d.scale then some { d with scale := d.scale - places }
    else if greatestScale < places then none
    else
      let coefficient := d.coefficient * 10 ^ (places - d.scale)
      if coefficient < bound then some (make d.negative coefficient 0) else none

def ofScientificText? (s : List Char) : Option ScaledDecimal :=
  let isMark (c : Char) : Bool := c == 'e' || c == 'E'
  match s.dropWhile fun c => !isMark c with
  | _ :: exponent => (ofPlainText? (s.takeWhile fun c => !isMark c)).bind (shift? · exponent)
  | [] => none

def ofText? (s : List Char) : Option ScaledDecimal :=
  (ofPlainText? s).or (ofScientificText? s)

/-- Halves the mantissa while it is even, and otherwise multiplies it by five, so that a negative
    power of two becomes one of ten. Where no room is left the last bit is given up. -/
def absorbHalves : Nat → Nat → Int → Nat × Int
  | 0, m, tens => (m, tens)
  | n + 1, m, tens =>
    if m % 2 = 0 then absorbHalves n (m / 2) (tens + 1)
    else if m * 5 < bound then absorbHalves n (m * 5) tens
    else absorbHalves n (m / 2) (tens + 1)

def absorbDoubles : Nat → Nat → Int → Nat × Int
  | 0, m, tens => (m, tens)
  | n + 1, m, tens =>
    if m < 2 ^ 95 then absorbDoubles n (m * 2) (tens - 1) else absorbDoubles n (m / 5) tens

/-- A tenth, a half rounded upwards. -/
def tenth (m : Nat) : Nat := m / 10 + (if 5 ≤ m % 10 then 1 else 0)

/-- Gives up places until at most 28 are left. -/
def capPlaces : Nat → Nat → Int → Nat × Int
  | 0, m, tens => (m, tens)
  | n + 1, m, tens =>
    if tens < -greatestScale then
      if m / 10 = 0 then (0, 0) else capPlaces n (tenth m) (tens + 1)
    else (m, tens)

/-- Gives up places that a double does not vouch for: its coefficient stays below 52 bits. -/
def capPrecision : Nat → Nat → Int → Nat × Int
  | 0, m, tens => (m, tens)
  | n + 1, m, tens =>
    if tens < 0 ∧ 2 ^ 52 ≤ m then capPrecision n (tenth m) (tens + 1) else (m, tens)

def dropZeros : Nat → Nat → Int → Nat × Int
  | 0, m, tens => (m, tens)
  | n + 1, m, tens =>
    if tens < 0 ∧ m % 10 = 0 then dropZeros n (m / 10) (tens + 1) else (m, tens)

/-- The decimal that stands for a finite double: about sixteen digits of it. -/
def ofBinary64? (x : Binary64) : Option ScaledDecimal :=
  if !x.isFinite then none
  else if x.isZero then some (make false 0 0)
  else
    let start :=
      if x.exponent < 0 then absorbHalves x.exponent.natAbs x.mantissa x.exponent
      else absorbDoubles x.exponent.natAbs x.mantissa x.exponent
    if 0 < start.2 then
      let coefficient := start.1 * 10 ^ start.2.toNat
      if coefficient < bound then some (make x.isNegative coefficient 0) else none
    else
      let capped := capPlaces start.2.natAbs start.1 start.2
      let precise := capPrecision 28 capped.1 capped.2
      let final := dropZeros 28 precise.1 precise.2
      some (make x.isNegative final.1 (-final.2).toNat)

/-- All places are written, zeros too. -/
def text (d : ScaledDecimal) : String :=
  let digits := (Digits.padded (d.scale + 1) d.coefficient).toList
  let whole := digits.take (digits.length - d.scale)
  let places := digits.drop (digits.length - d.scale)
  let sign := if d.negative then ['-'] else []
  String.ofList (sign ++ whole ++ (if places.isEmpty then [] else '.' :: places))

end ScaledDecimal
end StoreBridge
