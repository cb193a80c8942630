import StoreBridge.Number.ScaledDecimal
import StoreBridge.Postgres.Bytes

/-!
Decimal numbers on the wire: groups of four digits around the point. The weight is the power of
ten thousand of the first group, and the scale counts the digits behind the point.
-/
namespace StoreBridge.Postgres.Numeric

/-- The digits of a number to the base ten thousand, highest first. -/
def groupsOf (n : Nat) : List Nat :=
  if n = 0 then [] else groupsOf (n / 10000) ++ [n % 10000]

def withoutZeros (groups : List Nat) : List Nat :=
  (groups.reverse.dropWhile fun g => g == 0).reverse

/-- Drops the zero groups behind the point, and keeps those in front of it. -/
def trimGroups (groups : List Nat) (weight : Int) : List Nat :=
  if weight < 0 then groups
  else
    let whole := (weight + 1).toNat
    groups.take whole ++ withoutZeros (groups.drop whole)

def positive : Nat := 0
def negative : Nat := 0x4000

def message (groups : List Nat) (weight : Int) (sign scale : Nat) : List UInt8 :=
  Bytes.ofNat 2 groups.length ++ Bytes.ofInt 2 weight ++ Bytes.ofNat 2 sign ++
    Bytes.ofNat 2 scale ++ groups.flatMap (Bytes.ofNat 2)

def encode (d : ScaledDecimal) : List UInt8 :=
  if d.coefficient = 0 then message [] 0 positive 0
  else
    let behind := (d.scale + 3) / 4
    let groups := groupsOf (d.coefficient * 10 ^ (4 * behind - d.scale))
    let weight : Int := groups.length - behind - 1
    message (trimGroups groups weight) weight (if d.negative then negative else positive) d.scale

def groups? : Nat → List UInt8 → Option (List Nat)
  | 0, _ => some []
  | count + 1, bytes => do
    let (group, rest) ← Bytes.unsigned? 2 bytes
    let groups ← groups? count rest
    some (group :: groups)

/-- Gives up digits at the end, the last of them rounded with a half upwards. -/
def round (coefficient : Nat) : Nat → Nat
  | 0 => coefficient
  | places + 1 =>
    let kept := coefficient / 10 ^ places
    kept / 10 + (if 5 ≤ kept % 10 then 1 else 0)

/-- Gives up places until the coefficient fits. -/
def fit? (negative : Bool) (coefficient : Nat) : Nat → Option ScaledDecimal
  | 0 =>
    if coefficient < ScaledDecimal.bound then some ⟨negative, coefficient, 0⟩ else none
  | scale + 1 =>
    if coefficient < ScaledDecimal.bound then some ⟨negative, coefficient, scale + 1⟩
    else fit? negative (round coefficient 1) scale

def ofGroups? (negative : Bool) (weight : Int) (scale : Nat) (groups : List Nat) :
    Option ScaledDecimal :=
  let coefficient := groups.foldl (fun n g => 10000 * n + g) 0
  let places : Int := 4 * (groups.length - 1 - weight)
  let scale := min scale ScaledDecimal.greatestScale
  let rounded :=
    if places ≤ scale then coefficient * 10 ^ (scale - places).toNat
    else round coefficient (places - scale).toNat
  fit? negative rounded scale

/-- What is no number, and what has too many digits, is refused. -/
def decode? (bytes : List UInt8) : Option ScaledDecimal := do
  let (count, rest) ← Bytes.unsigned? 2 bytes
  let (weight, rest) ← Bytes.signed? 2 rest
  let (sign, rest) ← Bytes.unsigned? 2 rest
  let (scale, rest) ← Bytes.unsigned? 2 rest
  let groups ← groups? count rest
  if sign = positive ∨ sign = negative then ofGroups? (sign == negative) weight scale groups
  else none

end StoreBridge.Postgres.Numeric
