import StoreBridge.Number.Binary64

/-!
The fewest decimal digits that read back as the same double, and of those the ones nearest to
it. The double's decimal grids are tried from the coarsest on, in exact arithmetic. A double may
lie in the middle between two candidates; the writer says which of them it wants then.
-/
namespace StoreBridge.Shortest

/-- Where a value goes that lies in the middle between two neighbours. -/
inductive Tie where
  | toEven
  | toAway
  deriving DecidableEq, Repr

def Tie.isDown (tie : Tie) (below : Nat) : Bool :=
  match tie with
  | .toEven => below % 2 == 0
  | .toAway => false

/-- A positive fraction with its two bounds: what lies between them rounds to it, and the bounds
    themselves do when `closed`. All three have the denominator `den`. -/
structure Interval where
  low : Nat
  value : Nat
  high : Nat
  den : Nat
  closed : Bool

/-- The fractions that round to a positive finite double. Below a power of two the spacing
    halves. -/
def interval (x : Binary64) : Interval :=
  let m := x.mantissa
  let halved : Bool := x.fractionField == 0 && 1 < x.exponentField
  let scale := overPowerOfTwo 1 4 (-x.exponent)
  { low := (4 * m - (if halved then 1 else 2)) * scale.1
    value := 4 * m * scale.1
    high := (4 * m + 2) * scale.1
    den := scale.2
    closed := m % 2 == 0 }

def tenTo (power : Int) : Nat × Nat :=
  if 0 ≤ power then (10 ^ power.toNat, 1) else (1, 10 ^ (-power).toNat)

def atLeast (num den : Nat) (power : Int) : Bool :=
  let t := tenTo power
  t.1 * den ≤ num * t.2

def leadingPower (num den : Nat) : Int :=
  let guess : Int := (((num.log2 : Int) - den.log2) * 30103) / 100000
  if atLeast num den (guess + 1) then guess + 1
  else if atLeast num den guess then guess
  else guess - 1

def onGrid? (tie : Tie) (i : Interval) (power : Int) : Option Nat :=
  let t := tenTo power
  let unit := t.1 * i.den
  let value := i.value * t.2
  let low := i.low * t.2
  let high := i.high * t.2
  let below := value / unit
  let above := below + 1
  let lowHit : Bool :=
    if i.closed then low ≤ below * unit else decide (low < below * unit)
  let highHit : Bool :=
    if i.closed then above * unit ≤ high else decide (above * unit < high)
  if lowHit && highHit then
    let twice := 2 * (value - below * unit)
    some (if twice < unit || twice == unit && tie.isDown below then below else above)
  else if lowHit then some below
  else if highHit then some above
  else none

/-- Tries the grids with one digit more each time. Seventeen digits always have a hit. -/
def search (tie : Tie) (i : Interval) : Nat → Int → Nat × Int
  | 0, power => (i.value / i.den, power)
  | more + 1, power =>
    match onGrid? tie i power with
    | some multiple => (multiple, power)
    | none => search tie i more (power - 1)

def ofPositive (tie : Tie) (x : Binary64) : Nat × Int :=
  let i := interval x
  search tie i 17 (leadingPower i.value i.den)

def stripZeros : Nat → Nat → Int → Nat × Int
  | 0, n, power => (n, power)
  | fuel + 1, n, power =>
    if n % 10 = 0 ∧ n ≠ 0 then stripZeros fuel (n / 10) (power + 1) else (n, power)

/-- The digits as text, none of them a zero at the end, and the place of the point: the number of
    digits in front of it, negative where zeros follow it. -/
def digits (tie : Tie) (x : Binary64) : List Char × Int :=
  let found := ofPositive tie x
  let stripped := stripZeros 20 found.1 found.2
  let text := (Digits.ofNat stripped.1).toList
  (text, text.length + stripped.2)

end StoreBridge.Shortest
