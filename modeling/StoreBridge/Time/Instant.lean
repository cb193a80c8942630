import StoreBridge.Time.Calendar

/-!
Points in time: seconds from the start of 1970 and nanoseconds within the second. A leap second
continues the second before it, with nanoseconds of a billion and more.
-/
namespace StoreBridge

structure Instant where
  seconds : Int
  nanos : Nat
  deriving DecidableEq, Repr

namespace Instant

def billion : Nat := 1000000000

def date (t : Instant) : Date := Date.ofDays (t.seconds / 86400)

/-- Whole milliseconds since the start of 1970, earlier ones counted downwards. -/
def toMillis (t : Instant) : Int := t.seconds * 1000 + (t.nanos / 1000000 : Nat)

def ofMillis (ms : Int) : Instant := ⟨ms / 1000, (ms % 1000).toNat * 1000000⟩

def first : Instant := ⟨(Date.mk Date.leastYear 1 1).toDays * 86400, 0⟩
def last : Instant := ⟨((Date.mk Date.greatestYear 12 31).toDays + 1) * 86400 - 1, 999999999⟩

/-- Milliseconds beyond the calendar stand for its first or its last instant. -/
def clampMillis (ms : Int) : Instant :=
  if ms < first.toMillis then first
  else if last.toMillis < ms then last
  else ofMillis ms

def iso8601 (t : Instant) : String :=
  let secondOfDay := (t.seconds % 86400).toNat
  let leap := if billion ≤ t.nanos then 1 else 0
  let nanos := if billion ≤ t.nanos then t.nanos - billion else t.nanos
  t.date.text ++ "T" ++ Digits.padded 2 (secondOfDay / 3600) ++ ":" ++
    Digits.padded 2 (secondOfDay / 60 % 60) ++ ":" ++
    Digits.padded 2 (secondOfDay % 60 + leap) ++ "." ++ Digits.padded 3 (nanos / 1000000) ++ "Z"

end Instant
end StoreBridge
