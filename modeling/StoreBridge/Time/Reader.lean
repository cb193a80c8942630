import StoreBridge.Time.Instant

/-!
Dates, times of day and timestamps as people write them: numbers may lack their leading zeros, and
blanks may stand in front of a number and around a separator. A reader returns what it read and
the text behind it; the whole text has to be used up in the end.
-/
namespace StoreBridge

/-- A time of day: seconds since midnight, and nanoseconds, of a billion and more in a leap
    second. -/
structure TimeOfDay where
  seconds : Nat
  nanos : Nat
  deriving DecidableEq, Repr

namespace TimeReader
open Text

def number? (width : Nat) (s : List Char) : Option (Nat × List Char) :=
  let digits := (s.take width).takeWhile Digits.isDigit
  if digits.isEmpty then none else some (Digits.toNat digits, s.drop digits.length)

def field? (least greatest : Nat) (s : List Char) : Option (Nat × List Char) := do
  let (n, rest) ← number? 2 (dropBlanks s)
  if least ≤ n ∧ n ≤ greatest then some (n, rest) else none

def literal? (c : Char) : List Char → Option (List Char)
  | first :: rest => if first = c then some rest else none
  | [] => none

def separator? (c : Char) (s : List Char) : Option (List Char) := literal? c (dropBlanks s)

/-- A year has four digits at most, or any number of them behind a sign. -/
def year? (s : List Char) : Option (Int × List Char) :=
  match dropBlanks s with
  | '-' :: rest => (number? rest.length rest).map fun r => (-(r.1 : Int), r.2)
  | '+' :: rest => (number? rest.length rest).map fun r => ((r.1 : Int), r.2)
  | rest => (number? 4 rest).map fun r => ((r.1 : Int), r.2)

def date? (s : List Char) : Option (Date × List Char) := do
  let (year, s) ← year? s
  let s ← separator? '-' s
  let (month, s) ← field? 1 12 s
  let s ← separator? '-' s
  let (day, s) ← field? 1 31 s
  let date : Date := ⟨year, month, day⟩
  if date.isValid then some (date, s) else none

/-- A point and digits after it; those behind the ninth do not count. -/
def fraction? : List Char → Option (Nat × List Char)
  | '.' :: s => do
    let digits := (s.take 9).takeWhile Digits.isDigit
    if digits.isEmpty then none
    else
      let nanos := Digits.toNat digits * 10 ^ (9 - digits.length)
      some (nanos, (s.drop digits.length).dropWhile Digits.isDigit)
  | s => some (0, s)

def time (hour minute second nanos : Nat) : TimeOfDay :=
  if second = 60 then ⟨hour * 3600 + minute * 60 + 59, Instant.billion + nanos⟩
  else ⟨hour * 3600 + minute * 60 + second, nanos⟩

def seconds? (s : List Char) : Option (Nat × Nat × List Char) := do
  let s ← separator? ':' s
  let (second, s) ← field? 0 60 s
  let (nanos, s) ← fraction? s
  some (second, nanos, s)

def hourAndMinute? (s : List Char) : Option (Nat × Nat × List Char) := do
  let (hour, s) ← field? 0 23 s
  let s ← separator? ':' s
  let (minute, s) ← field? 0 59 s
  some (hour, minute, s)

def fullTime? (s : List Char) : Option (TimeOfDay × List Char) := do
  let (hour, minute, s) ← hourAndMinute? s
  let (second, nanos, s) ← seconds? s
  some (time hour minute second nanos, s)

def finished (s : List Char) : Bool := (dropBlanks s).isEmpty

/-- A distance from UTC in seconds. Colons and blanks may stand between its two numbers. -/
def offset? (s : List Char) : Option (Int × List Char) :=
  let east (s : List Char) : Option (Nat × List Char) :=
    match s with
    | a :: b :: s =>
      if !(Digits.isDigit a && Digits.isDigit b) then none
      else
        match s.dropWhile fun c => c == ':' || isBlank c with
        | c :: d :: s =>
          if !(Digits.isDigit c && Digits.isDigit d) then none
          else
            let hours := Digits.toNat [a, b]
            let minutes := Digits.toNat [c, d]
            if 60 ≤ minutes ∨ 24 ≤ hours then none else some (hours * 3600 + minutes * 60, s)
        | _ => none
    | _ => none
  match s with
  | 'Z' :: s => some (0, s)
  | 'z' :: s => some (0, s)
  | '+' :: s => (east s).map fun r => ((r.1 : Int), r.2)
  | '-' :: s => (east s).map fun r => (-(r.1 : Int), r.2)
  | '−' :: s => (east s).map fun r => (-(r.1 : Int), r.2)
  | _ => none

def zone? (s : List Char) : Option (Int × List Char) :=
  if (s.take 3).map Char.toUpper = ['U', 'T', 'C'] then some (0, s.drop 3) else offset? s

end TimeReader

open TimeReader

/-- A date, `2024-02-09`. -/
def Date.ofText? (s : List Char) : Option Date := do
  let (date, s) ← date? s
  if finished s then some date else none

namespace TimeOfDay

/-- A time of day, `12:30` or `12:30:45.5`. -/
def ofText? (s : List Char) : Option TimeOfDay := do
  let (hour, minute, s) ← hourAndMinute? s
  match seconds? s with
  | some (second, nanos, s) => if finished s then some (time hour minute second nanos) else none
  | none => if finished s then some (time hour minute 0 0) else none

/-- Hours, minutes and seconds, with three, six or nine places where they are needed. -/
def text (t : TimeOfDay) : String :=
  let leap := if Instant.billion ≤ t.nanos then 1 else 0
  let nanos := t.nanos % Instant.billion
  let fraction :=
    if nanos = 0 then ""
    else if nanos % 1000000 = 0 then "." ++ Digits.padded 3 (nanos / 1000000)
    else if nanos % 1000 = 0 then "." ++ Digits.padded 6 (nanos / 1000)
    else "." ++ Digits.padded 9 nanos
  Digits.padded 2 (t.seconds / 3600) ++ ":" ++ Digits.padded 2 (t.seconds / 60 % 60) ++ ":" ++
    Digits.padded 2 (t.seconds % 60 + leap) ++ fraction

end TimeOfDay

namespace Instant

def ofDateAndTime (d : Date) (t : TimeOfDay) : Instant :=
  ⟨d.toDays * 86400 + t.seconds, t.nanos⟩

def ofPlainText? (s : List Char) : Option Instant := do
  let (date, s) ← date? s
  let s ← separator? 'T' s
  let (time, s) ← fullTime? s
  if finished s then some (ofDateAndTime date time) else none

/-- Date, time of day and distance from UTC. A blank may stand for the T. -/
def ofZonedText? (s : List Char) : Option Instant := do
  let (date, s) ← date? s
  let s ← match s with
    | 'T' :: s => some s
    | 't' :: s => some s
    | ' ' :: s => some s
    | _ => none
  let (time, s) ← fullTime? s
  let (offset, s) ← zone? (Text.dropBlanks s)
  let there := ofDateAndTime date time
  let instant : Instant := ⟨there.seconds - offset, there.nanos⟩
  if finished s ∧ instant.date.isValid then some instant else none

end Instant
end StoreBridge
