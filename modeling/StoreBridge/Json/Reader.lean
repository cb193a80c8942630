import StoreBridge.Json.Basic
import StoreBridge.Text.Hex

/-!
Reads JSON text. Nesting is limited, a control character must be escaped, an escaped surrogate
needs its other half, and a number must be finite. A repeated name in an object keeps its first
place and takes its last value.
-/
namespace StoreBridge.Json.Reader
open Text

def nestingLimit : Nat := 128

def isSpace (c : Char) : Bool := c == ' ' || c == '\n' || c == '\t' || c == '\r'

def skipSpace (s : List Char) : List Char := s.dropWhile isSpace

/-- Digits of a number: those that fit into 64 bits, and the power of ten that the others and the
    point leave. -/
structure Significand where
  value : Nat
  power : Int
  full : Bool

namespace Significand

def empty : Significand := ⟨0, 0, false⟩

/-- A digit in front of the point. Once one does not fit, all others only count. -/
def pushWhole (s : Significand) (c : Char) : Significand :=
  let next := 10 * s.value + Digits.value c
  if s.full || 2 ^ 64 ≤ next then { s with power := s.power + 1, full := true }
  else { s with value := next }

/-- A digit behind the point. Once one does not fit, the others do not count. -/
def pushFraction (s : Significand) (c : Char) : Significand :=
  let next := 10 * s.value + Digits.value c
  if s.full || 2 ^ 64 ≤ next then { s with full := true }
  else { s with value := next, power := s.power - 1 }

/-- The digits are rounded first, and their power of ten is applied in a second rounding. -/
def toFloat? (s : Significand) (negative : Bool) (power : Int) : Option Json := do
  let size ← (Binary64.ofRatio false s.value 1).scaleTen? (s.power + power)
  some (.float (if negative then size.negate else size))

end Significand

/-- The digits in front of the point; a zero stands alone. -/
def whole? (s : List Char) : Option (List Char × List Char) :=
  let (digits, rest) := Digits.split s
  match digits with
  | [] => none
  | '0' :: _ :: _ => none
  | digits => some (digits, rest)

def exponent? (s : List Char) : Option (Int × List Char) :=
  let (negative, s) := match s with
    | '-' :: s => (true, s)
    | '+' :: s => (false, s)
    | s => (false, s)
  let (digits, rest) := Digits.split s
  if digits.isEmpty then none
  else
    let size : Int := Digits.toNat digits
    some (if negative then -size else size, rest)

def unsigned? (negative : Bool) (s : List Char) : Option (Json × List Char) := do
  let (digits, rest) ← whole? s
  let whole := digits.foldl Significand.pushWhole Significand.empty
  let (fraction, afterPoint) ← match rest with
    | '.' :: rest =>
      let (digits, rest) := Digits.split rest
      if digits.isEmpty then none else some (digits, rest)
    | rest => some ([], rest)
  let significand := fraction.foldl Significand.pushFraction { whole with full := false }
  match afterPoint with
  | c :: rest =>
    if c = 'e' ∨ c = 'E' then
      let (power, rest) ← exponent? rest
      let number ← significand.toFloat? negative power
      some (number, rest)
    else close whole significand fraction afterPoint
  | [] => close whole significand fraction []
where
  close (whole significand : Significand) (fraction rest : List Char) :
      Option (Json × List Char) := do
    if !fraction.isEmpty || whole.full then
      let number ← significand.toFloat? negative 0
      some (number, rest)
    else if !negative then some (.integer whole.value, rest)
    else if whole.value = 0 || 2 ^ 63 < whole.value then
      let number ← whole.toFloat? true 0
      some (number, rest)
    else some (.integer (-(whole.value : Int)), rest)

def number? : List Char → Option (Json × List Char)
  | '-' :: s => unsigned? true s
  | s => unsigned? false s

def codeUnit? (a b c d : Char) : Option Nat := Hex.toNat? [a, b, c, d]

/-- The rest of a string behind its opening quote; `done` is what was read, backwards. -/
def string? : List Char → List Char → Option (String × List Char)
  | '"' :: rest, done => some (String.ofList done.reverse, rest)
  | '\\' :: 'u' :: a :: b :: c :: d :: rest, done =>
    match codeUnit? a b c d with
    | none => none
    | some unit =>
      if 0xD800 ≤ unit ∧ unit ≤ 0xDBFF then
        match rest with
        | '\\' :: 'u' :: e :: f :: g :: h :: rest =>
          match codeUnit? e f g h with
          | none => none
          | some low =>
            if 0xDC00 ≤ low ∧ low ≤ 0xDFFF then
              let code := 0x10000 + (unit - 0xD800) * 0x400 + (low - 0xDC00)
              string? rest (Char.ofNat code :: done)
            else none
        | _ => none
      else if 0xDC00 ≤ unit ∧ unit ≤ 0xDFFF then none
      else string? rest (Char.ofNat unit :: done)
  | '\\' :: c :: rest, done =>
    if c = '"' ∨ c = '\\' ∨ c = '/' then string? rest (c :: done)
    else if c = 'b' then string? rest ('\x08' :: done)
    else if c = 'f' then string? rest ('\x0c' :: done)
    else if c = 'n' then string? rest ('\n' :: done)
    else if c = 'r' then string? rest ('\r' :: done)
    else if c = 't' then string? rest ('\t' :: done)
    else none
  | c :: rest, done => if c.toNat < 0x20 ∨ c = '\\' then none else string? rest (c :: done)
  | [], _ => none

def word? (word : String) (s : List Char) : Option (List Char) :=
  if word.toList.isPrefixOf s then some (s.drop word.length) else none

mutual

/-- A value, with blanks in front of it. `depth` is how deep it may be nested, and `fuel` exceeds
    the number of steps that the text allows. -/
def value? (fuel depth : Nat) (s : List Char) : Option (Json × List Char) :=
  match fuel with
  | 0 => none
  | fuel + 1 =>
    match skipSpace s with
    | '"' :: rest => (string? rest []).map fun r => (.string r.1, r.2)
    | '[' :: rest =>
      if depth ≤ 1 then none
      else
        match skipSpace rest with
        | ']' :: rest => some (.array [], rest)
        | rest => (items? fuel (depth - 1) rest).map fun r => (.array r.1, r.2)
    | '\x7b' :: rest =>
      if depth ≤ 1 then none
      else
        match skipSpace rest with
        | '\x7d' :: rest => some (.object [], rest)
        | rest => (fields? fuel (depth - 1) rest).map fun r => (.object (Entries.ofList r.1), r.2)
    | 'n' :: rest => (word? "ull" rest).map fun r => (.null, r)
    | 't' :: rest => (word? "rue" rest).map fun r => (.bool true, r)
    | 'f' :: rest => (word? "alse" rest).map fun r => (.bool false, r)
    | s => number? s

def items? (fuel depth : Nat) (s : List Char) : Option (List Json × List Char) :=
  match fuel with
  | 0 => none
  | fuel + 1 =>
    match value? fuel depth s with
    | none => none
    | some (item, rest) =>
      match skipSpace rest with
      | ',' :: rest => (items? fuel depth rest).map fun r => (item :: r.1, r.2)
      | ']' :: rest => some ([item], rest)
      | _ => none

def fields? (fuel depth : Nat) (s : List Char) : Option (List (String × Json) × List Char) :=
  match fuel with
  | 0 => none
  | fuel + 1 =>
    match skipSpace s with
    | '"' :: rest =>
      match string? rest [] with
      | none => none
      | some (key, rest) =>
        match skipSpace rest with
        | ':' :: rest =>
          match value? fuel depth rest with
          | none => none
          | some (value, rest) =>
            match skipSpace rest with
            | ',' :: rest => (fields? fuel depth rest).map fun r => ((key, value) :: r.1, r.2)
            | '\x7d' :: rest => some ([(key, value)], rest)
            | _ => none
        | _ => none
    | _ => none

end

end Reader

/-- The one value of a text whose values are nested less than `depth` deep. -/
def ofTextWithin? (depth : Nat) (s : List Char) : Option Json :=
  match Reader.value? (2 * s.length + 2) depth s with
  | some (value, rest) => if (Reader.skipSpace rest).isEmpty then some value else none
  | none => none

def ofText? (s : String) : Option Json := ofTextWithin? Reader.nestingLimit s.toList

end StoreBridge.Json
