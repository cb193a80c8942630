import StoreBridge.Text.Hex
import StoreBridge.Time.Calendar
import StoreBridge.Toml.Basic

/-!
Values that are one word: numbers, booleans, dates and times of day. A word ends where none of
its characters follows, so it is read as a whole.
-/
namespace StoreBridge.Toml
open Text

def isWordChar (c : Char) : Bool := isBare c || c == '+' || c == '.' || c == ':'

/-- Digits, with single underscores between them; the digits alone are returned. -/
def parted? (isDigit : Char → Bool) : List Char → Option (List Char)
  | [] => none
  | [c] => if isDigit c then some [c] else none
  | c :: '_' :: rest => if isDigit c then (parted? isDigit rest).map (c :: ·) else none
  | c :: rest => if isDigit c then (parted? isDigit rest).map (c :: ·) else none

/-- Decimal digits without a zero in front. -/
def wholeDigits? (s : List Char) : Option (List Char) :=
  match parted? Digits.isDigit s with
  | some ('0' :: _ :: _) => none
  | digits => digits

def inBase (base : Nat) (digits : List Char) : Nat :=
  digits.foldl (fun n c => base * n + (Hex.value? c).getD 0) 0

def isDigitOf (base : Nat) (c : Char) : Bool :=
  match Hex.value? c with
  | some n => n < base
  | none => false

def fits (i : Int) : Option Toml := if Digits.inInt64 i then some (.integer i) else none

def based? (base : Nat) (s : List Char) : Option Toml :=
  (parted? (isDigitOf base) s).bind fun digits => fits (inBase base digits)

def sign : List Char → Bool × List Char
  | '-' :: rest => (true, rest)
  | '+' :: rest => (false, rest)
  | s => (false, s)

/-- A whole number of 64 bits. Other bases than ten have a mark in front and no sign. -/
def integer? : List Char → Option Toml
  | '0' :: 'x' :: rest => based? 16 rest
  | '0' :: 'o' :: rest => based? 8 rest
  | '0' :: 'b' :: rest => based? 2 rest
  | s =>
    let (negative, s) := sign s
    (wholeDigits? s).bind fun digits =>
      let size : Int := Digits.toNat digits
      fits (if negative then -size else size)

/-- Whether a decimal number is beyond the doubles: it is at least the greatest one and half a
    unit of its last place. -/
def isHuge (digits : Nat) (power : Int) : Bool :=
  let limit := 2 ^ 1024 - 2 ^ 970
  let length : Int := (Digits.ofNat digits).length
  if digits = 0 ∨ length + power < 300 then false
  else if 320 < length + power then true
  else limit * 10 ^ (-power).toNat ≤ digits * 10 ^ power.toNat

def power? : List Char → Option Int
  | [] => some 0
  | c :: rest =>
    if c = 'e' ∨ c = 'E' then
      let (negative, rest) := sign rest
      (parted? Digits.isDigit rest).map fun digits =>
        let size : Int := Digits.toNat digits
        if negative then -size else size
    else none

def isFloat (word : List Char) : Bool :=
  let (negative, s) := sign word
  if s = ['i', 'n', 'f'] ∨ s = ['n', 'a', 'n'] then true
  else
    let isPart (c : Char) : Bool := Digits.isDigit c || c == '_'
    let finite (whole fraction : List Char) (power : Int) : Bool :=
      negative || !isHuge (Digits.toNat (whole ++ fraction)) (power - fraction.length)
    match wholeDigits? (s.takeWhile isPart), s.dropWhile isPart with
    | some whole, '.' :: rest =>
      match parted? Digits.isDigit (rest.takeWhile isPart), power? (rest.dropWhile isPart) with
      | some fraction, some power => finite whole fraction power
      | _, _ => false
    | some whole, c :: rest =>
      match power? (c :: rest) with
      | some power => finite whole [] power
      | none => false
    | _, _ => false

def twoDigits? (greatest : Nat) : List Char → Option (Nat × List Char)
  | a :: b :: rest =>
    let n := Digits.toNat [a, b]
    if Digits.isDigit a && Digits.isDigit b && n ≤ greatest then some (n, rest) else none
  | _ => none

def mark? (c : Char) : List Char → Option (List Char)
  | first :: rest => if first = c then some rest else none
  | [] => none

/-- What follows a date that the calendar has. -/
def behindDate? : List Char → Option (List Char)
  | a :: b :: c :: d :: '-' :: rest => do
    let (month, rest) ← twoDigits? 12 rest
    let rest ← mark? '-' rest
    let (day, rest) ← twoDigits? 31 rest
    let date : Date := ⟨Digits.toNat [a, b, c, d], month, day⟩
    if [a, b, c, d].all Digits.isDigit && date.isValid then some rest else none
  | _ => none

def behindTime? (s : List Char) : Option (List Char) := do
  let (_, s) ← twoDigits? 23 s
  let s ← mark? ':' s
  let (_, s) ← twoDigits? 59 s
  let s ← mark? ':' s
  let (_, s) ← twoDigits? 60 s
  match s with
  | '.' :: rest =>
    if (rest.takeWhile Digits.isDigit).isEmpty then none
    else some (rest.dropWhile Digits.isDigit)
  | s => some s

def isOffset : List Char → Bool
  | [] => true
  | ['Z'] => true
  | ['z'] => true
  | c :: rest =>
    let distance := do
      let (_, rest) ← twoDigits? 23 rest
      let rest ← mark? ':' rest
      let (_, rest) ← twoDigits? 59 rest
      some rest
    (c == '+' || c == '-') && distance == some []

def isTimeOfDate (s : List Char) : Bool :=
  match behindTime? s with
  | some rest => isOffset rest
  | none => false

def isMoment (word : List Char) : Bool :=
  match behindDate? word with
  | some [] => true
  | some (c :: rest) => (c == 'T' || c == 't') && isTimeOfDate rest
  | none => behindTime? word == some []

def word? (word : List Char) : Option Toml :=
  if word = ['t', 'r', 'u', 'e'] then some (.boolean true)
  else if word = ['f', 'a', 'l', 's', 'e'] then some (.boolean false)
  else if isMoment word then some (.moment (String.ofList word))
  else if isFloat word then some (.float (String.ofList word))
  else integer? word

/-- A value of one word. A blank may part a date from its time. -/
def scalar? (s : List Char) : Option (Toml × List Char) :=
  let word := s.takeWhile isWordChar
  let rest := s.dropWhile isWordChar
  match behindDate? word, rest with
  | some [], ' ' :: later =>
    let time := later.takeWhile isWordChar
    if time.isEmpty then some (.moment (String.ofList word), rest)
    else if isTimeOfDate time then
      some (.moment (String.ofList (word ++ ' ' :: time)), later.dropWhile isWordChar)
    else none
  | _, _ => (word? word).map fun value => (value, rest)

end StoreBridge.Toml
