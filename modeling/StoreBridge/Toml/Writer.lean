import StoreBridge.Entries
import StoreBridge.Number.Digits
import StoreBridge.Text.Hex
import StoreBridge.Toml.Basic

/-!
Writes TOML. A text is written in the first form that needs no escapes: in one line between double
or single quotes, then over several lines between three of them. Only a text that has none of
these forms is escaped.
-/
namespace StoreBridge.Toml
open Text

def needsEscape (c : Char) : Bool := !isPlain c && c != '\n'

def longestRun (c : Char) (s : List Char) : Nat :=
  let step (state : Nat × Nat) (d : Char) : Nat × Nat :=
    if d = c then (state.1 + 1, max state.2 (state.1 + 1)) else (0, state.2)
  (s.foldl step (0, 0)).2

inductive TextForm where
  | basic | literal | basicBlock | literalBlock
  deriving DecidableEq, Repr

namespace TextForm

def quote : TextForm → String
  | .basic => "\""
  | .literal => "'"
  | .basicBlock => "\"\"\""
  | .literalBlock => "'''"

def isBlock (form : TextForm) : Bool := form == .basicBlock || form == .literalBlock

def isLiteral (form : TextForm) : Bool := form == .literal || form == .literalBlock

def suits (form : TextForm) (s : List Char) : Bool :=
  !s.any needsEscape && (form.isBlock || !s.contains '\n') &&
    (form.isLiteral || !s.contains '\\') &&
    longestRun (if form.isLiteral then '\'' else '"') s ≤ (if form.isBlock then 2 else 0)

end TextForm

def escape (c : Char) : List Char :=
  if c = '\x08' then ['\\', 'b']
  else if c = '\t' then ['\\', 't']
  else if c = '\n' then ['\\', 'n']
  else if c = '\x0c' then ['\\', 'f']
  else if c = '\r' then ['\\', 'r']
  else if c = '"' then ['\\', '"']
  else if c = '\\' then ['\\', '\\']
  else if needsEscape c then ['\\', 'u'] ++ (Hex.ofNat 4 c.toNat).map Char.toUpper
  else [c]

/-- A text with escapes, which may hold `room` quotes in a row and, in a block, line ends.
    `quotes` counts the quotes in front. -/
def escapeAll (isBlock : Bool) (room quotes : Nat) : List Char → List Char
  | [] => []
  | '\n' :: rest => (if isBlock then ['\n'] else escape '\n') ++ escapeAll isBlock room 0 rest
  | '"' :: rest =>
    if quotes < room then '"' :: escapeAll isBlock room (quotes + 1) rest
    else escape '"' ++ escapeAll isBlock room 0 rest
  | c :: rest => escape c ++ escapeAll isBlock room 0 rest

/-- A text in a form. A block that holds a line end starts on a line of its own. -/
def TextForm.write (form : TextForm) (s : List Char) : String :=
  let start := if form.isBlock && s.contains '\n' then "\n" else ""
  let inner :=
    if form.isLiteral then s else escapeAll form.isBlock (if form.isBlock then 2 else 0) 0 s
  form.quote ++ start ++ String.ofList inner ++ form.quote

def quote (text : String) : String :=
  let s := text.toList
  let forms := [TextForm.basic, .literal, .basicBlock, .literalBlock]
  let escaped := if s.contains '\n' then TextForm.basicBlock else .basic
  ((forms.find? fun form => form.suits s).getD escaped).write s

def keyText (key : String) : String :=
  let s := key.toList
  if !s.isEmpty && s.all isBare then key
  else ((([TextForm.basic, .literal].find? fun form => form.suits s)).getD .basic).write s

mutual

/-- A value. An array of two items or more has each on a line of its own. -/
def valueText : Toml → String
  | .string s => quote s
  | .integer i => Digits.ofInt i
  | .float text => text
  | .boolean b => if b then "true" else "false"
  | .moment text => text
  | .array items =>
    match itemTexts items with
    | [] => "[]"
    | [item] => "[" ++ item ++ "]"
    | items => "[" ++ String.join (items.map fun item => "\n    " ++ item ++ ",") ++ "\n]"
  | .table [] => "\x7b\x7d"
  | .table fields => "\x7b " ++ String.intercalate ", " (fieldTexts fields) ++ " \x7d"

def itemTexts : List Toml → List String
  | [] => []
  | item :: rest => valueText item :: itemTexts rest

def fieldTexts : List (String × Toml) → List String
  | [] => []
  | (key, value) :: rest => (keyText key ++ " = " ++ valueText value) :: fieldTexts rest

end

def linesText (fields : Entries Toml) : String :=
  String.join ((fieldTexts fields).map fun line => line ++ "\n")

def documentText (top : Entries Toml) (sections : List (String × Entries Toml)) : String :=
  linesText top ++ String.join (sections.map fun s =>
    "\n[" ++ keyText s.1 ++ "]\n" ++ linesText s.2)

end StoreBridge.Toml
