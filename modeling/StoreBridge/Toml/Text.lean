import StoreBridge.Text.Hex
import StoreBridge.Toml.Basic

/-!
Reads the four kinds of quoted text: with escapes or literal, in one line or over several. A line
end is a newline here.
-/
namespace StoreBridge.Toml
open Text

def escaped? (c : Char) : Option Char :=
  if c = 'b' then some '\x08'
  else if c = 't' then some '\t'
  else if c = 'n' then some '\n'
  else if c = 'f' then some '\x0c'
  else if c = 'r' then some '\r'
  else if c = '"' then some '"'
  else if c = '\\' then some '\\'
  else none

/-- The character with a code point. Halves of a pair have none. -/
def codePoint? (digits : List Char) : Option Char :=
  (Hex.toNat? digits).bind fun n => if n.isValidChar then some (Char.ofNat n) else none

def textOf (done : List Char) : String := String.ofList done.reverse

/-- The rest of a line of text behind its opening quote; `done` is what was read, backwards. -/
def basic? : List Char → List Char → Option (String × List Char)
  | '"' :: rest, done => some (textOf done, rest)
  | '\\' :: 'u' :: a :: b :: c :: d :: rest, done =>
    match codePoint? [a, b, c, d] with
    | some char => basic? rest (char :: done)
    | none => none
  | '\\' :: 'U' :: a :: b :: c :: d :: e :: f :: g :: h :: rest, done =>
    match codePoint? [a, b, c, d, e, f, g, h] with
    | some char => basic? rest (char :: done)
    | none => none
  | '\\' :: c :: rest, done =>
    match escaped? c with
    | some char => basic? rest (char :: done)
    | none => none
  | c :: rest, done => if isPlain c && c != '\\' then basic? rest (c :: done) else none
  | [], _ => none

def literal? : List Char → List Char → Option (String × List Char)
  | '\'' :: rest, done => some (textOf done, rest)
  | c :: rest, done => if isPlain c then literal? rest (c :: done) else none
  | [], _ => none

/-- The end of a text over several lines, behind three quotes: two more may belong to the text. -/
def closed (quote : Char) (rest done : List Char) : String × List Char :=
  let extra := ((rest.take 2).takeWhile (· == quote)).length
  (textOf (List.replicate extra quote ++ done), rest.drop extra)

/-- What a backslash at the end of a line still takes away. -/
inductive Joint where
  | nothing
  /-- Blanks up to the end of the line, which must come. -/
  | toLineEnd
  /-- All blanks and line ends. -/
  | blanks
  deriving DecidableEq

def basicBlock? : Joint → List Char → List Char → Option (String × List Char)
  | .nothing, '\n' :: rest, done => basicBlock? .nothing rest ('\n' :: done)
  | _, '\n' :: rest, done => basicBlock? .blanks rest done
  | .toLineEnd, c :: rest, done => if isBlank c then basicBlock? .toLineEnd rest done else none
  | _, '"' :: '"' :: '"' :: rest, done => some (closed '"' rest done)
  | _, '\\' :: 'u' :: a :: b :: c :: d :: rest, done =>
    match codePoint? [a, b, c, d] with
    | some char => basicBlock? .nothing rest (char :: done)
    | none => none
  | _, '\\' :: 'U' :: a :: b :: c :: d :: e :: f :: g :: h :: rest, done =>
    match codePoint? [a, b, c, d, e, f, g, h] with
    | some char => basicBlock? .nothing rest (char :: done)
    | none => none
  | _, '\\' :: c :: rest, done =>
    match escaped? c with
    | some char => basicBlock? .nothing rest (char :: done)
    | none =>
      if c = '\n' then basicBlock? .blanks rest done
      else if isBlank c then basicBlock? .toLineEnd rest done
      else none
  | joint, c :: rest, done =>
    if joint = .blanks && isBlank c then basicBlock? .blanks rest done
    else if isPlain c && c != '\\' then basicBlock? .nothing rest (c :: done)
    else none
  | _, [], _ => none

def literalBlock? : List Char → List Char → Option (String × List Char)
  | '\'' :: '\'' :: '\'' :: rest, done => some (closed '\'' rest done)
  | c :: rest, done => if isPlain c || c == '\n' then literalBlock? rest (c :: done) else none
  | [], _ => none

/-- A newline behind three opening quotes is no part of the text. -/
def behindNewline : List Char → List Char
  | '\n' :: rest => rest
  | s => s

def quoted? : List Char → Option (String × List Char)
  | '"' :: rest => basic? rest []
  | '\'' :: rest => literal? rest []
  | _ => none

def text? : List Char → Option (String × List Char)
  | '"' :: '"' :: '"' :: rest => basicBlock? .nothing (behindNewline rest) []
  | '\'' :: '\'' :: '\'' :: rest => literalBlock? (behindNewline rest) []
  | s => quoted? s

end StoreBridge.Toml
