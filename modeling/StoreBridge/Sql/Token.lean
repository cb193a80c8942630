import StoreBridge.Backend
import StoreBridge.Value

/-!
SQL statements as lists of tokens. A parameter is a token that carries its value, so the values of
a statement are those of its parameters in order, and the text numbers the same tokens in the same
order. Names and literals carry the text that they stand for, and only writing quotes them.
-/
namespace StoreBridge.Sql

inductive Token where
  /-- A keyword, the name of a function, or the name of a type without its length. -/
  | word (text : String)
  /-- An operator or a punctuation mark. -/
  | symbol (text : String)
  | number (text : String)
  | space
  /-- A quoted name. -/
  | name (text : String)
  /-- Text between single quotes. -/
  | literal (text : String)
  | parameter (value : Value)
  deriving Inhabited, Repr

namespace Token

/-- Literals end at a single quote, so a quote inside is doubled. Where a backslash escapes, it is
    doubled too. -/
def escapes : Dialect → Char → Bool
  | .mysql, c => c == '\'' || c == '\\'
  | _, c => c == '\''

def literalBody (d : Dialect) : List Char → List Char
  | [] => []
  | c :: rest => if escapes d c then c :: c :: literalBody d rest else c :: literalBody d rest

/-- A token's text. The index is the number of the parameters before it, plus the first index. -/
def chars (d : Dialect) (index : Nat) : Token → List Char
  | .word text => text.toList
  | .symbol text => text.toList
  | .number text => text.toList
  | .space => [' ']
  | .name text => (d.quoteName text).toList
  | .literal text => '\'' :: literalBody d text.toList ++ ['\'']
  | .parameter _ => (d.placeholder index).toList

def parameter? : Token → Option Value
  | .parameter value => some value
  | _ => none

def parameters (tokens : List Token) : List Value := tokens.filterMap parameter?

/-- The text of tokens, with parameters numbered from `index` on. -/
def render (d : Dialect) : Nat → List Token → List Char
  | _, [] => []
  | index, token :: rest =>
    token.chars d index ++ render d (if token.parameter?.isSome then index + 1 else index) rest

theorem parameters_append (before after : List Token) :
    parameters (before ++ after) = parameters before ++ parameters after :=
  List.filterMap_append

theorem render_append (d : Dialect) (index : Nat) (before after : List Token) :
    render d index (before ++ after) =
      render d index before ++ render d (index + (parameters before).length) after := by
  induction before generalizing index with
  | nil => simp [render, parameters]
  | cons token rest ih =>
    cases h : token.parameter? <;>
      simp [render, parameters, h, ih, Nat.add_assoc, Nat.add_comm 1]

def words (texts : List String) : List Token :=
  List.intercalate [.space] (texts.map fun text => [.word text])

def spaced (parts : List (List Token)) : List Token := List.intercalate [.space] parts

def listed (parts : List (List Token)) : List Token :=
  List.intercalate [.symbol ",", .space] parts

def inParens (tokens : List Token) : List Token := .symbol "(" :: tokens ++ [.symbol ")"]

def names (texts : List String) : List Token := listed (texts.map fun text => [.name text])

def splitDots : List Char → List (List Char)
  | [] => [[]]
  | c :: rest =>
    match splitDots rest with
    | [] => [[c]]
    | part :: parts => if c = '.' then [] :: part :: parts else (c :: part) :: parts

/-- A table, each part between dots quoted alone. -/
def table (text : String) : List Token :=
  List.intercalate [.symbol "."]
    ((splitDots text.toList).map fun part => [.name (String.ofList part)])

end Token

def textOf (d : Dialect) (tokens : List Token) : String := String.ofList (Token.render d 1 tokens)

end StoreBridge.Sql
