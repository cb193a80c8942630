import StoreBridge.Sql.Token

/-!
Predicates on a row, as a WHERE clause writes them. Each holds its operands, and its tokens hold
them in the order of the text. A clause is a list of predicates that must all hold; a clause
without predicates is written as one that is always true.
-/
namespace StoreBridge.Sql

inductive Comparison where
  | eq | ne | gt | gte | lt | lte
  deriving DecidableEq, Repr

def Comparison.symbol : Comparison → String
  | .eq => "="
  | .ne => "!="
  | .gt => ">"
  | .gte => ">="
  | .lt => "<"
  | .lte => "<="

inductive Joiner where
  | and | or
  deriving DecidableEq, Repr

def Joiner.keyword : Joiner → String
  | .and => "AND"
  | .or => "OR"

inductive PatternTest where
  /-- By letter case as the column's collation has it. -/
  | like
  /-- By the dialect's own test that ignores letter case. -/
  | caseless
  /-- With both sides in small letters. -/
  | lowered
  deriving DecidableEq, Repr

inductive Predicate where
  /-- A test of no column. -/
  | always (holds : Bool)
  | null (column : String) (negated : Bool)
  | compare (column : String) (comparison : Comparison) (operand : Value)
  /-- Membership in operands that are bound one by one. -/
  | among (column : String) (negated : Bool) (operands : List Value)
  /-- Membership in operands that are bound as one list. -/
  | inList (column : String) (negated : Bool) (operands : List Value)
  | matching (column : String) (test : PatternTest) (pattern : Value)
  | between (column : String) (low high : Value)
  | group (joiner : Joiner) (branches : List (List Predicate))
  | not (inner : List Predicate)
  deriving Inhabited, Repr

abbrev Clause := List Predicate

namespace Predicate
open Token

def constant (holds : Bool) : List Token :=
  [.number "1", .symbol "=", .number (if holds then "1" else "0")]

def conjoined (parts : List (List Token)) : List Token :=
  if parts.isEmpty then constant true else List.intercalate [.space, .word "AND", .space] parts

def matchingTokens (column : String) (pattern : Value) : PatternTest → List Token
  | .like => [.name column, .space, .word "LIKE", .space, .parameter pattern]
  | .caseless => [.name column, .space, .word "ILIKE", .space, .parameter pattern]
  | .lowered =>
    .word "LOWER" :: inParens [.name column] ++ [.space, .word "LIKE", .space, .word "LOWER"] ++
      inParens [.parameter pattern]

mutual

def tokens : Predicate → List Token
  | .always holds => constant holds
  | .null column negated =>
    .name column :: .space :: words (if negated then ["IS", "NOT", "NULL"] else ["IS", "NULL"])
  | .compare column comparison operand =>
    [.name column, .space, .symbol comparison.symbol, .space, .parameter operand]
  | .among column negated operands =>
    .name column :: .space :: words (if negated then ["NOT", "IN"] else ["IN"]) ++ .space ::
      inParens (listed (operands.map fun operand => [.parameter operand]))
  | .inList column negated operands =>
    [.name column, .space, .symbol (if negated then "!=" else "="), .space,
      .word (if negated then "ALL" else "ANY")] ++ inParens [.parameter (.array operands)]
  | .matching column test pattern => matchingTokens column pattern test
  | .between column low high =>
    [.name column, .space, .word "BETWEEN", .space, .parameter low, .space, .word "AND", .space,
      .parameter high]
  | .group joiner branches =>
    inParens (List.intercalate [.space, .word joiner.keyword, .space] (branchTokens branches))
  | .not inner => .word "NOT" :: .space :: inParens (conjoined (clauseTokens inner))

def clauseTokens : List Predicate → List (List Token)
  | [] => []
  | predicate :: rest => predicate.tokens :: clauseTokens rest

def branchTokens : List (List Predicate) → List (List Token)
  | [] => []
  | branch :: rest => inParens (conjoined (clauseTokens branch)) :: branchTokens rest

end

end Predicate

namespace Clause

def tokens (c : Clause) : List Token := Predicate.conjoined (Predicate.clauseTokens c)

/-- Whether the clause is written as one that is always true. -/
def matchesAll : Clause → Bool
  | [] => true
  | [.always true] => true
  | _ => false

/-- The clause behind its keyword; nothing where it would hold for every row. -/
def whereTokens (c : Clause) : List Token :=
  if c.matchesAll then [] else .space :: .word "WHERE" :: .space :: c.tokens

def parameters (c : Clause) : List Value := Token.parameters c.tokens

def text (c : Clause) (d : Dialect) (index : Nat) : String :=
  String.ofList (Token.render d index c.tokens)

def whereText (c : Clause) (d : Dialect) (index : Nat) : String :=
  String.ofList (Token.render d index c.whereTokens)

end Clause
end StoreBridge.Sql
