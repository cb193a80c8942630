import StoreBridge.Proofs.Formula
import StoreBridge.Proofs.Sql.Lexeme
import StoreBridge.Sql.Predicate

/-!
SQL's grammar of conditions. NOT binds closer than AND and AND closer than OR, brackets come
first, and the AND of a BETWEEN belongs to it. A condition is read from lexemes whose placeholders
have been given the parameters that they stand for.
-/
namespace StoreBridge.Sql

/-- A test of one column against bound values, however it is written. -/
inductive FieldTest where
  | null (column : String) (negated : Bool)
  | compare (column : String) (comparison : Comparison) (operand : Value)
  | member (column : String) (negated : Bool) (items : List Value)
  | like (column : String) (caseless : Bool) (pattern : Value)
  | between (column : String) (low high : Value)
  deriving Repr

namespace Lexeme

/-- The parameter behind a placeholder: for a bare mark the next one, for a number the one that
    has it, where the first parameter has the number `start`. -/
def resolve (start : Nat) (parameters : List Value) (position : Nat) (text : String) :
    Option Value :=
  match text.toList with
  | ['?'] => parameters[position]?
  | '$' :: digits | '@' :: 'p' :: digits =>
    (Digits.toNat? digits).bind fun n => if start ≤ n then parameters[n - start]? else none
  | _ => none

def bound (start : Nat) (parameters : List Value) :
    Nat → List (Lexeme String) → Option (List (Lexeme Value))
  | _, [] => some []
  | position, .placeholder text :: rest =>
    (resolve start parameters position text).bind fun value =>
      (bound start parameters (position + 1) rest).map (.placeholder value :: ·)
  | position, .word text :: rest => (bound start parameters position rest).map (.word text :: ·)
  | position, .number text :: rest =>
    (bound start parameters position rest).map (.number text :: ·)
  | position, .symbol text :: rest =>
    (bound start parameters position rest).map (.symbol text :: ·)
  | position, .name text :: rest => (bound start parameters position rest).map (.name text :: ·)
  | position, .literal text :: rest =>
    (bound start parameters position rest).map (.literal text :: ·)

end Lexeme

namespace Grammar

abbrev Lexemes := List (Lexeme Value)

def comparison? : String → Option Comparison
  | "=" => some .eq
  | "!=" => some .ne
  | ">" => some .gt
  | ">=" => some .gte
  | "<" => some .lt
  | "<=" => some .lte
  | _ => none

def operands : Lexemes → Option (List Value × Lexemes)
  | .placeholder value :: .symbol ")" :: rest => some ([value], rest)
  | .placeholder value :: .symbol "," :: rest =>
    (operands rest).map fun (values, rest) => (value :: values, rest)
  | _ => none

def columnTest (column : String) : Lexemes → Option (FieldTest × Lexemes)
  | .word "IS" :: .word "NULL" :: rest => some (.null column false, rest)
  | .word "IS" :: .word "NOT" :: .word "NULL" :: rest => some (.null column true, rest)
  | .word "IN" :: .symbol "(" :: rest =>
    (operands rest).map fun (values, rest) => (.member column false values, rest)
  | .word "NOT" :: .word "IN" :: .symbol "(" :: rest =>
    (operands rest).map fun (values, rest) => (.member column true values, rest)
  | .word "LIKE" :: .placeholder pattern :: rest => some (.like column false pattern, rest)
  | .word "ILIKE" :: .placeholder pattern :: rest => some (.like column true pattern, rest)
  | .word "BETWEEN" :: .placeholder low :: .word "AND" :: .placeholder high :: rest =>
    some (.between column low high, rest)
  | .symbol "=" :: .word "ANY" :: .symbol "(" :: .placeholder (.array items) :: .symbol ")" ::
      rest => some (.member column false items, rest)
  | .symbol "!=" :: .word "ALL" :: .symbol "(" :: .placeholder (.array items) :: .symbol ")" ::
      rest => some (.member column true items, rest)
  | .symbol sign :: .placeholder operand :: rest =>
    (comparison? sign).map fun comparison => (.compare column comparison operand, rest)
  | _ => none

def primary : Lexemes → Option (Formula FieldTest × Lexemes)
  | .number "1" :: .symbol "=" :: .number "1" :: rest => some (.always true, rest)
  | .number "1" :: .symbol "=" :: .number "0" :: rest => some (.always false, rest)
  | .name column :: rest => (columnTest column rest).map fun (t, rest) => (.test t, rest)
  | .word "LOWER" :: .symbol "(" :: .name column :: .symbol ")" :: .word "LIKE" ::
      .word "LOWER" :: .symbol "(" :: .placeholder pattern :: .symbol ")" :: rest =>
    some (.test (.like column true pattern), rest)
  | _ => none

def joined (keyword : String) (join : Formula FieldTest → Formula FieldTest → Formula FieldTest)
    (next : Lexemes → Option (Formula FieldTest × Lexemes)) :
    Option (Formula FieldTest × Lexemes) → Option (Formula FieldTest × Lexemes)
  | some (left, .word text :: rest) =>
    if text = keyword then (next rest).map fun (right, rest) => (join left right, rest)
    else some (left, .word text :: rest)
  | read => read

mutual

def disjunction : Nat → Lexemes → Option (Formula FieldTest × Lexemes)
  | 0, _ => none
  | fuel + 1, lexemes => joined "OR" .or (disjunction fuel) (conjunction fuel lexemes)

def conjunction : Nat → Lexemes → Option (Formula FieldTest × Lexemes)
  | 0, _ => none
  | fuel + 1, lexemes => joined "AND" .and (conjunction fuel) (negation fuel lexemes)

def negation : Nat → Lexemes → Option (Formula FieldTest × Lexemes)
  | 0, _ => none
  | fuel + 1, .word "NOT" :: rest =>
    (negation fuel rest).map fun (inner, rest) => (.not inner, rest)
  | fuel + 1, .symbol "(" :: rest =>
    match disjunction fuel rest with
    | some (inner, .symbol ")" :: rest) => some (inner, rest)
    | _ => none
  | _ + 1, lexemes => primary lexemes

end

/-- The condition that lexemes write, if they write one and nothing else. Each lexeme is met by at
    most three of the rules above. -/
def condition (lexemes : Lexemes) : Option (Formula FieldTest) :=
  match disjunction (3 * lexemes.length + 2) lexemes with
  | some (formula, []) => some formula
  | _ => none

end Grammar

def conditionOfText (d : Dialect) (start : Nat) (text : String) (parameters : List Value) :
    Option (Formula FieldTest) :=
  (Lexeme.ofText d text).bind fun lexemes =>
    (Lexeme.bound start parameters 0 lexemes).bind Grammar.condition

end StoreBridge.Sql
