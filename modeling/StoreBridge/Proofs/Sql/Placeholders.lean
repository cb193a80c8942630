import StoreBridge.Proofs.Sql.Grammar
import StoreBridge.Proofs.Sql.Legible
import StoreBridge.Proofs.Text.Numerals

/-!
Placeholders and the parameters behind them. The placeholders of a text are those of consecutive
numbers, and each stands for the parameter that its token carries.
-/
namespace StoreBridge.Sql
open Token

/-- What a token means once its parameter is known. -/
def Token.meant : Token → List (Lexeme Value)
  | .word text => [.word text]
  | .symbol text => [.symbol text]
  | .number text => [.number text]
  | .space => []
  | .name text => [.name text]
  | .literal text => [.literal text]
  | .parameter value => [.placeholder value]

namespace Lexeme

def placeholders (lexemes : List (Lexeme String)) : List String :=
  lexemes.filterMap fun
    | .placeholder text => some text
    | _ => none

def operands (lexemes : List (Lexeme Value)) : List Value :=
  lexemes.filterMap fun
    | .placeholder value => some value
    | _ => none

theorem resolve_placeholder {d : Dialect} {start position : Nat} {parameters : List Value}
    {value : Value} (there : parameters[position]? = some value) :
    resolve start parameters position (d.placeholder (start + position)) = some value := by
  cases d with
  | postgres | mssql =>
    simp [resolve, Dialect.placeholder, String.toList_append, Digits.toNat?_toDigits,
      there]
  | mysql | sqlite | document => simp [resolve, Dialect.placeholder, there]

theorem bound_lexemes (d : Dialect) (start : Nat) (before : List Value) (tokens : List Token) :
    bound start (before ++ parameters tokens) before.length
      (lexemes d (start + before.length) tokens) = some (tokens.flatMap Token.meant) := by
  -- What was passed before grows by a value with each placeholder.
  induction tokens generalizing before with
  | nil => rfl
  | cons token rest ih =>
    cases token with
    | parameter value =>
      have there : (before ++ parameters (.parameter value :: rest))[before.length]? =
          some value := by
        simp [parameters, parameter?]
      have moved : before ++ parameters (.parameter value :: rest) =
          (before ++ [value]) ++ parameters rest := by
        simp [parameters, parameter?]
      have later := ih (before ++ [value])
      rw [← moved, List.length_append, List.length_singleton] at later
      simp only [lexemes, lexeme, List.singleton_append, parameter?, Option.isSome_some, if_true,
        bound]
      rw [resolve_placeholder there, Nat.add_assoc]
      simp [later, meant]
    | word text | symbol text | number text | name text | literal text =>
      simp only [lexemes, lexeme, List.singleton_append, parameter?, Option.isSome_none, bound,
        List.flatMap_cons, meant]
      exact congrArg (Option.map _) (ih before)
    | space => exact ih before

theorem operands_meant (tokens : List Token) :
    operands (tokens.flatMap Token.meant) = Token.parameters tokens := by
  induction tokens with
  | nil => rfl
  | cons token rest ih =>
    cases token with
    | parameter value => exact congrArg (value :: ·) ih
    | _ => exact ih

theorem placeholders_lexemes (d : Dialect) (index : Nat) (tokens : List Token) :
    placeholders (lexemes d index tokens) =
      (List.range' index (Token.parameters tokens).length).map d.placeholder := by
  induction tokens generalizing index with
  | nil => rfl
  | cons token rest ih =>
    cases token with
    | parameter value =>
      have first : placeholders (lexemes d index (.parameter value :: rest)) =
          d.placeholder index :: placeholders (lexemes d (index + 1) rest) := rfl
      have counted : (Token.parameters (.parameter value :: rest)).length =
          (Token.parameters rest).length + 1 := rfl
      rw [first, counted, List.range'_succ, List.map_cons, ih]
    | _ => exact ih index

end Lexeme
end StoreBridge.Sql
