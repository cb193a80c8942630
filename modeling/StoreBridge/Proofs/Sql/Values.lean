import StoreBridge.Proofs.Sql.Masking

/-!
What the text of a statement shows of values. Of the operand of a test it is the outline: whether
it is null where the test is for equality, the flag of a test for existence, and the length of a
list of members. Of the values of a record it is nothing. All else is in the parameters, and the
text does not tell two requests apart that differ in them alone.
-/
namespace StoreBridge

def Operator.outline : Operator → Value → Value
  | .eq, value | .ne, value => if value.isNull then .null else .bool true
  | .isIn, .array items | .notIn, .array items => .array (items.map fun _ => .null)
  | .exists, .bool present => .bool present
  | .like, _ | .ilike, _ => .text ""
  | .between, _ => .array [.null, .null]
  | _, _ => .null

namespace Sql

namespace Token

def unvalued : Token → Token
  | .parameter _ => .parameter .null
  | other => other

theorem render_unvalued (d : Dialect) (index : Nat) (tokens : List Token) :
    render d index (tokens.map unvalued) = render d index tokens := by
  induction tokens generalizing index with
  | nil => rfl
  | cons token rest ih =>
    cases token with
    | parameter value => exact congrArg (_ ++ ·) (ih (index + 1))
    | _ => exact congrArg (_ ++ ·) (ih index)

theorem parameters_unvalued (tokens : List Token) :
    (parameters (tokens.map unvalued)).length = (parameters tokens).length := by
  induction tokens with
  | nil => rfl
  | cons token rest ih =>
    cases token with
    | parameter value => exact congrArg Nat.succ ih
    | _ => exact ih

end Token

open Token

namespace Clause
variable {d : Dialect}

theorem ofMembers_unvalued (field : String) (negated : Bool) (items : List Value) :
    (ofMembers d field negated items).Alike unvalued
      (ofMembers d field negated (items.map fun _ => .null)) := by
  unfold ofMembers
  rw [List.isEmpty_map]
  split
  · exact ⟨rfl, by simp⟩
  · split
    · exact ⟨rfl, .rfl⟩
    · refine ⟨?_, by simp⟩
      have members : List.Forall₂ (Token.Alike unvalued)
          ((items.map d.stored).map fun operand => [.parameter operand])
          (((items.map fun _ => Value.null).map d.stored).map fun operand =>
            [.parameter operand]) := by
        rw [List.map_map, List.map_map, List.map_map]
        exact alike_map fun item => rfl
      rw [Predicate.tokens, Predicate.tokens]
      exact alike_append rfl (alike_cons (alike_inParens (alike_listed members)))

theorem writes_unvalued {field : String} {op : Operator} {value : Value} {p : Predicate}
    (written : Writes d field op value p) :
    ∃ q, Writes d field op (op.outline value) q ∧ p.Alike unvalued q := by
  cases written with
  | isNull => exact ⟨_, .isNull, rfl, .rfl⟩
  | notNull => exact ⟨_, .notNull, rfl, .rfl⟩
  | eq some =>
    rw [Operator.outline, some]
    exact ⟨_, .eq rfl, rfl, by simp⟩
  | ne some =>
    rw [Operator.outline, some]
    exact ⟨_, .ne rfl, rfl, by simp⟩
  | gt value => exact ⟨_, .gt .null, rfl, by simp⟩
  | gte value => exact ⟨_, .gte .null, rfl, by simp⟩
  | lt value => exact ⟨_, .lt .null, rfl, by simp⟩
  | lte value => exact ⟨_, .lte .null, rfl, by simp⟩
  | isIn items => exact ⟨_, .isIn _, ofMembers_unvalued field false items⟩
  | notIn items => exact ⟨_, .notIn _, ofMembers_unvalued field true items⟩
  | like pattern => exact ⟨_, .like "", rfl, by simp⟩
  | ilike pattern => exact ⟨_, .ilike "", by cases d.hasCaselessLike <;> rfl, by simp⟩
  | between low high => exact ⟨_, .between .null .null, rfl, by simp⟩
  | present flag => exact ⟨_, .present flag, rfl, .rfl⟩

end Clause

/-- Hides all values: nothing is left of those of a record, and of operands their outlines. -/
def Mask.values : Mask where
  table text := text
  name text := text
  operand := Operator.outline
  value _ := .null
  token := Token.unvalued
  table_alike _ := rfl
  name_alike _ := rfl
  value_alike _ _ := rfl
  test_alike := Clause.writes_unvalued

namespace Statement

theorem sql_unvalued {s t : Statement} (dialect : s.dialect = t.dialect)
    (alike : Alike unvalued s.tokens t.tokens) :
    s.sql = t.sql ∧ s.parameters.length = t.parameters.length := by
  constructor
  · rw [sql, sql, textOf, textOf, ← render_unvalued, alike, render_unvalued, dialect]
  · rw [parameters, parameters, ← parameters_unvalued, alike, parameters_unvalued]

end Statement

/-- Requests that differ only in values have one text and the same number of parameters. -/
theorem Request.values_hidden {backend : Backend} {r₁ r₂ : Request} {s₁ s₂ : Statement}
    (same : Mask.values.request r₁ = Mask.values.request r₂)
    (built₁ : r₁.statement backend = .ok s₁) (built₂ : r₂.statement backend = .ok s₂) :
    s₁.sql = s₂.sql ∧ s₁.parameters.length = s₂.parameters.length := by
  have dialect : s₁.dialect = s₂.dialect :=
    (statement_dialect built₁).trans (statement_dialect built₂).symm
  exact Statement.sql_unvalued dialect (Mask.values.statements_alike same built₁ built₂)

/-- Text that looks like a statement, a list of texts for one of numbers, and a null in a record. -/
theorem Request.values_hidden_update :
    ∃ s₁ s₂, (Request.update "t" [("a", .null), ("b", .int 1)]
        [.operator "c" .isIn (.array [.int 1, .int 2]), .not [.leaf "d" (.text "'; DROP TABLE t")],
          .or [[.operator "e" .exists (.bool true)], [.operator "f" .notIn (.array [])]]]).statement
          .mysql = .ok s₁ ∧
      (Request.update "t" [("a", .text "b = ?"), ("b", .bool true)]
        [.operator "c" .isIn (.array [.text "x", .null]), .not [.leaf "d" (.int 0)],
          .or [[.operator "e" .exists (.bool true)], [.operator "f" .notIn (.array [])]]]).statement
          .mysql = .ok s₂ ∧
      s₁.sql = s₂.sql ∧ s₁.parameters.length = s₂.parameters.length := by
  have built₁ : (Request.update "t" [("a", .null), ("b", .int 1)]
      [.operator "c" .isIn (.array [.int 1, .int 2]), .not [.leaf "d" (.text "'; DROP TABLE t")],
        .or [[.operator "e" .exists (.bool true)], [.operator "f" .notIn (.array [])]]]).statement
        .mysql = .ok _ := rfl
  have built₂ : (Request.update "t" [("a", .text "b = ?"), ("b", .bool true)]
      [.operator "c" .isIn (.array [.text "x", .null]), .not [.leaf "d" (.int 0)],
        .or [[.operator "e" .exists (.bool true)], [.operator "f" .notIn (.array [])]]]).statement
        .mysql = .ok _ := rfl
  exact ⟨_, _, built₁, built₂, values_hidden (by rfl) built₁ built₂⟩

end Sql
end StoreBridge
