import StoreBridge.Proofs.Document.Compilation
import StoreBridge.Proofs.Sql.Operands
import StoreBridge.Proofs.Sql.StatementText

/-!
When a filter leaves no trace. A statement without WHERE and an empty query reach everything, and
both come only from a filter that asks for nothing: whatever the names and the nesting, a condition
that tests something is written.
-/
namespace StoreBridge

/-- Whether a condition asks nothing by itself. Being outside an empty list is such a condition,
    except where the list is bound as one parameter. -/
def Condition.Idle (d : Dialect) : Condition → Prop
  | .leaf _ _ | .not _ => False
  | .operator _ op value => op = .notIn ∧ value = .array [] ∧ d.bindsLists = false
  | .and _ | .or _ => True

/-- Whether a condition only combines others. -/
def Condition.Combines : Condition → Prop
  | .and _ | .or _ => True
  | _ => False

namespace Sql

def HasWhere (d : Dialect) (text : String) : Prop :=
  ∃ lexemes, Lexeme.ofText d text = some lexemes ∧ Lexeme.word "WHERE" ∈ lexemes

theorem not_hasWhere {d : Dialect} {text : String} {lexemes : List (Lexeme String)}
    (read : Lexeme.ofText d text = some lexemes) (absent : Lexeme.word "WHERE" ∉ lexemes) :
    ¬HasWhere d text := by
  rintro ⟨others, same, mem⟩
  rw [read, Option.some.injEq] at same
  exact absent (same ▸ mem)

structure Unfiltered (d : Dialect) (filter : Filter) : Prop where
  idle : ∀ condition ∈ Filter.nested filter, condition.Idle d
  unbound : ∃ clause, Clause.ofFilter d filter = .ok clause ∧ clause.parameters = []

namespace Clause
variable {d : Dialect}

theorem writes_always {field : String} {op : Operator} {value : Value}
    (written : Writes d field op value (.always true)) :
    op = .notIn ∧ value = .array [] ∧ d.bindsLists = false := by
  have members {negated : Bool} {items : List Value}
      (made : ofMembers d field negated items = .always true) :
      negated = true ∧ items = [] ∧ d.bindsLists = false := by
    unfold ofMembers at made
    split at made
    · simp at made
    · rename_i single
      split at made
      · rename_i empty
        simp only [Predicate.always.injEq] at made
        exact ⟨made, List.isEmpty_iff.mp empty, by simpa using single⟩
      · simp at made
  generalize same : Predicate.always true = p at written
  cases written with
  | isIn items => exact absurd (members same.symm).1 (by simp)
  | notIn items =>
    obtain ⟨_, rfl, single⟩ := members same.symm
    exact ⟨rfl, rfl, single⟩
  | _ => simp at same

theorem matchesAll_grouped_append {joiner : Joiner} {clauses : List Clause} {tail : Clause}
    (every : matchesAll (grouped joiner clauses ++ tail)) :
    (∀ clause ∈ clauses, clause.matchesAll) ∧ matchesAll tail := by
  unfold grouped at every
  cases survivors : clauses.filter fun clause => !clause.matchesAll with
  | nil =>
    simp only [survivors, List.isEmpty_nil, if_true, List.nil_append] at every
    refine ⟨fun clause mem => ?_, every⟩
    have none := List.filter_eq_nil_iff.mp survivors clause mem
    simpa using none
  | cons first rest =>
    simp only [survivors, List.isEmpty_cons, Bool.false_eq_true, if_false] at every
    obtain ⟨wrong, _⟩ := matchesAll_cons.mp every
    exact absurd wrong (by simp)

theorem matchesAll_idle {filter : List Condition} {clause : Clause}
    (built : ofConditions d filter = .ok clause) (every : clause.matchesAll) :
    ∀ condition ∈ Filter.nested filter, condition.Idle d := by
  -- A condition that writes a predicate leaves a clause that is not the marker.
  refine compiled_induct (motive := fun filter clause => matchesAll clause →
    ∀ condition ∈ Filter.nested filter, condition.Idle d)
    ?nil ?leaf ?operator ?and ?or ?not built every
  case nil => simp [Filter.nested]
  case leaf =>
    intro field value rest tail _ every
    have written := ofLeaf_writes d field value
    rw [(matchesAll_cons.mp every).1] at written
    exact absurd (writes_always written).1 (by simp)
  case operator =>
    intro field op value p rest tail made ih every
    obtain ⟨rfl, rfl⟩ := matchesAll_cons.mp every
    rw [Filter.forall_nested_cons, Filter.forall_nested_operator]
    exact ⟨writes_always (ofOperator_writes made), ih rfl⟩
  case and | or =>
    intro branches clauses rest tail _ each ih every
    obtain ⟨within, behind⟩ := matchesAll_grouped_append every
    have inside := Filter.forall_branches each within
    rw [Filter.forall_nested_cons]
    simp only [Filter.forall_nested_and, Filter.forall_nested_or]
    exact ⟨⟨trivial, inside⟩, ih behind⟩
  case not =>
    intro inner clause rest tail _ _ every
    exact absurd (matchesAll_cons.mp every).1 (by simp)

theorem unfiltered_of_matchesAll {filter : Filter} {clause : Clause}
    (built : ofFilter d filter = .ok clause) (every : clause.matchesAll) : Unfiltered d filter :=
  ⟨matchesAll_idle (ofFilter_ok.mp built).2 every,
    ⟨clause, built, matchesAll_parameters every⟩⟩

theorem where_mem {c : Clause} (tests : ¬c.matchesAll) : Token.word "WHERE" ∈ c.whereTokens := by
  simp [whereTokens, tests]

end Clause

namespace Token

theorem mem_spaced_head {token : Token} {part : List Token} (parts : List (List Token))
    (inside : token ∈ part) : token ∈ spaced (part :: parts) := by
  cases parts with
  | nil => simpa [spaced] using inside
  | cons next rest =>
    rw [spaced, List.intercalate_cons_cons]
    simp [inside]

theorem mem_spaced_last {token : Token} {behind : List Token} (parts : List (List Token))
    (front : List Token) (inside : token ∈ behind) :
    token ∈ spaced (parts ++ [front ++ behind]) := by
  induction parts with
  | nil => simp [spaced, inside]
  | cons part rest ih =>
    cases rest with
    | nil => simp [spaced, inside]
    | cons next rest =>
      rw [spaced, List.cons_append, List.cons_append, List.intercalate_cons_cons]
      exact List.mem_append_right _ ih

end Token

namespace Statement
open Token

theorem unfiltered_of_no_where {filter : Filter} {clause : Clause} {s : Statement}
    (built : Clause.ofFilter s.dialect filter = .ok clause) (legible : Legible s.tokens)
    (whole : ∀ token ∈ clause.whereTokens, token ∈ s.tokens)
    (lacks : ¬HasWhere s.dialect s.sql) : Unfiltered s.dialect filter := by
  refine Clause.unfiltered_of_matchesAll built ?_
  by_contra tests
  have sql := (Clause.ofFilter_ok.mp built).1
  have mem := whole _ (Clause.where_mem tests)
  exact lacks ⟨_, sql_read sql legible, word_mem_lexemes mem⟩

theorem delete_unfiltered {table : String} {filter : Filter} {d : Dialect} {s : Statement}
    (built : delete table filter d = .ok s) (lacks : ¬HasWhere d s.sql) : Unfiltered d filter := by
  have legible := delete_legible built
  obtain ⟨clause, made, rfl⟩ := delete_built built
  refine unfiltered_of_no_where made legible (fun token inside => ?_) lacks
  exact mem_spaced_last [words ["DELETE", "FROM"]] (Token.table table) inside

theorem update_unfiltered {table : String} {record : Record} {filter : Filter} {d : Dialect}
    {s : Statement} (built : update table record filter d = .ok s)
    (lacks : ¬HasWhere d s.sql) : Unfiltered d filter := by
  have legible := update_legible built
  obtain ⟨clause, made, rfl⟩ := update_built built
  refine unfiltered_of_no_where made legible (fun token inside => ?_) lacks
  exact mem_spaced_last [[.word "UPDATE"], Token.table table, [.word "SET"]]
    (assignments d record) inside

theorem countRows_unfiltered {table : String} {filter : Filter} {d : Dialect} {s : Statement}
    (built : countRows table filter d = .ok s) (lacks : ¬HasWhere d s.sql) :
    Unfiltered d filter := by
  have legible := countRows_legible built
  obtain ⟨clause, made, rfl⟩ := countRows_built built
  refine unfiltered_of_no_where made legible (fun token inside => ?_) lacks
  exact mem_spaced_last [[.word "SELECT"], .word "COUNT" :: inParens [.symbol "*"], [.word "AS"],
    [.name "count"], [.word "FROM"]] (Token.table table) inside

theorem select_unfiltered {table : String} {filter : Filter} {options : FindOptions}
    {d : Dialect} {s : Statement} (built : select table filter options d = .ok s)
    (lacks : ¬HasWhere d s.sql) : Unfiltered d filter := by
  have legible := select_legible built
  obtain ⟨clause, made, rfl⟩ := select_built built
  refine unfiltered_of_no_where made legible (fun token inside => ?_) lacks
  have body := mem_spaced_last [[.word "SELECT"], selectList options.select, [.word "FROM"]]
    (Token.table table) inside
  exact mem_spaced_head (tail d options) body

end Statement
end Sql

namespace Query

theorem insert_ne_nil (query : Document) (key : String) (value : Bson) :
    query.insert key value ≠ [] := by
  cases query with
  | nil => simp [Entries.insert]
  | cons entry rest =>
    rw [Entries.insert]
    split <;> simp

theorem appendAnd_ne_nil (query clause : Document) : appendAnd query clause ≠ [] := by
  unfold appendAnd
  split <;> exact insert_ne_nil _ _ _

theorem addClauses_ne_nil (query : Document) (key : String) (clauses : List Bson) :
    addClauses query key clauses ≠ [] := by
  unfold addClauses
  split
  · exact insert_ne_nil _ _ _
  · split
    · exact appendAnd_ne_nil _ _
    · exact insert_ne_nil _ _ _

theorem addOperators_ne_nil (query : Document) (field : String) (operators : Document) :
    addOperators query field operators ≠ [] := by
  unfold addOperators
  split
  · exact insert_ne_nil _ _ _
  · split
    · exact insert_ne_nil _ _ _
    · exact appendAnd_ne_nil _ _
  · exact appendAnd_ne_nil _ _

theorem addEquality_ne_nil (query : Document) (field : String) (value : Bson) :
    addEquality query field value ≠ [] := by
  unfold addEquality
  split
  · exact insert_ne_nil _ _ _
  · split
    · exact addOperators_ne_nil _ _ _
    · exact appendAnd_ne_nil _ _

theorem addBranches_eq_nil {query : Document} {key : String} {branches : List Document}
    (empty : addBranches query key branches = []) :
    query = [] ∧ ∀ branch ∈ branches, branch = [] := by
  unfold addBranches at empty
  cases survivors : branches.filter fun branch => !branch.isEmpty with
  | nil =>
    simp only [survivors, List.isEmpty_nil, if_true] at empty
    refine ⟨empty, fun branch mem => ?_⟩
    have none := List.filter_eq_nil_iff.mp survivors branch mem
    simpa using none
  | cons first rest =>
    simp only [survivors, List.isEmpty_cons, Bool.false_eq_true, if_false] at empty
    exact absurd empty (addClauses_ne_nil _ _ _)

theorem addConditions_eq_nil {mode : IdentityMode} {query result : Document}
    {filter : List Condition} (built : addConditions mode query filter = .ok result)
    (empty : result = []) :
    query = [] ∧ ∀ condition ∈ Filter.nested filter, condition.Combines := by
  refine compiled_induct (motive := fun query filter result => result = [] →
    query = [] ∧ ∀ condition ∈ Filter.nested filter, condition.Combines)
    ?nil ?leaf ?operator ?and ?or ?not built empty
  case nil => exact fun query empty => ⟨empty, by simp [Filter.nested]⟩
  case leaf =>
    intro query field value rest result ih empty
    exact absurd (ih empty).1 (addEquality_ne_nil _ _ _)
  case operator =>
    intro query field op value operators rest result _ ih empty
    exact absurd (ih empty).1 (addOperators_ne_nil _ _ _)
  case and | or =>
    intro query branches documents rest result _ each ih empty
    obtain ⟨before, behind⟩ := ih empty
    obtain ⟨none, within⟩ := addBranches_eq_nil before
    have inside := Filter.forall_branches (each.imp fun _ _ step empty => (step empty).2) within
    rw [Filter.forall_nested_cons]
    simp only [Filter.forall_nested_and, Filter.forall_nested_or]
    exact ⟨none, ⟨trivial, inside⟩, behind⟩
  case not =>
    intro query inner document rest result _ ih empty
    exact absurd (ih empty).1 (addClauses_ne_nil _ _ _)

end Query

/-- What reaches everything was asked for nothing. -/
theorem unfiltered_asks_nothing :
    (∀ table filter d s, Sql.Statement.delete table filter d = .ok s →
      ¬Sql.HasWhere d s.sql → Sql.Unfiltered d filter) ∧
    (∀ table record filter d s, Sql.Statement.update table record filter d = .ok s →
      ¬Sql.HasWhere d s.sql → Sql.Unfiltered d filter) ∧
    (∀ table filter options d s, Sql.Statement.select table filter options d = .ok s →
      ¬Sql.HasWhere d s.sql → Sql.Unfiltered d filter) ∧
    (∀ table filter d s, Sql.Statement.countRows table filter d = .ok s →
      ¬Sql.HasWhere d s.sql → Sql.Unfiltered d filter) ∧
    (∀ mode filter, Query.ofFilter mode filter = .ok [] →
      ∀ condition ∈ Filter.nested filter, condition.Combines) := by
  refine ⟨?_, ?_, ?_, ?_, ?_⟩
  · intro table filter d s built lacks
    exact Sql.Statement.delete_unfiltered built lacks
  · intro table record filter d s built lacks
    exact Sql.Statement.update_unfiltered built lacks
  · intro table filter options d s built lacks
    exact Sql.Statement.select_unfiltered built lacks
  · intro table filter d s built lacks
    exact Sql.Statement.countRows_unfiltered built lacks
  · intro mode filter built
    exact (Query.addConditions_eq_nil built rfl).2

theorem unfiltered_asks_nothing_empty_list :
    Sql.Unfiltered .mssql [.and [[], [.operator "a" .notIn (.array [])]]] ∧
    Sql.Unfiltered .sqlite [.or [[.and []]]] ∧ Sql.Unfiltered .mysql [] ∧
    Sql.Unfiltered .postgres [.or []] ∧
    ∀ condition ∈ Filter.nested [.and [[], [.or []]]], condition.Combines := by
  obtain ⟨delete, update, select, count, document⟩ := unfiltered_asks_nothing
  refine ⟨?_, ?_, ?_, ?_, ?_⟩
  · exact delete "WHERE" [.and [[], [.operator "a" .notIn (.array [])]]] .mssql _ rfl
      (Sql.not_hasWhere rfl (by decide))
  · exact update "t" [("a", .int 1)] [.or [[.and []]]] .sqlite _ rfl
      (Sql.not_hasWhere rfl (by decide))
  · exact select "t" [] {} .mysql _ rfl (Sql.not_hasWhere rfl (by decide))
  · exact count "t" [.or []] .postgres _ rfl (Sql.not_hasWhere rfl (by decide))
  · exact document .raw [.and [[], [.or []]]] rfl

end StoreBridge
