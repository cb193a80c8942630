import StoreBridge.Proofs.Sql.Operands
import StoreBridge.Proofs.Sql.Placeholders

/-!
The numbers of placeholders. The text of a statement on rows holds one placeholder for each of its
parameters, in order and numbered from one: those of the record first, those of the filter behind
them. No name, table or literal adds one or hides one.
-/
namespace StoreBridge.Sql
open Token

/-- A text whose placeholders count up from `start`, one for each of the operands, and stand for
    them in this order. -/
structure Numbered (d : Dialect) (start : Nat) (text : String) (parameters operands : List Value) :
    Prop where
  bound : parameters = operands
  counted : (Lexeme.ofText d text).map Lexeme.placeholders =
    some ((List.range' start parameters.length).map d.placeholder)
  resolved : ((Lexeme.ofText d text).bind (Lexeme.bound start parameters 0)).map Lexeme.operands =
    some operands

theorem numbered_render {d : Dialect} {tokens : List Token} {operands : List Value}
    (sql : d.isSql) (start : Nat) (legible : Legible tokens)
    (bound : Token.parameters tokens = operands) :
    Numbered d start (String.ofList (render d start tokens)) (Token.parameters tokens)
      operands := by
  have resolved := Lexeme.bound_lexemes d start [] tokens
  simp only [List.nil_append, List.length_nil, Nat.add_zero] at resolved
  refine ⟨bound, ?_, ?_⟩
  · rw [ofText_render sql legible, Option.map_some, Lexeme.placeholders_lexemes]
  · rw [ofText_render sql legible, Option.bind_some, resolved, Option.map_some,
      Lexeme.operands_meant, bound]

namespace Statement
open Token.Pick (values)

theorem values_ofNames (texts : List String) : values.ofNames texts = [] :=
  List.filterMap_none texts

theorem clause_operands {d : Dialect} {filter : Filter} {clause : Clause}
    (made : Clause.ofFilter d filter = .ok clause) :
    values.inClause clause = Operands.ofFilter d filter :=
  Clause.ofConditions_parameters (Clause.ofFilter_ok.mp made).2

theorem select_parameters {table : String} {filter : Filter} {options : FindOptions} {d : Dialect}
    {s : Statement} (built : select table filter options d = .ok s) :
    s.parameters = Operands.ofFilter d filter := by
  obtain ⟨clause, made, picked⟩ := select_picked values built
  simp only [values_ofNames, List.nil_append, List.append_nil] at picked
  exact picked.trans (clause_operands made)

theorem countRows_parameters {table : String} {filter : Filter} {d : Dialect} {s : Statement}
    (built : countRows table filter d = .ok s) : s.parameters = Operands.ofFilter d filter := by
  obtain ⟨clause, made, picked⟩ := countRows_picked values built
  simp only [values_ofNames, List.nil_append] at picked
  exact picked.trans (clause_operands made)

theorem delete_parameters {table : String} {filter : Filter} {d : Dialect} {s : Statement}
    (built : delete table filter d = .ok s) : s.parameters = Operands.ofFilter d filter := by
  obtain ⟨clause, made, picked⟩ := delete_picked values built
  simp only [values_ofNames, List.nil_append] at picked
  exact picked.trans (clause_operands made)

theorem update_parameters {table : String} {fields : Record} {filter : Filter} {d : Dialect}
    {s : Statement} (built : update table fields filter d = .ok s) :
    s.parameters = (fields.map fun field => d.stored field.2) ++ Operands.ofFilter d filter := by
  obtain ⟨clause, made, picked⟩ := update_picked values built
  have set : (fields.flatMap fun field =>
      values.all [.name field.1, .parameter (d.stored field.2)]) =
      fields.map fun field => d.stored field.2 :=
    List.flatMap_pure_eq_map _ fields
  rw [values_ofNames, List.nil_append, set, clause_operands made] at picked
  exact picked

theorem insert_parameters (table : String) (record : Record) (backend : Backend) :
    (insert table record backend).parameters =
      record.map fun field => backend.dialect.stored field.2 := by
  have picked := insert_picked values table record backend
  rw [values_ofNames, values_ofNames, List.nil_append, List.nil_append] at picked
  exact picked.trans (congrFun List.filterMap_eq_map' record)

theorem numbered {s : Statement} {operands : List Value} (sql : s.dialect.isSql)
    (legible : Legible s.tokens) (bound : s.parameters = operands) :
    Numbered s.dialect 1 s.sql s.parameters operands :=
  numbered_render sql 1 legible bound

end Statement

theorem Clause.text_numbered {d : Dialect} {filter : Filter} {clause : Clause}
    (built : ofFilter d filter = .ok clause) (start : Nat) :
    Numbered d start (clause.text d start) clause.parameters (Operands.ofFilter d filter) := by
  obtain ⟨sql, built⟩ := ofFilter_ok.mp built
  exact numbered_render sql start clause.legible (ofConditions_parameters built)

/-- Each statement on rows, and each clause alone, binds what its text has placeholders for. -/
theorem statements_numbered :
    (∀ table filter options d s, Statement.select table filter options d = .ok s →
      Numbered d 1 s.sql s.parameters (Operands.ofFilter d filter)) ∧
    (∀ table filter d s, Statement.countRows table filter d = .ok s →
      Numbered d 1 s.sql s.parameters (Operands.ofFilter d filter)) ∧
    (∀ table filter d s, Statement.delete table filter d = .ok s →
      Numbered d 1 s.sql s.parameters (Operands.ofFilter d filter)) ∧
    (∀ table record filter d s, Statement.update table record filter d = .ok s →
      Numbered d 1 s.sql s.parameters
        ((record.map fun field => d.stored field.2) ++ Operands.ofFilter d filter)) ∧
    (∀ table record (backend : Backend) s, backend.dialect.isSql →
      Statement.insert table record backend = s →
      Numbered backend.dialect 1 s.sql s.parameters
        (record.map fun field => backend.dialect.stored field.2)) ∧
    (∀ filter d start clause, Clause.ofFilter d filter = .ok clause →
      Numbered d start (clause.text d start) clause.parameters (Operands.ofFilter d filter)) := by
  refine ⟨?select, ?count, ?delete, ?update, ?insert, ?clause⟩
  case select =>
    intro table filter options d s built
    have legible := Statement.select_legible built
    have bound := Statement.select_parameters built
    obtain ⟨clause, made, rfl⟩ := Statement.select_built built
    exact Statement.numbered (Clause.ofFilter_ok.mp made).1 legible bound
  case count =>
    intro table filter d s built
    have legible := Statement.countRows_legible built
    have bound := Statement.countRows_parameters built
    obtain ⟨clause, made, rfl⟩ := Statement.countRows_built built
    exact Statement.numbered (Clause.ofFilter_ok.mp made).1 legible bound
  case delete =>
    intro table filter d s built
    have legible := Statement.delete_legible built
    have bound := Statement.delete_parameters built
    obtain ⟨clause, made, rfl⟩ := Statement.delete_built built
    exact Statement.numbered (Clause.ofFilter_ok.mp made).1 legible bound
  case update =>
    intro table record filter d s built
    have legible := Statement.update_legible built
    have bound := Statement.update_parameters built
    obtain ⟨clause, made, rfl⟩ := Statement.update_built built
    exact Statement.numbered (Clause.ofFilter_ok.mp made).1 legible bound
  case insert =>
    rintro table record backend _ sql rfl
    have same : (Statement.insert table record backend).dialect = backend.dialect := by
      cases record <;> rfl
    have whole := Statement.numbered (by rw [same]; exact sql)
      (Statement.insert_legible table record backend)
      (Statement.insert_parameters table record backend)
    rw [same] at whole
    exact whole
  case clause =>
    intro filter d start clause built
    exact Clause.text_numbered built start

/-- Names that look like placeholders count for nothing. -/
theorem statements_numbered_odd_names :
    Numbered .mssql 1 "SELECT * FROM [t] WHERE [@p1] = @p1" [.int 2] [.int 2] ∧
    Numbered .mssql 1 "SELECT COUNT(*) AS [count] FROM [t] WHERE [@p1] = @p1" [.int 2] [.int 2] ∧
    Numbered .mssql 1 "DELETE FROM [t] WHERE [@p1] = @p1" [.int 2] [.int 2] ∧
    Numbered .mssql 1 "UPDATE [t] SET [?] = @p1 WHERE [@p1] = @p2" [.int 1, .int 2]
      [.int 1, .int 2] ∧
    Numbered .mssql 1 "INSERT INTO [t] ([?]) OUTPUT INSERTED.* VALUES (@p1)" [.int 1] [.int 1] ∧
    Numbered .mssql 7 "[@p1] = @p7" [.int 2] [.int 2] := by
  obtain ⟨select, count, delete, update, insert, clause⟩ := statements_numbered
  refine ⟨?_, ?_, ?_, ?_, ?_, ?_⟩
  · exact select "t" [.leaf "@p1" (.int 2)] {} .mssql _ rfl
  · exact count "t" [.leaf "@p1" (.int 2)] .mssql _ rfl
  · exact delete "t" [.leaf "@p1" (.int 2)] .mssql _ rfl
  · exact update "t" [("?", .int 1)] [.leaf "@p1" (.int 2)] .mssql _ rfl
  · exact insert "t" [("?", .int 1)] .mssql _ rfl rfl
  · exact clause [.leaf "@p1" (.int 2)] .mssql 7 _ rfl

end StoreBridge.Sql
