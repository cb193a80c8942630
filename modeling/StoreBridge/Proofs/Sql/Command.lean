import Mathlib.Logic.Function.Basic
import StoreBridge.Adapter.Operation
import StoreBridge.Proofs.Sql.Posed

/-!
Statements read as commands. The text of a statement names a table, and the condition behind its
WHERE says which rows it is about. A database that does what the text says leaves the rows that the
condition does not hold for as they are.
-/
namespace StoreBridge.Sql

inductive Command where
  /-- At most `limit` of the rows. -/
  | select (table : List String) (condition : Formula FieldTest) (limit : Option Nat)
  | delete (table : List String) (condition : Formula FieldTest)
  | update (table : List String) (assigned : Record) (condition : Formula FieldTest)
  deriving Repr

abbrev Tables := List String → List Record

namespace Command

/-- A row is met where the condition is true; unknown is not enough. -/
def meets (truth : Record → FieldTest → Truth) (condition : Formula FieldTest) (row : Record) :
    Bool :=
  condition.truth (truth row) == .true

def met (truth : Record → FieldTest → Truth) (tables : Tables) : Command → List Record
  | .select table condition _ | .delete table condition | .update table _ condition =>
    (tables table).filter (meets truth condition)

def effect (truth : Record → FieldTest → Truth) (assign : Record → Record → Record) :
    Command → Tables → Tables
  | .select _ _ _, tables => tables
  | .delete table condition, tables =>
    Function.update tables table ((tables table).filter fun row => !meets truth condition row)
  | .update table assigned condition, tables =>
    Function.update tables table ((tables table).map fun row =>
      if meets truth condition row then assign row assigned else row)

end Command

namespace Grammar

def tableName : Lexemes → Option (List String × Lexemes)
  | .name part :: .symbol "." :: rest =>
    (tableName rest).map fun (parts, rest) => (part :: parts, rest)
  | .name part :: rest => some ([part], rest)
  | _ => none

def assignments : Lexemes → Option (Record × Lexemes)
  | .name column :: .symbol "=" :: .placeholder value :: .symbol "," :: rest =>
    (assignments rest).map fun (others, rest) => ((column, value) :: others, rest)
  | .name column :: .symbol "=" :: .placeholder value :: rest => some ([(column, value)], rest)
  | _ => none

/-- The condition behind a WHERE. Without one every row is meant. -/
def selection : Lexemes → Option (Formula FieldTest × Lexemes)
  | .word "WHERE" :: rest => disjunction (3 * rest.length + 2) rest
  | rest => some (.always true, rest)

def limit : Lexemes → Option (Option Nat)
  | [] => some none
  | [.word "LIMIT", .number n] => (Digits.toNat? n.toList).map some
  | [.word "ORDER", .word "BY", .symbol "(", .word "SELECT", .word "NULL", .symbol ")",
      .word "OFFSET", .number "0", .word "ROWS", .word "FETCH", .word "NEXT", .number n,
      .word "ROWS", .word "ONLY"] => (Digits.toNat? n.toList).map some
  | _ => none

def select (lexemes : Lexemes) : Option Command :=
  (tableName lexemes).bind fun (table, rest) =>
    (selection rest).bind fun (condition, rest) => (limit rest).map (.select table condition)

def delete (lexemes : Lexemes) : Option Command :=
  (tableName lexemes).bind fun (table, rest) =>
    match selection rest with
    | some (condition, []) => some (.delete table condition)
    | _ => none

def update (lexemes : Lexemes) : Option Command :=
  match tableName lexemes with
  | some (table, .word "SET" :: rest) =>
    (assignments rest).bind fun (assigned, rest) =>
      match selection rest with
      | some (condition, []) => some (.update table assigned condition)
      | _ => none
  | _ => none

def command : Lexemes → Option Command
  | .word "SELECT" :: .symbol "*" :: .word "FROM" :: rest => select rest
  | .word "DELETE" :: .word "FROM" :: rest => delete rest
  | .word "UPDATE" :: rest => update rest
  | _ => none

theorem separated_read {α : Type} {reader : Lexemes → Option (List α × Lexemes)}
    {part : α → Lexemes} {mark : String}
    (more : ∀ item rest, reader (part item ++ .symbol mark :: rest) =
      (reader rest).map fun (others, rest) => (item :: others, rest))
    (last : ∀ item rest, rest.head? ≠ .some (.symbol mark) →
      reader (part item ++ rest) = .some ([item], rest))
    {items : List α} (some : items ≠ []) (rest : Lexemes)
    (ends : rest.head? ≠ .some (.symbol mark)) :
    reader (List.intercalate [.symbol mark] (items.map part) ++ rest) = .some (items, rest) := by
  induction items with
  | nil => exact absurd rfl some
  | cons item others ih =>
    cases others with
    | nil =>
      rw [List.map_cons, List.map_nil, List.intercalate_singleton]
      exact last item rest ends
    | cons next others =>
      have later := ih (by simp)
      simp only [List.map_cons, List.intercalate_cons_cons, List.append_assoc, List.cons_append,
        List.nil_append] at later ⊢
      rw [more, later]
      rfl

theorem tableName_parts {parts : List String} (some : parts ≠ []) (rest : Lexemes)
    (ends : rest.head? ≠ .some (.symbol ".")) :
    tableName (List.intercalate [.symbol "."] (parts.map fun part => [.name part]) ++ rest) =
      .some (parts, rest) := by
  refine separated_read (fun part rest => ?_) (fun part rest ends => ?_) some rest ends
  · rw [List.singleton_append, tableName]
  · rw [List.singleton_append, tableName]
    rintro behind rfl
    exact ends rfl

theorem assignments_listed {fields : Record} (some : fields ≠ []) (rest : Lexemes)
    (ends : rest.head? ≠ .some (.symbol ",")) :
    assignments (List.intercalate [.symbol ","] (fields.map fun field =>
      [.name field.1, .symbol "=", .placeholder field.2]) ++ rest) = .some (fields, rest) := by
  refine separated_read (fun field rest => ?_) (fun field rest ends => ?_) some rest ends
  · simp only [List.cons_append, List.nil_append, assignments]
  · simp only [List.cons_append, List.nil_append]
    rw [assignments]
    rintro behind rfl
    exact ends rfl

end Grammar

def Statement.command (s : Statement) : Option Command :=
  (Lexeme.ofText s.dialect s.sql).bind fun lexemes =>
    (Lexeme.bound 1 s.parameters 0 lexemes).bind Grammar.command

namespace Token

theorem read_append (before after : List Token) :
    read (before ++ after) = read before ++ read after :=
  List.flatMap_append

theorem read_spaced (part : List Token) (parts : List (List Token)) :
    read (spaced (part :: parts)) = read part ++ read (spaced parts) := by
  cases parts with
  | nil => simp [spaced]
  | cons next rest =>
    rw [spaced, List.intercalate_cons_cons, read_append, read_append]
    simp [spaced, meant]

theorem read_table (text : String) :
    read (table text) =
      List.intercalate [.symbol "."] ((tableParts text).map fun part => [.name part]) := by
  rw [table, Predicate.read_intercalate, splitDots_eq, tableParts, List.map_map, List.map_map]
  rfl

theorem tableParts_ne_nil (text : String) : tableParts text ≠ [] := by
  simp [tableParts, List.splitOn_ne_nil]

theorem read_assignments (d : Dialect) (fields : Record) :
    read (Statement.assignments d fields) = List.intercalate [.symbol ","]
      ((fields.map fun field => (field.1, d.stored field.2)).map fun field =>
        [.name field.1, .symbol "=", .placeholder field.2]) := by
  rw [Statement.assignments, listed, Predicate.read_intercalate, List.map_map, List.map_map]
  rfl

end Token

namespace Clause
open Grammar

def Ends (rest : Lexemes) : Prop :=
  rest.head? ≠ some (.word "OR") ∧ rest.head? ≠ some (.word "AND") ∧
    rest.head? ≠ some (.word "WHERE")

theorem ends_nil : Ends [] := by simp [Ends]

def Chooses (c : Clause) (f : Formula FieldTest) : Prop :=
  ∀ rest, Ends rest → selection (Token.read c.whereTokens ++ rest) = some (f, rest)

theorem chooses_written {c : Clause} {f : Formula FieldTest} (read : c.Reads f)
    (busy : c.matchesAll = false) : c.Chooses f := by
  intro rest ends
  have written : Token.read c.whereTokens = .word "WHERE" :: Token.read c.tokens := by
    simp [whereTokens, busy, Token.meant]
  rw [written, List.cons_append, selection]
  have fuel : 3 * (Token.read c.tokens).length + 2 ≤
      3 * (Token.read c.tokens ++ rest).length + 2 := by
    rw [List.length_append]
    omega
  refine reads_conjunctionAlone read _ rest fuel fun keyword mem => ?_
  simp only [List.mem_cons, List.not_mem_nil, or_false] at mem
  rcases mem with rfl | rfl
  · exact ends.1
  · exact ends.2.1

theorem chooses_every {c : Clause} (every : c.matchesAll) : c.Chooses (.always true) := by
  intro rest ends
  have written : Token.read c.whereTokens = [] := by simp [whereTokens, every]
  rw [written, List.nil_append, selection]
  rintro behind rfl
  exact ends.2.2 rfl

theorem ofFilter_chooses {d : Dialect} {filter : Filter} {c : Clause}
    (built : ofFilter d filter = .ok c) : ∃ f, c.Chooses f := by
  cases every : c.matchesAll with
  | true => exact ⟨_, chooses_every every⟩
  | false =>
    exact ⟨_, chooses_written (reads_asked (ofConditions_asks (ofFilter_ok.mp built).2)) every⟩

theorem equals_chooses {d : Dialect} {column : String} {value : Value} {c : Clause}
    (built : ofFilter d (.equals column value) = .ok c) (assigned : value.isNull = false) :
    c.Chooses (.test (.compare column .eq (d.stored value))) := by
  obtain ⟨_, built⟩ := ofFilter_ok.mp built
  have single : c = [.compare column .eq (d.stored value)] := by
    simpa [Filter.equals, ofConditions, ofCondition, ofLeaf, assigned, bind, Except.bind,
      eq_comm] using built
  subst single
  exact chooses_written (reads_all (.cons (Predicate.reads_compare column .eq _) .nil)) rfl

theorem whereTokens_head (c : Clause) (rest : Lexemes) (text : String)
    (ends : rest.head? ≠ some (.symbol text)) :
    (Token.read c.whereTokens ++ rest).head? ≠ some (.symbol text) := by
  cases every : c.matchesAll with
  | true => simpa [whereTokens, every] using ends
  | false => simp [whereTokens, every, Token.meant]

end Clause

namespace Statement

/-- Whoever reads the text of a statement with its parameters reads its tokens. -/
theorem bound_read {α : Type} {s : Statement} (sql : s.dialect.isSql)
    (legible : Token.Legible s.tokens) (reader : Grammar.Lexemes → Option α) :
    ((Lexeme.ofText s.dialect s.sql).bind fun lexemes =>
      (Lexeme.bound 1 s.parameters 0 lexemes).bind reader) = reader (Token.read s.tokens) := by
  have bound : Lexeme.bound 1 s.parameters 0 (Token.lexemes s.dialect 1 s.tokens) =
      some (Token.read s.tokens) :=
    Lexeme.bound_lexemes s.dialect 1 [] s.tokens
  rw [sql_read sql legible, Option.bind_some, bound, Option.bind_some]

theorem command_read {s : Statement} (sql : s.dialect.isSql) (legible : Token.Legible s.tokens) :
    s.command = Grammar.command (Token.read s.tokens) :=
  bound_read sql legible Grammar.command

theorem tail_first (d : Dialect) :
    ∃ text behind, Token.read (Token.spaced (tail d .first)) = .word text :: behind ∧
      text ∉ ["OR", "AND", "WHERE"] ∧ Grammar.limit (.word text :: behind) = some (some 1) := by
  cases d <;> exact ⟨_, _, rfl, by decide, rfl⟩

abbrev namedTable (table : String) : Grammar.Lexemes :=
  List.intercalate [.symbol "."] ((tableParts table).map fun part => [.name part])

variable {d : Dialect} {table : String} {filter : Filter} {clause : Clause} {s : Statement}
  {condition : Formula FieldTest}

theorem select_first (built : select table filter .first d = .ok s)
    (compiled : Clause.ofFilter d filter = .ok clause) (chosen : clause.Chooses condition) :
    s.command = some (.select (tableParts table) condition (some 1)) := by
  obtain ⟨sql, _⟩ := Clause.ofFilter_ok.mp compiled
  have legible := select_legible built
  obtain ⟨found, same, rfl⟩ := select_built built
  obtain rfl : clause = found := Except.ok.inj (compiled.symm.trans same)
  obtain ⟨text, behind, written, other, one⟩ := tail_first d
  have ends : Clause.Ends (.word text :: behind) := by simpa [Clause.Ends] using other
  have named := Grammar.tableName_parts (Token.tableParts_ne_nil table) _
    (clause.whereTokens_head (.word text :: behind) "." (by simp))
  have read : Token.read (Token.spaced (Token.spaced [[.word "SELECT"], selectList [],
      [.word "FROM"], Token.table table ++ clause.whereTokens] :: tail d .first)) =
      .word "SELECT" :: .symbol "*" :: .word "FROM" ::
        (namedTable table ++ (Token.read clause.whereTokens ++ .word text :: behind)) := by
    simp only [Token.read_spaced, written, Token.read_append, Token.read_table]
    simp [selectList, Token.spaced, Token.meant]
  rw [command_read sql legible]
  refine (congrArg Grammar.command read).trans ?_
  simp only [Grammar.command, Grammar.select, named, Option.bind_some, chosen _ ends, one,
    Option.map_some]

theorem delete_chosen (built : delete table filter d = .ok s)
    (compiled : Clause.ofFilter d filter = .ok clause) (chosen : clause.Chooses condition) :
    s.command = some (.delete (tableParts table) condition) := by
  obtain ⟨sql, _⟩ := Clause.ofFilter_ok.mp compiled
  have legible := delete_legible built
  obtain ⟨found, same, rfl⟩ := delete_built built
  obtain rfl : clause = found := Except.ok.inj (compiled.symm.trans same)
  have named := Grammar.tableName_parts (Token.tableParts_ne_nil table) _
    (clause.whereTokens_head [] "." (by simp))
  have read : Token.read (Token.spaced [Token.words ["DELETE", "FROM"],
      Token.table table ++ clause.whereTokens]) = .word "DELETE" :: .word "FROM" ::
        (namedTable table ++ (Token.read clause.whereTokens ++ [])) := by
    simp only [Token.read_spaced, Token.read_append, Token.read_table]
    simp [Token.spaced, Token.words, Token.meant]
  rw [command_read sql legible]
  refine (congrArg Grammar.command read).trans ?_
  simp only [Grammar.command, Grammar.delete, named, Option.bind_some, chosen _ Clause.ends_nil]

theorem update_chosen {fields : Record} (built : update table fields filter d = .ok s)
    (compiled : Clause.ofFilter d filter = .ok clause) (chosen : clause.Chooses condition) :
    s.command = some (.update (tableParts table)
      (fields.map fun field => (field.1, d.stored field.2)) condition) := by
  obtain ⟨sql, _⟩ := Clause.ofFilter_ok.mp compiled
  have legible := update_legible built
  have filled : (fields.map fun field => (field.1, d.stored field.2)) ≠ [] := by
    intro empty
    simp [update, List.map_eq_nil_iff.mp empty, refuse] at built
  obtain ⟨found, same, rfl⟩ := update_built built
  obtain rfl : clause = found := Except.ok.inj (compiled.symm.trans same)
  have set := Grammar.assignments_listed filled _ (clause.whereTokens_head [] "," (by simp))
  have named := Grammar.tableName_parts (Token.tableParts_ne_nil table)
    (.word "SET" :: (Token.read (assignments d fields) ++ (Token.read clause.whereTokens ++ [])))
    (by simp)
  rw [Token.read_assignments] at named
  have read : Token.read (Token.spaced [[.word "UPDATE"], Token.table table, [.word "SET"],
      assignments d fields ++ clause.whereTokens]) = .word "UPDATE" :: (namedTable table ++
        (.word "SET" :: (Token.read (assignments d fields) ++
          (Token.read clause.whereTokens ++ [])))) := by
    simp only [Token.read_spaced, Token.read_append, Token.read_table]
    simp [Token.spaced, Token.meant]
  rw [command_read sql legible]
  refine (congrArg Grammar.command read).trans ?_
  simp only [Grammar.command, Grammar.update, Token.read_assignments, named, set,
    Option.bind_some, chosen _ Clause.ends_nil]

end Statement
end StoreBridge.Sql
