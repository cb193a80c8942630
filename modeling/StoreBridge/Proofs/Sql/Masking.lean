import StoreBridge.Proofs.Filter.Questions
import StoreBridge.Proofs.Sql.Likeness
import StoreBridge.Proofs.Sql.StatementText

/-!
Requests behind a mask. A mask hides something of a request, such as its names or its values, and
the same of the tokens that are written for it. A request that is served is served behind the mask
too, by a statement that looks alike; so two requests that are one behind the mask have statements
that look alike, and all that tells them apart is what the mask hides.
-/
namespace StoreBridge

mutual

def Condition.replaced (name : String → String) (operand : Operator → Value → Value) :
    Condition → Condition
  | .leaf field value => .leaf (name field) (operand .eq value)
  | .operator field op value => .operator (name field) op (operand op value)
  | .and branches => .and (Filter.replacedBranches name operand branches)
  | .or branches => .or (Filter.replacedBranches name operand branches)
  | .not inner => .not (Filter.replaced name operand inner)

def Filter.replaced (name : String → String) (operand : Operator → Value → Value) :
    List Condition → List Condition
  | [] => []
  | condition :: rest => condition.replaced name operand :: Filter.replaced name operand rest

def Filter.replacedBranches (name : String → String) (operand : Operator → Value → Value) :
    List (List Condition) → List (List Condition)
  | [] => []
  | branch :: rest =>
    Filter.replaced name operand branch :: Filter.replacedBranches name operand rest

end

theorem Filter.questions_replaced (name : String → String) (operand : Operator → Value → Value)
    (filter : List Condition) :
    Filter.questions (Filter.replaced name operand filter) =
      (Filter.questions filter).map fun q => ⟨name q.field, q.op, operand q.op q.value⟩ := by
  have inside {branches : List (List Condition)}
      (each : ∀ branch ∈ branches, Filter.questions (Filter.replaced name operand branch) =
        (Filter.questions branch).map fun q => ⟨name q.field, q.op, operand q.op q.value⟩) :
      Filter.branchQuestions (Filter.replacedBranches name operand branches) =
        (Filter.branchQuestions branches).map fun q =>
          ⟨name q.field, q.op, operand q.op q.value⟩ := by
    induction branches with
    | nil => rfl
    | cons branch rest ih =>
      rw [List.forall_mem_cons] at each
      rw [Filter.replacedBranches, Filter.branchQuestions, Filter.branchQuestions, List.map_append,
        each.1, ih each.2]
  induction filter using Filter.induct with
  | nil => rfl
  | leaf field value rest ih | operator field op value rest ih =>
    rw [Filter.replaced, Filter.questions, Filter.questions, List.map_append, ih]
    rfl
  | and branches rest each ih | or branches rest each ih =>
    rw [Filter.replaced, Filter.questions, Filter.questions, List.map_append, ih,
      Condition.replaced, Condition.questions, Condition.questions, inside each]
  | not inner rest each ih =>
    rw [Filter.replaced, Filter.questions, Filter.questions, List.map_append, ih,
      Condition.replaced, Condition.questions, Condition.questions, each]

namespace Sql

/-- What is asked of the rows of a table. -/
inductive Request where
  | select (table : String) (filter : Filter) (options : FindOptions)
  | count (table : String) (filter : Filter)
  | delete (table : String) (filter : Filter)
  | update (table : String) (changes : Record) (filter : Filter)
  | insert (table : String) (record : Record)

def Request.statement (backend : Backend) : Request → Except Error Statement
  | .select table filter options => Statement.select table filter options backend.dialect
  | .count table filter => Statement.countRows table filter backend.dialect
  | .delete table filter => Statement.delete table filter backend.dialect
  | .update table changes filter => Statement.update table changes filter backend.dialect
  | .insert table record => .ok (Statement.insert table record backend)

/-- What is hidden of a request, and what of a token. A test that a dialect can write has one behind
    the mask that looks alike. -/
structure Mask where
  table : String → String
  name : String → String
  operand : Operator → Value → Value
  value : Value → Value
  token : Token → Token
  table_alike : ∀ text, Token.Alike token (Token.table text) (Token.table (table text))
  name_alike : ∀ text, token (.name text) = token (.name (name text))
  value_alike : ∀ (d : Dialect) v,
    token (.parameter (d.stored v)) = token (.parameter (d.stored (value v)))
  test_alike : ∀ {d field op v p}, Clause.Writes d field op v p →
    ∃ q, Clause.Writes d (name field) op (operand op v) q ∧ p.Alike token q

namespace Mask
variable (m : Mask)

def filter (f : Filter) : Filter := Filter.replaced m.name m.operand f

def record (r : Record) : Record := r.map fun field => (m.name field.1, m.value field.2)

def options (o : FindOptions) : FindOptions :=
  { o with
    sort := o.sort.map fun entry => (m.name entry.1, entry.2)
    select := o.select.map m.name }

def request : Request → Request
  | .select table filter options => .select (m.table table) (m.filter filter) (m.options options)
  | .count table filter => .count (m.table table) (m.filter filter)
  | .delete table filter => .delete (m.table table) (m.filter filter)
  | .update table changes filter => .update (m.table table) (m.record changes) (m.filter filter)
  | .insert table record => .insert (m.table table) (m.record record)

/-! Clauses behind a mask. -/

variable {d : Dialect} {f : List Condition} {clause : Clause}

theorem leaf_alike (field : String) (value : Value) :
    (Clause.ofLeaf d field value).Alike m.token
      (Clause.ofLeaf d (m.name field) (m.operand .eq value)) := by
  obtain ⟨q, written, alike⟩ := m.test_alike (Clause.ofLeaf_writes d field value)
  have own := Clause.writes_ofOperator (Clause.ofLeaf_writes d (m.name field) (m.operand .eq value))
  rw [Clause.writes_ofOperator written, Except.ok.injEq] at own
  rwa [← own]

theorem ofBranches_masked {branches : List (List Condition)} {clauses : List Clause}
    (each : List.Forall₂ (fun branch clause =>
      ∃ other, Clause.ofConditions d (m.filter branch) = .ok other ∧ clause.Alike m.token other)
      branches clauses) :
    ∃ others,
      Clause.ofBranches d (Filter.replacedBranches m.name m.operand branches) = .ok others ∧
      List.Forall₂ (Clause.Alike m.token) clauses others := by
  induction each with
  | nil => exact ⟨[], rfl, .nil⟩
  | cons first _ ih =>
    obtain ⟨other, made, alike⟩ := first
    obtain ⟨others, later, rest⟩ := ih
    refine ⟨other :: others, ?_, .cons alike rest⟩
    rw [filter] at made
    rw [Filter.replacedBranches, Clause.ofBranches, made, later]
    rfl

theorem ofConditions_masked (built : Clause.ofConditions d f = .ok clause) :
    ∃ other, Clause.ofConditions d (m.filter f) = .ok other ∧ clause.Alike m.token other := by
  refine Clause.compiled_induct (motive := fun f clause =>
    ∃ other, Clause.ofConditions d (m.filter f) = .ok other ∧ clause.Alike m.token other)
    ?empty ?leaf ?operator ?and ?or ?not built
  case empty => exact ⟨[], rfl, .nil⟩
  case leaf =>
    rintro field value rest tail ⟨other, later, alike⟩
    refine ⟨_ :: other, ?_, .cons (m.leaf_alike field value) alike⟩
    rw [filter] at later ⊢
    rw [Filter.replaced, Condition.replaced, Clause.ofConditions, Clause.ofCondition, later]
    rfl
  case operator =>
    rintro field op value p rest tail built ⟨other, later, alike⟩
    obtain ⟨q, written, first⟩ := m.test_alike (Clause.ofOperator_writes built)
    have made := Clause.writes_ofOperator written
    refine ⟨q :: other, ?_, .cons first alike⟩
    rw [filter] at later ⊢
    rw [Filter.replaced, Condition.replaced, Clause.ofConditions, Clause.ofCondition, made, later]
    rfl
  case and | or =>
    rintro branches clauses rest tail _ each ⟨other, later, alike⟩
    obtain ⟨others, made, inside⟩ := m.ofBranches_masked each
    refine ⟨_, ?_, List.rel_append (Clause.grouped_alike _ inside) alike⟩
    rw [filter] at later ⊢
    rw [Filter.replaced, Condition.replaced, Clause.ofConditions, Clause.ofCondition, made, later]
    rfl
  case not =>
    rintro inner clause rest tail ⟨within, made, inside⟩ ⟨other, later, alike⟩
    refine ⟨_ :: other, ?_, .cons (Clause.not_alike inside) alike⟩
    rw [filter] at made later ⊢
    rw [Filter.replaced, Condition.replaced, Clause.ofConditions, Clause.ofCondition, made, later]
    rfl

theorem ofFilter_masked (built : Clause.ofFilter d f = .ok clause) :
    ∃ other, Clause.ofFilter d (m.filter f) = .ok other ∧ clause.Alike m.token other := by
  obtain ⟨sql, built⟩ := Clause.ofFilter_ok.mp built
  obtain ⟨other, made, alike⟩ := m.ofConditions_masked built
  exact ⟨other, Clause.ofFilter_ok.mpr ⟨sql, made⟩, alike⟩

/-! Statements behind a mask. -/

open Token

theorem names_alike (texts : List String) :
    Alike m.token (names texts) (names (texts.map m.name)) := by
  unfold names
  rw [List.map_map]
  exact alike_listed (alike_map fun text => congrArg (fun token => [token]) (m.name_alike text))

theorem selectList_alike (fields : List String) :
    Alike m.token (Statement.selectList fields) (Statement.selectList (fields.map m.name)) := by
  cases fields with
  | nil => rfl
  | cons field rest => exact m.names_alike (field :: rest)

theorem named_alike (text : String) {a b : List Token} (behind : Alike m.token a b) :
    Alike m.token (.name text :: a) (.name (m.name text) :: b) :=
  alike_append (a := [.name text]) (b := [.name (m.name text)])
    (congrArg (fun token => [token]) (m.name_alike text)) behind

theorem parameter_alike (d : Dialect) (v : Value) :
    Alike m.token [.parameter (d.stored v)] [.parameter (d.stored (m.value v))] :=
  congrArg (fun token => [token]) (m.value_alike d v)

theorem orderBy_alike (sort : List (String × Direction)) :
    Alike m.token (Statement.orderBy sort)
      (Statement.orderBy (sort.map fun entry => (m.name entry.1, entry.2))) := by
  cases sort with
  | nil => rfl
  | cons entry rest =>
    refine alike_append rfl (alike_cons ?_)
    unfold Statement.sortTokens
    rw [List.map_map]
    exact alike_listed (alike_map fun entry => m.named_alike entry.1 rfl)

theorem tail_alike (d : Dialect) (o : FindOptions) :
    List.Forall₂ (Alike m.token) (Statement.tail d o) (Statement.tail d (m.options o)) := by
  have order := m.orderBy_alike o.sort
  unfold Statement.tail options
  simp only [← alike_isEmpty order]
  refine List.rel_filter (fun _ _ alike => by simp only [alike_isEmpty alike])
    (.cons ?_ (.cons rfl .nil))
  split
  · rfl
  · exact order

theorem assignments_alike (d : Dialect) (fields : Record) :
    Alike m.token (Statement.assignments d fields) (Statement.assignments d (m.record fields)) := by
  unfold Statement.assignments record
  rw [List.map_map]
  refine alike_listed (alike_map fun field => m.named_alike field.1 ?_)
  exact alike_append (a := [_, _, _]) rfl (m.parameter_alike d field.2)

theorem fieldParameters_alike (d : Dialect) (fields : Record) :
    List.Forall₂ (Alike m.token) (Statement.fieldParameters d fields)
      (Statement.fieldParameters d (m.record fields)) := by
  unfold Statement.fieldParameters record
  rw [List.map_map]
  exact alike_map fun field => m.parameter_alike d field.2

theorem behind_alike (table : String) {clause other : Clause} (alike : clause.Alike m.token other) :
    Alike m.token (Token.table table ++ clause.whereTokens)
      (Token.table (m.table table) ++ other.whereTokens) :=
  alike_append (m.table_alike table) (Clause.whereTokens_alike alike)

theorem insert_alike (table : String) (r : Record) (backend : Backend) :
    Alike m.token (Statement.insert table r backend).tokens
      (Statement.insert (m.table table) (m.record r) backend).tokens := by
  have start : List.Forall₂ (Alike m.token) [words ["INSERT", "INTO"], Token.table table]
      [words ["INSERT", "INTO"], Token.table (m.table table)] :=
    .cons rfl (.cons (m.table_alike table) .nil)
  cases r with
  | nil =>
    exact alike_spaced (List.rel_append (List.rel_append (List.rel_append start (alike_same _))
      (alike_same _)) (alike_same _))
  | cons field rest =>
    have keys : (m.record (field :: rest)).keys = (Entries.keys (field :: rest)).map m.name := by
      rw [record, Entries.keys, Entries.keys, List.map_map, List.map_map]
      rfl
    have columns : List.Forall₂ (Alike m.token) [inParens (names (Entries.keys (field :: rest)))]
        [inParens (names (m.record (field :: rest)).keys)] := by
      rw [keys]
      exact .cons (alike_inParens (m.names_alike _)) .nil
    have values : List.Forall₂ (Alike m.token)
        [[.word "VALUES"],
          inParens (listed (Statement.fieldParameters backend.dialect (field :: rest)))]
        [[.word "VALUES"],
          inParens (listed
            (Statement.fieldParameters backend.dialect (m.record (field :: rest))))] :=
      .cons rfl (.cons (alike_inParens (alike_listed (m.fieldParameters_alike _ _))) .nil)
    exact alike_spaced (List.rel_append (List.rel_append (List.rel_append (List.rel_append start
      columns) (alike_same _)) values) (alike_same _))

theorem statement_masked {backend : Backend} {r : Request} {s : Statement}
    (built : r.statement backend = .ok s) :
    ∃ t, (m.request r).statement backend = .ok t ∧ Alike m.token s.tokens t.tokens := by
  cases r with
  | select table filter options =>
    obtain ⟨clause, made, rfl⟩ := Statement.select_built built
    obtain ⟨other, again, alike⟩ := m.ofFilter_masked made
    refine ⟨_, by rw [request, Request.statement, Statement.select, again]; rfl, ?_⟩
    refine alike_spaced (.cons (alike_spaced ?_) (m.tail_alike _ _))
    exact .cons rfl (.cons (m.selectList_alike _) (.cons rfl (.cons (m.behind_alike _ alike) .nil)))
  | count table filter =>
    obtain ⟨clause, made, rfl⟩ := Statement.countRows_built built
    obtain ⟨other, again, alike⟩ := m.ofFilter_masked made
    refine ⟨_, by rw [request, Request.statement, Statement.countRows, again]; rfl, ?_⟩
    have front : List.Forall₂ (Alike m.token)
        [[.word "SELECT"], .word "COUNT" :: inParens [.symbol "*"], [.word "AS"],
          [.name "count"], [.word "FROM"]] _ := alike_same _
    exact alike_spaced (List.rel_append front (.cons (m.behind_alike _ alike) .nil))
  | delete table filter =>
    obtain ⟨clause, made, rfl⟩ := Statement.delete_built built
    obtain ⟨other, again, alike⟩ := m.ofFilter_masked made
    refine ⟨_, by rw [request, Request.statement, Statement.delete, again]; rfl, ?_⟩
    exact alike_spaced (.cons rfl (.cons (m.behind_alike _ alike) .nil))
  | update table changes filter =>
    obtain ⟨clause, made, rfl⟩ := Statement.update_built built
    obtain ⟨other, again, alike⟩ := m.ofFilter_masked made
    have some : (m.record changes).isEmpty = changes.isEmpty := List.isEmpty_map
    have filled : changes.isEmpty = false := by
      by_contra empty
      rw [Bool.not_eq_false] at empty
      simp [Request.statement, Statement.update, empty, refuse] at built
    refine ⟨_, by
      rw [request, Request.statement, Statement.update, some, filled, again]
      rfl, ?_⟩
    refine alike_spaced (.cons rfl (.cons (m.table_alike table) (.cons rfl (.cons ?_ .nil))))
    exact alike_append (m.assignments_alike _ changes) (Clause.whereTokens_alike alike)
  | insert table record =>
    cases built
    exact ⟨_, rfl, m.insert_alike table record backend⟩

theorem statements_alike {backend : Backend} {r₁ r₂ : Request} {s₁ s₂ : Statement}
    (same : m.request r₁ = m.request r₂) (built₁ : r₁.statement backend = .ok s₁)
    (built₂ : r₂.statement backend = .ok s₂) : Alike m.token s₁.tokens s₂.tokens := by
  obtain ⟨t₁, made₁, alike₁⟩ := m.statement_masked built₁
  obtain ⟨t₂, made₂, alike₂⟩ := m.statement_masked built₂
  rw [same, made₂, Except.ok.injEq] at made₁
  subst made₁
  exact alike₁.trans alike₂.symm

end Mask

namespace Request
variable {backend : Backend} {r : Request} {s : Statement}

theorem statement_dialect (built : r.statement backend = .ok s) : s.dialect = backend.dialect := by
  cases r with
  | select => obtain ⟨_, _, rfl⟩ := Statement.select_built built; rfl
  | count => obtain ⟨_, _, rfl⟩ := Statement.countRows_built built; rfl
  | delete => obtain ⟨_, _, rfl⟩ := Statement.delete_built built; rfl
  | update => obtain ⟨_, _, rfl⟩ := Statement.update_built built; rfl
  | insert table record =>
    cases built
    cases record <;> rfl

theorem statement_legible (built : r.statement backend = .ok s) : Token.Legible s.tokens := by
  cases r with
  | select => exact Statement.select_legible built
  | count => exact Statement.countRows_legible built
  | delete => exact Statement.delete_legible built
  | update => exact Statement.update_legible built
  | insert table record =>
    cases built
    exact Statement.insert_legible table record backend

theorem statement_read (sql : backend.dialect.isSql) (built : r.statement backend = .ok s) :
    Lexeme.ofText backend.dialect s.sql = some (Token.lexemes backend.dialect 1 s.tokens) := by
  have dialect := statement_dialect built
  rw [← dialect] at sql ⊢
  exact Statement.sql_read sql (statement_legible built)

end Request
end Sql
end StoreBridge
