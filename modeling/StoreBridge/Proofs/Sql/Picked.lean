import StoreBridge.Proofs.Filter.Questions
import StoreBridge.Proofs.Sql.StatementText
import StoreBridge.Proofs.Sql.Compilation

/-!
What is picked out of tokens one by one, such as their parameters or their names. Where keywords,
marks and numbers hold nothing of it, a clause holds what its filter asks, question by question: a
branch that a group leaves out has held nothing.
-/
namespace StoreBridge.Sql

/-- A choice among tokens that takes no keyword, no mark, no number and no space. -/
structure Token.Pick (α : Type) where
  of : Token → Option α
  word : ∀ text, of (.word text) = none
  symbol : ∀ text, of (.symbol text) = none
  number : ∀ text, of (.number text) = none
  space : of .space = none

namespace Token.Pick
variable {α : Type} (pick : Pick α)

def all (tokens : List Token) : List α := tokens.filterMap pick.of

def ofNames (texts : List String) : List α := texts.filterMap fun text => pick.of (.name text)

@[simp] theorem all_nil : pick.all [] = [] := rfl

@[simp] theorem all_append (before after : List Token) :
    pick.all (before ++ after) = pick.all before ++ pick.all after :=
  List.filterMap_append

@[simp] theorem all_cons_word (text : String) (rest : List Token) :
    pick.all (.word text :: rest) = pick.all rest :=
  List.filterMap_cons_none (pick.word text)

@[simp] theorem all_cons_symbol (text : String) (rest : List Token) :
    pick.all (.symbol text :: rest) = pick.all rest :=
  List.filterMap_cons_none (pick.symbol text)

@[simp] theorem all_cons_number (text : String) (rest : List Token) :
    pick.all (.number text :: rest) = pick.all rest :=
  List.filterMap_cons_none (pick.number text)

@[simp] theorem all_cons_space (rest : List Token) : pick.all (.space :: rest) = pick.all rest :=
  List.filterMap_cons_none pick.space

theorem all_cons (token : Token) (rest : List Token) :
    pick.all (token :: rest) = pick.all [token] ++ pick.all rest :=
  pick.all_append [token] rest

theorem all_intercalate {between : List Token} (bare : pick.all between = [])
    (parts : List (List Token)) :
    pick.all (List.intercalate between parts) = parts.flatMap pick.all := by
  induction parts with
  | nil => rfl
  | cons part rest ih =>
    cases rest with
    | nil => simp
    | cons next rest =>
      rw [List.intercalate_cons_cons, all_append, all_append, bare, ih]
      simp

@[simp] theorem all_spaced (parts : List (List Token)) :
    pick.all (spaced parts) = parts.flatMap pick.all :=
  pick.all_intercalate (by simp) parts

@[simp] theorem all_listed (parts : List (List Token)) :
    pick.all (listed parts) = parts.flatMap pick.all :=
  pick.all_intercalate (by simp) parts

@[simp] theorem all_inParens (tokens : List Token) :
    pick.all (inParens tokens) = pick.all tokens := by
  simp [inParens]

@[simp] theorem all_words (texts : List String) : pick.all (words texts) = [] := by
  rw [words, pick.all_intercalate (by simp), List.flatMap_map, List.flatMap_eq_nil_iff]
  exact fun text _ => by simp

theorem all_singles {β : Type} (token : β → Token) (items : List β) :
    (items.flatMap fun item => pick.all [token item]) =
      items.filterMap fun item => pick.of (token item) := by
  induction items with
  | nil => rfl
  | cons item rest ih =>
    rw [List.flatMap_cons, ih]
    cases held : pick.of (token item) with
    | none => simp [all, held]
    | some found => simp [all, held]

theorem all_name (text : String) : pick.all [.name text] = pick.ofNames [text] := by
  simp [all, ofNames, List.filterMap_cons]

@[simp] theorem all_names (texts : List String) : pick.all (names texts) = pick.ofNames texts := by
  rw [names, all_listed, List.flatMap_map]
  exact pick.all_singles .name texts

end Token.Pick

def tableParts (text : String) : List String :=
  (text.toList.splitOn '.').map String.ofList

theorem Token.splitDots_eq (cs : List Char) : splitDots cs = cs.splitOn '.' := by
  induction cs with
  | nil => rfl
  | cons c rest ih =>
    obtain ⟨part, parts, known⟩ := List.exists_cons_of_ne_nil (List.splitOn_ne_nil '.' rest)
    rw [List.splitOn_cons_eq_if_modifyHead, splitDots, ih, known]
    by_cases dot : c = '.' <;> simp [dot]

namespace Token.Pick
variable {α : Type} (pick : Pick α)

@[simp] theorem all_table (text : String) :
    pick.all (table text) = pick.ofNames (tableParts text) := by
  rw [table, splitDots_eq, pick.all_intercalate (by simp), List.flatMap_map, ofNames, tableParts,
    List.filterMap_map]
  exact pick.all_singles (fun part => .name (String.ofList part)) _

/-! Clauses. -/

@[simp] theorem all_conjoined (parts : List (List Token)) :
    pick.all (Predicate.conjoined parts) = parts.flatMap pick.all := by
  cases parts with
  | nil => simp [Predicate.conjoined, Predicate.constant]
  | cons part rest => exact pick.all_intercalate (by simp) _

theorem all_always (holds : Bool) : pick.all (Predicate.always holds).tokens = [] := by
  simp [Predicate.tokens, Predicate.constant]

theorem all_among (column : String) (negated : Bool) (operands : List Value) :
    pick.all (Predicate.among column negated operands).tokens = pick.ofNames [column] ++
      operands.filterMap fun operand => pick.of (.parameter operand) := by
  rw [Predicate.tokens, List.cons_append, List.cons_append, all_cons, all_cons_space, all_append,
    all_words, List.nil_append, all_cons_space, all_inParens, all_listed, List.flatMap_map,
    all_singles, all_name]

def inClause (c : Clause) : List α := pick.all c.tokens

theorem inClause_cons (p : Predicate) (c : Clause) :
    pick.inClause (p :: c) = pick.all p.tokens ++ pick.inClause c := by
  simp only [inClause, Clause.tokens, all_conjoined, Predicate.clauseTokens, List.flatMap_cons]

theorem inClause_append (left right : Clause) :
    pick.inClause (left ++ right) = pick.inClause left ++ pick.inClause right := by
  induction left with
  | nil => simp [inClause, Clause.tokens, Predicate.clauseTokens]
  | cons p rest ih => rw [List.cons_append, inClause_cons, inClause_cons, ih, List.append_assoc]

theorem all_group (joiner : Joiner) (branches : List Clause) :
    pick.all (Predicate.group joiner branches).tokens = branches.flatMap pick.inClause := by
  rw [Predicate.tokens, all_inParens, pick.all_intercalate (by simp)]
  induction branches with
  | nil => rfl
  | cons branch rest ih =>
    rw [Predicate.branchTokens, List.flatMap_cons, List.flatMap_cons, ih, all_inParens]
    rfl

theorem all_not (inner : Clause) :
    pick.all (Predicate.not inner).tokens = pick.inClause inner := by
  rw [Predicate.tokens, all_cons_word, all_cons_space, all_inParens]
  rfl

theorem inClause_matchesAll {c : Clause} (every : c.matchesAll) : pick.inClause c = [] := by
  match c, every with
  | [], _ => simp [inClause, Clause.tokens, Predicate.clauseTokens]
  | [.always true], _ =>
    simp [inClause, Clause.tokens, Predicate.clauseTokens, all_always]

theorem inClause_grouped (joiner : Joiner) (branches : List Clause) :
    pick.inClause (Clause.grouped joiner branches) = branches.flatMap pick.inClause := by
  have kept : (branches.filter fun branch => !branch.matchesAll).flatMap pick.inClause =
      branches.flatMap pick.inClause := by
    induction branches with
    | nil => rfl
    | cons branch rest ih =>
      cases every : branch.matchesAll with
      | true => simpa [every, pick.inClause_matchesAll every] using ih
      | false => simpa [every] using ih
  rw [← kept, Clause.grouped]
  cases survivors : branches.filter fun branch => !branch.matchesAll with
  | nil => simp [inClause, Clause.tokens, Predicate.clauseTokens]
  | cons first rest =>
    simp only [List.isEmpty_cons, Bool.false_eq_true, if_false]
    rw [inClause_cons, all_group]
    simp [inClause, Clause.tokens, Predicate.clauseTokens]

@[simp] theorem all_whereTokens (c : Clause) : pick.all c.whereTokens = pick.inClause c := by
  unfold Clause.whereTokens
  split
  · rename_i every
    exact (pick.inClause_matchesAll every).symm
  · simp [inClause]

theorem inClause_ofConditions {d : Dialect} {held : Question → List α}
    (each : ∀ {field op value p}, Clause.Writes d field op value p →
      pick.all p.tokens = held ⟨field, op, value⟩)
    {filter : List Condition} {clause : Clause}
    (built : Clause.ofConditions d filter = .ok clause) :
    pick.inClause clause = (Filter.questions filter).flatMap held := by
  have branches_hold {branches : List (List Condition)} {clauses : List Clause}
      (inside : List.Forall₂ (fun branch clause =>
        pick.inClause clause = (Filter.questions branch).flatMap held) branches clauses) :
      clauses.flatMap pick.inClause = (Filter.branchQuestions branches).flatMap held := by
    induction inside with
    | nil => rfl
    | cons first _ ih =>
      rw [List.flatMap_cons, first, ih, Filter.branchQuestions, List.flatMap_append]
  refine Clause.compiled_induct (motive := fun filter clause =>
    pick.inClause clause = (Filter.questions filter).flatMap held)
    ?empty ?leaf ?operator ?and ?or ?not built
  case empty => simp [inClause, Clause.tokens, Predicate.clauseTokens, Filter.questions]
  case leaf =>
    intro field value rest tail ih
    rw [inClause_cons, each (Clause.ofLeaf_writes d field value), ih]
    rfl
  case operator =>
    intro field op value p rest tail made ih
    rw [inClause_cons, each (Clause.ofOperator_writes made), ih]
    rfl
  case and | or =>
    intro branches clauses rest tail _ inside ih
    rw [inClause_append, inClause_grouped, branches_hold inside, ih, Filter.questions,
      List.flatMap_append]
    rfl
  case not =>
    intro inner clause rest tail inside ih
    rw [inClause_cons, all_not, inside, ih, Filter.questions, List.flatMap_append]
    rfl

/-! Statements. -/

@[simp] theorem all_orderBy (sort : List (String × Direction)) :
    pick.all (Statement.orderBy sort) = pick.ofNames (sort.map Prod.fst) := by
  have fields : pick.all (Statement.sortTokens sort) = pick.ofNames (sort.map Prod.fst) := by
    rw [Statement.sortTokens, all_listed, List.flatMap_map, ofNames, List.filterMap_map]
    refine Eq.trans ?_ (pick.all_singles (fun entry : String × Direction => .name entry.1) sort)
    refine List.flatMap_congr fun entry _ => ?_
    rw [all_cons, all_cons_space, all_cons_word, all_nil, List.append_nil]
  cases sort with
  | nil => rfl
  | cons entry rest => simp [Statement.orderBy, fields]

@[simp] theorem all_selectList (fields : List String) :
    pick.all (Statement.selectList fields) = pick.ofNames fields := by
  cases fields with
  | nil => simp [Statement.selectList, ofNames]
  | cons field rest => simp [Statement.selectList]

@[simp] theorem all_window (d : Dialect) (limit offset : Option Nat) :
    pick.all (Statement.window d limit offset) = [] := by
  cases d <;> cases limit <;> cases offset <;>
    simp [Statement.window, Statement.fetchWindow, Statement.limitWindow, Statement.skipped,
      Statement.limited, Statement.count]

theorem all_tail (d : Dialect) (options : FindOptions) :
    (Statement.tail d options).flatMap pick.all = pick.ofNames (options.sort.map Prod.fst) := by
  have kept (parts : List (List Token)) :
      (parts.filter fun part => !part.isEmpty).flatMap pick.all = parts.flatMap pick.all := by
    induction parts with
    | nil => rfl
    | cons part rest ih => cases part <;> simp [ih]
  rw [Statement.tail, kept]
  simp only [List.flatMap_cons, List.flatMap_nil, all_window, List.append_nil]
  split
  · rename_i none
    -- The order that stands in for none is of no field.
    simp only [Bool.and_eq_true, List.isEmpty_iff] at none
    rw [← all_orderBy, none.1.1]
    simp [Statement.anyOrder]
  · exact pick.all_orderBy options.sort

theorem all_assignments (d : Dialect) (fields : Record) :
    pick.all (Statement.assignments d fields) = fields.flatMap fun field =>
      pick.all [.name field.1, .parameter (d.stored field.2)] := by
  rw [Statement.assignments, all_listed, List.flatMap_map]
  refine List.flatMap_congr fun field _ => ?_
  rw [all_cons, all_cons_space, all_cons_symbol, all_cons_space]
  exact (pick.all_cons _ _).symm

theorem all_fieldParameters (d : Dialect) (fields : Record) :
    (Statement.fieldParameters d fields).flatMap pick.all = fields.filterMap fun field =>
      pick.of (.parameter (d.stored field.2)) := by
  rw [Statement.fieldParameters, List.flatMap_map]
  exact pick.all_singles (fun field : String × Value => .parameter (d.stored field.2)) fields

end Token.Pick

namespace Statement
variable {α : Type} (pick : Token.Pick α) {table : String} {filter : Filter}
  {options : FindOptions} {record : Record} {d : Dialect} {s : Statement}

theorem select_picked (built : select table filter options d = .ok s) :
    ∃ clause, Clause.ofFilter d filter = .ok clause ∧
      pick.all s.tokens = pick.ofNames options.select ++ pick.ofNames (tableParts table) ++
        pick.inClause clause ++ pick.ofNames (options.sort.map Prod.fst) := by
  obtain ⟨clause, made, rfl⟩ := select_built built
  refine ⟨clause, made, ?_⟩
  simp [pick.all_tail]

theorem countRows_picked (built : countRows table filter d = .ok s) :
    ∃ clause, Clause.ofFilter d filter = .ok clause ∧
      pick.all s.tokens = pick.ofNames ["count"] ++ pick.ofNames (tableParts table) ++
        pick.inClause clause := by
  obtain ⟨clause, made, rfl⟩ := countRows_built built
  refine ⟨clause, made, ?_⟩
  simp [pick.all_name]

theorem delete_picked (built : delete table filter d = .ok s) :
    ∃ clause, Clause.ofFilter d filter = .ok clause ∧
      pick.all s.tokens = pick.ofNames (tableParts table) ++ pick.inClause clause := by
  obtain ⟨clause, made, rfl⟩ := delete_built built
  refine ⟨clause, made, ?_⟩
  simp

theorem update_picked (built : update table record filter d = .ok s) :
    ∃ clause, Clause.ofFilter d filter = .ok clause ∧
      pick.all s.tokens = pick.ofNames (tableParts table) ++
        (record.flatMap fun field => pick.all [.name field.1, .parameter (d.stored field.2)]) ++
        pick.inClause clause := by
  obtain ⟨clause, made, rfl⟩ := update_built built
  refine ⟨clause, made, ?_⟩
  simp [pick.all_assignments]

theorem insert_picked (table : String) (record : Record) (backend : Backend) :
    pick.all (insert table record backend).tokens = pick.ofNames (tableParts table) ++
      pick.ofNames record.keys ++
      record.filterMap fun field => pick.of (.parameter (backend.dialect.stored field.2)) := by
  have output : (outputTokens backend.insertStrategy).flatMap pick.all = [] := by
    cases backend <;> simp [outputTokens, Backend.insertStrategy]
  have returning : (returningTokens backend.insertStrategy).flatMap pick.all = [] := by
    cases backend <;> simp [returningTokens, Backend.insertStrategy]
  have defaults : pick.all (defaultValues backend.dialect) = [] := by
    cases backend <;> simp [defaultValues, Backend.dialect]
  unfold insert
  split
  · rename_i empty
    rw [List.isEmpty_iff] at empty
    subst empty
    simp [output, returning, defaults, Token.Pick.ofNames, Entries.keys]
  · simp [output, returning, pick.all_fieldParameters]

end Statement
end StoreBridge.Sql
