import StoreBridge.Proofs.Sql.Acceptance
import StoreBridge.Proofs.Sql.Masking
import StoreBridge.Proofs.Sql.Picked
import StoreBridge.Proofs.Sql.Posed

/-!
The names in the text of a statement. Whatever characters they are made of, the text reads as
lexemes whose names are those of the request, in its order. Other names in their places change
what the name lexemes hold and nothing else.
-/
namespace StoreBridge

def Filter.names (d : Dialect) (f : Filter) : List String :=
  ((Filter.questions f).filter (Question.isTested d)).map Question.field

namespace Sql

namespace Lexeme
variable {Operand : Type}

def name? : Lexeme Operand → Option String
  | .name text => some text
  | _ => none

def names (lexemes : List (Lexeme Operand)) : List String := lexemes.filterMap name?

def unnamed : Lexeme Operand → Lexeme Operand
  | .name _ => .name ""
  | other => other

end Lexeme

namespace Token

def name? : Token → Option String
  | .name text => some text
  | _ => none

def unnamed : Token → Token
  | .name _ => .name ""
  | other => other

def Pick.names : Pick String where
  of := name?
  word _ := rfl
  symbol _ := rfl
  number _ := rfl
  space := rfl

theorem names_lexemes (d : Dialect) (index : Nat) (tokens : List Token) :
    Lexeme.names (lexemes d index tokens) = Pick.names.all tokens :=
  lexemes_filterMap (fun _ token => by cases token <;> rfl) index tokens

theorem lexemes_unnamed (d : Dialect) (index : Nat) (tokens : List Token) :
    lexemes d index (tokens.map unnamed) = (lexemes d index tokens).map Lexeme.unnamed :=
  lexemes_map (fun _ token => by cases token <;> rfl) (fun token => by cases token <;> rfl) index
    tokens

theorem splitDots_length (cs : List Char) : (splitDots cs).length = cs.count '.' + 1 := by
  induction cs with
  | nil => rfl
  | cons c rest ih =>
    cases known : splitDots rest with
    | nil => simp [known] at ih
    | cons part parts =>
      rw [known, List.length_cons] at ih
      by_cases dot : c = '.' <;> simp [splitDots, known, dot, ih]

theorem table_unnamed {left right : String}
    (dots : left.toList.count '.' = right.toList.count '.') :
    Alike unnamed (table left) (table right) := by
  have single {parts others : List (List Char)} (same : parts.length = others.length) :
      List.Forall₂ (Alike unnamed) (parts.map fun part => [.name (String.ofList part)])
        (others.map fun part => [.name (String.ofList part)]) := by
    induction parts generalizing others with
    | nil =>
      cases others with
      | nil => exact .nil
      | cons => simp at same
    | cons part rest ih =>
      cases others with
      | nil => simp at same
      | cons other others => exact .cons rfl (ih (Nat.succ.inj same))
  refine alike_intercalate _ (single ?_)
  rw [splitDots_length, splitDots_length, dots]

end Token

open Token

namespace Clause
variable {d : Dialect}

theorem ofMembers_names (field : String) (negated : Bool) (items : List Value) :
    Pick.names.all (ofMembers d field negated items).tokens =
      if items.isEmpty && !d.bindsLists then [] else [field] := by
  unfold ofMembers
  by_cases lists : d.bindsLists
  · simp only [lists, if_true, Bool.not_true, Bool.and_false, Bool.false_eq_true, if_false]
    rfl
  · cases items with
    | nil => simp [lists, Pick.all_always]
    | cons item rest =>
      have none : ((item :: rest).map d.stored).filterMap (fun operand =>
          Pick.names.of (.parameter operand)) = [] := List.filterMap_none _
      simp only [lists, Bool.false_eq_true, if_false, List.isEmpty_cons, Bool.false_and]
      rw [Pick.all_among, none]
      rfl

theorem ofMembers_unnamed (field other : String) (negated : Bool) (items : List Value) :
    (ofMembers d field negated items).Alike unnamed (ofMembers d other negated items) := by
  unfold ofMembers
  split
  · exact ⟨rfl, by simp⟩
  · split
    · exact ⟨rfl, .rfl⟩
    · exact ⟨rfl, by simp⟩

theorem writes_names {field : String} {op : Operator} {value : Value} {p : Predicate}
    (written : Writes d field op value p) :
    Pick.names.all p.tokens =
      if Question.isTested d ⟨field, op, value⟩ then [field] else [] := by
  cases written with
  | isIn items | notIn items =>
    rw [ofMembers_names]
    cases items with
    | nil => cases lists : d.bindsLists <;> simp [Question.isTested, lists]
    | cons item rest => simp [Question.isTested]
  | ilike => cases d.hasCaselessLike <;> rfl
  | present flag => cases flag <;> rfl
  | _ => rfl

theorem writes_unnamed {field : String} {op : Operator} {value : Value} {p : Predicate}
    (written : Writes d field op value p) (other : String) :
    ∃ q, Writes d other op value q ∧ p.Alike unnamed q := by
  cases written with
  | isNull => exact ⟨_, .isNull, rfl, by simp⟩
  | notNull => exact ⟨_, .notNull, rfl, by simp⟩
  | eq some => exact ⟨_, .eq some, rfl, by simp⟩
  | ne some => exact ⟨_, .ne some, rfl, by simp⟩
  | gt value => exact ⟨_, .gt value, rfl, by simp⟩
  | gte value => exact ⟨_, .gte value, rfl, by simp⟩
  | lt value => exact ⟨_, .lt value, rfl, by simp⟩
  | lte value => exact ⟨_, .lte value, rfl, by simp⟩
  | isIn items => exact ⟨_, .isIn items, ofMembers_unnamed _ _ _ _⟩
  | notIn items => exact ⟨_, .notIn items, ofMembers_unnamed _ _ _ _⟩
  | like pattern => exact ⟨_, .like pattern, rfl, by simp⟩
  | ilike pattern =>
    exact ⟨_, .ilike pattern, by cases Dialect.hasCaselessLike _ <;> rfl, by simp⟩
  | between low high => exact ⟨_, .between low high, rfl, by simp⟩
  | present flag => exact ⟨_, .present flag, rfl, by simp⟩

theorem ofFilter_names {f : Filter} {clause : Clause} (built : ofFilter d f = .ok clause) :
    Pick.names.inClause clause = Filter.names d f := by
  have named : Pick.names.inClause clause =
      (Filter.questions f).flatMap fun q => if q.isTested d then [q.field] else [] :=
    Pick.names.inClause_ofConditions writes_names (ofFilter_ok.mp built).2
  rw [named, Filter.names]
  induction Filter.questions f with
  | nil => rfl
  | cons q rest ih =>
    rw [List.flatMap_cons, ih, List.filter_cons]
    split <;> rfl

end Clause

/-- The names that a request brings into its statement, in the order of the text. A count gives its
    column a name of its own. -/
def Request.names (d : Dialect) : Request → List String
  | .select table filter options =>
    options.select ++ tableParts table ++ Filter.names d filter ++ options.sort.map Prod.fst
  | .count table filter => ["count"] ++ tableParts table ++ Filter.names d filter
  | .delete table filter => tableParts table ++ Filter.names d filter
  | .update table changes filter => tableParts table ++ changes.keys ++ Filter.names d filter
  | .insert table record => tableParts table ++ record.keys

/-- Hides all names: nothing is left of fields, and of a table its dots. -/
def Mask.names : Mask where
  table text := String.ofList (text.toList.filter (· == '.'))
  name _ := ""
  operand _ value := value
  value value := value
  token := Token.unnamed
  table_alike text := by
    refine Token.table_unnamed ?_
    rw [String.toList_ofList, List.count_filter (by rfl)]
  name_alike _ := rfl
  value_alike _ _ := rfl
  test_alike written := Clause.writes_unnamed written ""

namespace Request
variable {backend : Backend} {r other : Request} {s : Statement}

theorem statement_names (built : r.statement backend = .ok s) :
    Pick.names.all s.tokens = r.names backend.dialect := by
  have whole (texts : List String) : Pick.names.ofNames texts = texts := List.filterMap_some
  cases r with
  | select table filter options =>
    obtain ⟨clause, made, picked⟩ := Statement.select_picked Pick.names built
    rw [picked, whole, whole, whole, Clause.ofFilter_names made, names]
  | count table filter =>
    obtain ⟨clause, made, picked⟩ := Statement.countRows_picked Pick.names built
    rw [picked, whole, whole, Clause.ofFilter_names made, names]
  | delete table filter =>
    obtain ⟨clause, made, picked⟩ := Statement.delete_picked Pick.names built
    rw [picked, whole, Clause.ofFilter_names made, names]
  | update table changes filter =>
    obtain ⟨clause, made, picked⟩ := Statement.update_picked Pick.names built
    have set : (changes.flatMap fun field => Pick.names.all
        [.name field.1, .parameter (backend.dialect.stored field.2)]) = changes.keys :=
      List.flatMap_pure_eq_map _ changes
    rw [picked, whole, set, Clause.ofFilter_names made, names]
  | insert table record =>
    cases built
    have none : (record.filterMap fun field =>
        Pick.names.of (.parameter (backend.dialect.stored field.2))) = [] := List.filterMap_none _
    rw [Statement.insert_picked, whole, whole, none, List.append_nil, names]

theorem filter_renamed {d : Dialect} {f : Filter} {clause : Clause}
    (built : Clause.ofFilter d (Mask.names.filter f) = .ok clause) :
    ∃ other, Clause.ofFilter d f = .ok other := by
  refine Clause.ofFilter_accepts built (Clause.ofFilter_ok.mp built).1 ?_
  rw [Mask.filter, Filter.questions_replaced, List.map_map]
  rfl

theorem statement_renamed (built : (Mask.names.request r).statement backend = .ok s) :
    ∃ t, r.statement backend = .ok t := by
  cases r with
  | select table filter options =>
    obtain ⟨clause, made, _⟩ := Statement.select_built built
    obtain ⟨other, made⟩ := filter_renamed made
    exact ⟨_, by rw [statement, Statement.select, made]; rfl⟩
  | count table filter =>
    obtain ⟨clause, made, _⟩ := Statement.countRows_built built
    obtain ⟨other, made⟩ := filter_renamed made
    exact ⟨_, by rw [statement, Statement.countRows, made]; rfl⟩
  | delete table filter =>
    obtain ⟨clause, made, _⟩ := Statement.delete_built built
    obtain ⟨other, made⟩ := filter_renamed made
    exact ⟨_, by rw [statement, Statement.delete, made]; rfl⟩
  | update table changes filter =>
    obtain ⟨clause, made, _⟩ := Statement.update_built built
    obtain ⟨other, made⟩ := filter_renamed made
    cases changes with
    | nil => cases built
    | cons field rest => exact ⟨_, by rw [statement, Statement.update, made]; rfl⟩
  | insert table record => exact ⟨_, rfl⟩

/-- The names in the text of a statement are those of its request, in order. Other names in their
    places, in a table with as many dots, are served too, and leave every lexeme as it is but for
    what the names hold. -/
theorem names_confined {backend : Backend} {r : Request} {s : Statement}
    (sql : backend.dialect.isSql) (built : r.statement backend = .ok s) :
    ∃ lexemes, Lexeme.ofText backend.dialect s.sql = some lexemes ∧
      Lexeme.names lexemes = r.names backend.dialect ∧
      ∀ other : Request, Mask.names.request other = Mask.names.request r →
        ∃ t changed, other.statement backend = .ok t ∧
          Lexeme.ofText backend.dialect t.sql = some changed ∧
          Lexeme.names changed = other.names backend.dialect ∧
          changed.map Lexeme.unnamed = lexemes.map Lexeme.unnamed := by
  refine ⟨_, statement_read sql built, ?_, fun other same => ?_⟩
  · rw [names_lexemes, statement_names built]
  · obtain ⟨masked, hidden, _⟩ := Mask.names.statement_masked built
    rw [← same] at hidden
    obtain ⟨t, made⟩ := statement_renamed hidden
    refine ⟨t, _, made, statement_read sql made, ?_, ?_⟩
    · rw [names_lexemes, statement_names made]
    · have alike := Mask.names.statements_alike same made built
      rw [← lexemes_unnamed, ← lexemes_unnamed]
      exact congrArg (lexemes backend.dialect 1) alike

/-- Names made of brackets, of a statement's end and of a placeholder. -/
theorem names_confined_brackets :
    ∃ lexemes, Lexeme.ofText .mssql ("UPDATE [s].[t]]] SET [x]] = 1; --] = @p1 " ++
        "WHERE LOWER([@p1]) LIKE LOWER(@p2) AND 1=0") = some lexemes ∧
      Lexeme.names lexemes = ["s", "t]", "x] = 1; --", "@p1"] ∧
      ∃ t changed, (Request.update "." [("", .int 1)] [.operator "]" .ilike (.text "A%"),
          .operator "z" .isIn (.array [])]).statement .mssql = .ok t ∧
        Lexeme.ofText .mssql t.sql = some changed ∧
        Lexeme.names changed = ["", "", "", "]"] ∧
        changed.map Lexeme.unnamed = lexemes.map Lexeme.unnamed := by
  have built : (Request.update "s.t]" [("x] = 1; --", .int 1)] [.operator "@p1" .ilike (.text "A%"),
      .operator "gone" .isIn (.array [])]).statement .mssql = .ok _ := rfl
  obtain ⟨lexemes, read, named, others⟩ := names_confined rfl built
  exact ⟨lexemes, read, named, others _ rfl⟩

end Request
end Sql
end StoreBridge
