import StoreBridge.Proofs.Sql.Legible
import StoreBridge.Sql.Statement

/-!
The texts of clauses and of the statements on rows can be read back: whatever their names and
values are, their tokens are legible. A statement's text then reads as the lexemes of its tokens,
numbered from one.
-/
namespace StoreBridge.Sql
open Lexeme Token

namespace Predicate

theorem constant_legible (holds : Bool) : Legible (constant holds) := by
  cases holds <;> exact ⟨by decide, by decide⟩

theorem conjoined_legible {parts : List (List Token)} (each : ∀ part ∈ parts, Legible part) :
    Legible (conjoined parts) := by
  unfold conjoined
  split
  · exact constant_legible true
  · exact legible_joined (by decide) (by decide) ⟨by decide, by decide⟩ each

theorem matchingTokens_legible (column : String) (pattern : Value) (test : PatternTest) :
    Legible (matchingTokens column pattern test) := by
  cases test with
  | like | caseless =>
    exact legible_cons_solo (by decide) rfl
      (legible_cons_solo (by decide) (by decide) (legible_singleton rfl))
  | lowered =>
    have pattern : Legible ([.space, .word "LIKE", .space, .word "LOWER", .symbol "(",
        .parameter pattern, .symbol ")"]) :=
      legible_solo_cons (by decide) (legible_cons_solo (by decide) (by decide)
        (legible_cons_solo (by decide) (by decide)
          (legible_cons_solo (by decide) rfl legible_nil)))
    exact legible_cons_solo (by decide) (by decide) (legible_cons_solo (by decide) rfl pattern)

mutual

theorem tokens_legible (p : Predicate) : Legible p.tokens := by
  match p with
  | .always holds => exact constant_legible holds
  | .null column negated =>
    have spelled : ∀ text ∈ if negated then ["IS", "NOT", "NULL"] else ["IS", "NULL"],
        (Token.word text).isSpelled := by
      cases negated <;> decide
    exact legible_cons_solo (by decide) rfl (legible_words spelled)
  | .compare column comparison operand =>
    have spelled : (Token.symbol comparison.symbol).isSpelled := by cases comparison <;> decide
    exact legible_cons_solo (by decide) rfl
      (legible_cons_solo (by decide) spelled (legible_singleton rfl))
  | .among column negated operands =>
    have spelled : ∀ text ∈ if negated then ["NOT", "IN"] else ["IN"],
        (Token.word text).isSpelled := by
      cases negated <;> decide
    have each : ∀ part ∈ operands.map fun operand => [Token.parameter operand], Legible part := by
      intro part mem
      obtain ⟨operand, _, rfl⟩ := List.mem_map.mp mem
      exact legible_singleton rfl
    exact legible_cons_solo (by decide) rfl
      (legible_around (by decide) (legible_words spelled) (legible_inParens (legible_listed each)))
  | .inList column negated operands =>
    have sign : (Token.symbol (if negated then "!=" else "=")).isSpelled := by
      cases negated <;> decide
    have quantifier : (Token.word (if negated then "ALL" else "ANY")).isSpelled := by
      cases negated <;> decide
    exact legible_cons_solo (by decide) rfl (legible_cons_solo (by decide) sign
      (legible_cons_solo (by decide) quantifier
        (legible_cons_solo (by decide) rfl legible_nil)))
  | .matching column test pattern =>
    exact matchingTokens_legible column pattern test
  | .between column low high =>
    exact legible_cons_solo (by decide) rfl (legible_cons_solo (by decide) (by decide)
      (legible_cons_solo (by decide) rfl (legible_cons_solo (by decide) (by decide)
        (legible_singleton rfl))))
  | .group joiner branches =>
    unfold Predicate.tokens
    refine legible_inParens (legible_joined rfl ?_ ?_ (branchTokens_legible branches))
    · cases joiner <;> decide
    · cases joiner <;> exact ⟨by decide, by decide⟩
  | .not inner =>
    unfold Predicate.tokens
    exact legible_cons_solo (by decide) (by decide)
      (legible_inParens (conjoined_legible (clauseTokens_legible inner)))

theorem clauseTokens_legible (c : List Predicate) : ∀ part ∈ clauseTokens c, Legible part := by
  match c with
  | [] => simp [clauseTokens]
  | predicate :: rest =>
    intro part mem
    rw [clauseTokens, List.mem_cons] at mem
    rcases mem with rfl | mem
    · exact tokens_legible predicate
    · exact clauseTokens_legible rest part mem

theorem branchTokens_legible (branches : List (List Predicate)) :
    ∀ part ∈ branchTokens branches, Legible part := by
  match branches with
  | [] => simp [branchTokens]
  | branch :: rest =>
    intro part mem
    rw [branchTokens, List.mem_cons] at mem
    rcases mem with rfl | mem
    · exact legible_inParens (conjoined_legible (clauseTokens_legible branch))
    · exact branchTokens_legible rest part mem

end

end Predicate

namespace Clause

theorem legible (c : Clause) : Legible c.tokens :=
  Predicate.conjoined_legible (Predicate.clauseTokens_legible c)

theorem behind_legible {front : List Token} (c : Clause) (known : Legible front) :
    Legible (front ++ c.whereTokens) := by
  unfold whereTokens
  split
  · simpa using known
  · exact legible_around (by decide) known (legible_cons_solo (by decide) (by decide) c.legible)

theorem text_read {d : Dialect} (sql : d.isSql) (index : Nat) (c : Clause) :
    Lexeme.ofText d (c.text d index) = some (lexemes d index c.tokens) :=
  ofText_render sql c.legible

end Clause

namespace Statement

theorem count_spelled (n : Nat) : (count n).isSpelled := by
  obtain ⟨c, cs, digits⟩ := List.exists_cons_of_ne_nil (Nat.toDigits_ne_nil (n := n) (b := 10))
  have each : ∀ x ∈ c :: cs, x.isDigit := fun x mem =>
    Nat.isDigit_of_mem_toDigits (by decide) (by decide) (digits ▸ mem)
  simp only [count, Digits.ofNat, isSpelled, Nat.toString_eq_repr, Nat.toList_repr, digits,
    Bool.and_eq_true, List.all_eq_true]
  refine ⟨by simp [startsNumber, each c (by simp)], fun x mem => ?_⟩
  simp [isWordChar, Char.isAlphanum, each x (by simp [mem])]

theorem sortTokens_legible (sort : List (String × Direction)) : Legible (sortTokens sort) := by
  refine legible_listed fun part mem => ?_
  obtain ⟨entry, _, rfl⟩ := List.mem_map.mp mem
  refine legible_cons_solo (by decide) rfl (legible_singleton ?_)
  cases entry.2 <;> decide

theorem orderBy_legible (sort : List (String × Direction)) : Legible (orderBy sort) := by
  unfold orderBy
  split
  · exact legible_nil
  · exact legible_around (by decide) (legible_words (by decide)) (sortTokens_legible sort)

theorem selectList_legible (fields : List String) : Legible (selectList fields) := by
  unfold selectList
  split
  · exact legible_singleton (by decide)
  · exact legible_names fields

theorem skipped_legible (n : Nat) : Legible (skipped n) :=
  legible_cons_solo (by decide) (by decide) (legible_singleton (count_spelled n))

theorem limited_legible (n : Nat) : Legible (limited n) :=
  legible_cons_solo (by decide) (by decide) (legible_singleton (count_spelled n))

theorem fetchWindow_legible (limit offset : Option Nat) : Legible (fetchWindow limit offset) := by
  cases limit with
  | none =>
    cases offset with
    | none => exact legible_nil
    | some offset =>
      exact legible_around (by decide) (skipped_legible offset) (legible_singleton (by decide))
  | some limit =>
    refine legible_spaced fun part mem => ?_
    simp only [List.mem_cons, List.not_mem_nil, or_false] at mem
    rcases mem with rfl | rfl | rfl | rfl
    · exact skipped_legible _
    · exact legible_words (by decide)
    · exact legible_singleton (count_spelled limit)
    · exact legible_words (by decide)

theorem limitWindow_legible (d : Dialect) (limit offset : Option Nat) :
    Legible (limitWindow d limit offset) := by
  have pair {first second : List Token} (left : Legible first) (right : Legible second) :
      Legible (spaced [first, second]) := by
    refine legible_spaced fun part mem => ?_
    simp only [List.mem_cons, List.not_mem_nil, or_false] at mem
    rcases mem with rfl | rfl
    · exact left
    · exact right
  cases limit with
  | none =>
    cases offset with
    | none => exact legible_nil
    | some offset =>
      have behind := skipped_legible offset
      cases d with
      | mysql => exact pair (limited_legible boundless) behind
      | sqlite =>
        have front : Legible [.word "LIMIT", .space, .number "-1"] :=
          legible_cons_solo (by decide) (by decide) (legible_singleton (by decide))
        exact pair front behind
      | _ => exact behind
  | some limit =>
    cases offset with
    | none => exact limited_legible limit
    | some offset => exact pair (limited_legible limit) (skipped_legible offset)

theorem tail_legible (d : Dialect) (options : FindOptions) :
    ∀ part ∈ tail d options, Legible part := by
  intro part mem
  simp only [tail, List.mem_filter, List.mem_cons, List.not_mem_nil, or_false] at mem
  rcases mem.1 with rfl | rfl
  · split
    · exact legible_around (by decide) (legible_words (by decide))
        (legible_inParens (legible_words (by decide)))
    · exact orderBy_legible options.sort
  · unfold window
    split
    · exact fetchWindow_legible _ _
    · exact limitWindow_legible d _ _

/-! Each statement is built from the clause of its filter, and fails only with it. -/

theorem select_built {table : String} {filter : Filter} {options : FindOptions} {d : Dialect}
    {s : Statement} (built : select table filter options d = .ok s) :
    ∃ clause, Clause.ofFilter d filter = .ok clause ∧
      s = ⟨d, spaced (spaced [[.word "SELECT"], selectList options.select, [.word "FROM"],
        Token.table table ++ clause.whereTokens] :: tail d options)⟩ := by
  cases compiled : Clause.ofFilter d filter with
  | error e => simp [select, compiled, bind, Except.bind] at built
  | ok clause =>
    simp only [select, compiled, bind, Except.bind, Except.ok.injEq] at built
    exact ⟨clause, rfl, built.symm⟩

theorem countRows_built {table : String} {filter : Filter} {d : Dialect} {s : Statement}
    (built : countRows table filter d = .ok s) :
    ∃ clause, Clause.ofFilter d filter = .ok clause ∧
      s = ⟨d, spaced [[.word "SELECT"], .word "COUNT" :: inParens [.symbol "*"], [.word "AS"],
        [.name "count"], [.word "FROM"], Token.table table ++ clause.whereTokens]⟩ := by
  cases compiled : Clause.ofFilter d filter with
  | error e => simp [countRows, compiled, bind, Except.bind] at built
  | ok clause =>
    simp only [countRows, compiled, bind, Except.bind, Except.ok.injEq] at built
    exact ⟨clause, rfl, built.symm⟩

theorem delete_built {table : String} {filter : Filter} {d : Dialect} {s : Statement}
    (built : delete table filter d = .ok s) :
    ∃ clause, Clause.ofFilter d filter = .ok clause ∧
      s = ⟨d, spaced [words ["DELETE", "FROM"], Token.table table ++ clause.whereTokens]⟩ := by
  cases compiled : Clause.ofFilter d filter with
  | error e => simp [delete, compiled, bind, Except.bind] at built
  | ok clause =>
    simp only [delete, compiled, bind, Except.bind, Except.ok.injEq] at built
    exact ⟨clause, rfl, built.symm⟩

theorem update_built {table : String} {fields : Record} {filter : Filter} {d : Dialect}
    {s : Statement} (built : update table fields filter d = .ok s) :
    ∃ clause, Clause.ofFilter d filter = .ok clause ∧
      s = ⟨d, spaced [[.word "UPDATE"], Token.table table, [.word "SET"],
        assignments d fields ++ clause.whereTokens]⟩ := by
  by_cases empty : fields.isEmpty
  · simp [update, empty, refuse] at built
  · cases compiled : Clause.ofFilter d filter with
    | error e => simp [update, empty, compiled, bind, Except.bind] at built
    | ok clause =>
      simp only [update, empty, compiled, bind, Except.bind, Except.ok.injEq,
        Bool.false_eq_true, if_false] at built
      exact ⟨clause, rfl, built.symm⟩

/-! What is written can be read. -/

theorem select_legible {table : String} {filter : Filter} {options : FindOptions} {d : Dialect}
    {s : Statement} (built : select table filter options d = .ok s) : Legible s.tokens := by
  obtain ⟨clause, _, rfl⟩ := select_built built
  refine legible_spaced fun part mem => ?_
  rcases List.mem_cons.mp mem with rfl | mem
  · refine legible_spaced fun part mem => ?_
    simp only [List.mem_cons, List.not_mem_nil, or_false] at mem
    rcases mem with rfl | rfl | rfl | rfl
    · exact legible_singleton (by decide)
    · exact selectList_legible options.select
    · exact legible_singleton (by decide)
    · exact clause.behind_legible (legible_table table)
  · exact tail_legible d options part mem

theorem countRows_legible {table : String} {filter : Filter} {d : Dialect} {s : Statement}
    (built : countRows table filter d = .ok s) : Legible s.tokens := by
  obtain ⟨clause, _, rfl⟩ := countRows_built built
  refine legible_spaced fun part mem => ?_
  simp only [List.mem_cons, List.not_mem_nil, or_false] at mem
  rcases mem with rfl | rfl | rfl | rfl | rfl | rfl
  · exact legible_singleton (by decide)
  · exact ⟨by decide, by decide⟩
  · exact legible_singleton (by decide)
  · exact legible_singleton rfl
  · exact legible_singleton (by decide)
  · exact clause.behind_legible (legible_table table)

theorem delete_legible {table : String} {filter : Filter} {d : Dialect} {s : Statement}
    (built : delete table filter d = .ok s) : Legible s.tokens := by
  obtain ⟨clause, _, rfl⟩ := delete_built built
  refine legible_spaced fun part mem => ?_
  simp only [List.mem_cons, List.not_mem_nil, or_false] at mem
  rcases mem with rfl | rfl
  · exact legible_words (by decide)
  · exact clause.behind_legible (legible_table table)

theorem assignments_legible (d : Dialect) (fields : Record) : Legible (assignments d fields) := by
  refine legible_listed fun part mem => ?_
  obtain ⟨field, _, rfl⟩ := List.mem_map.mp mem
  exact legible_cons_solo (by decide) rfl
    (legible_cons_solo (by decide) (by decide) (legible_singleton rfl))

theorem update_legible {table : String} {fields : Record} {filter : Filter} {d : Dialect}
    {s : Statement} (built : update table fields filter d = .ok s) : Legible s.tokens := by
  obtain ⟨clause, _, rfl⟩ := update_built built
  refine legible_spaced fun part mem => ?_
  simp only [List.mem_cons, List.not_mem_nil, or_false] at mem
  rcases mem with rfl | rfl | rfl | rfl
  · exact legible_singleton (by decide)
  · exact legible_table table
  · exact legible_singleton (by decide)
  · exact clause.behind_legible (assignments_legible d fields)

theorem insert_legible (table : String) (record : Record) (backend : Backend) :
    Legible (insert table record backend).tokens := by
  have start : ∀ part ∈ [words ["INSERT", "INTO"], Token.table table], Legible part := by
    intro part mem
    simp only [List.mem_cons, List.not_mem_nil, or_false] at mem
    rcases mem with rfl | rfl
    · exact legible_words (by decide)
    · exact legible_table table
  have output : ∀ part ∈ outputTokens backend.insertStrategy, Legible part := by
    cases backend <;> simp [outputTokens, Backend.insertStrategy]
    exact ⟨by decide, by decide⟩
  have returning : ∀ part ∈ returningTokens backend.insertStrategy, Legible part := by
    cases backend <;> simp [returningTokens, Backend.insertStrategy] <;>
      exact ⟨by decide, by decide⟩
  unfold insert
  split
  · refine legible_spaced fun part mem => ?_
    simp only [List.mem_append, List.mem_singleton] at mem
    rcases mem with ((mem | mem) | rfl) | mem
    · exact start part mem
    · exact output part mem
    · cases backend <;> exact ⟨by decide, by decide⟩
    · exact returning part mem
  · refine legible_spaced fun part mem => ?_
    simp only [List.mem_append, List.mem_singleton] at mem
    rcases mem with (((mem | rfl) | mem) | mem) | mem
    · exact start part mem
    · exact legible_inParens (legible_names record.keys)
    · exact output part mem
    · simp only [List.mem_cons, List.not_mem_nil, or_false] at mem
      rcases mem with rfl | rfl
      · exact legible_singleton (by decide)
      · refine legible_inParens (legible_listed fun part mem => ?_)
        obtain ⟨field, _, rfl⟩ := List.mem_map.mp mem
        exact legible_singleton rfl
    · exact returning part mem

theorem sql_read {s : Statement} (sql : s.dialect.isSql) (legible : Legible s.tokens) :
    Lexeme.ofText s.dialect s.sql = some (lexemes s.dialect 1 s.tokens) :=
  ofText_render sql legible

end Statement

end StoreBridge.Sql
