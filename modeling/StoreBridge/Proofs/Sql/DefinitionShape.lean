import StoreBridge.Proofs.Sql.Uniqueness

/-!
The shape of the text that defines a table: how many primary keys it states, and where; which of its
columns take no nulls; and where a column counts up by itself. Names and literals that are made of
these very words do not count, since a reader takes them for names and literals.
-/
namespace StoreBridge.Sql

namespace Lexeme

def pairCount (first second : String) : List (Lexeme String) → Nat
  | [] => 0
  | lexeme :: rest =>
    (if lexeme = .word first ∧ rest.head? = some (.word second) then 1 else 0) +
      pairCount first second rest

/-- The word stands right behind the phrase wherever it stands, and only where it is allowed. -/
def OnlyBehind (phrase : List (Lexeme String)) (word : Lexeme String) (allowed : Prop)
    (lexemes : List (Lexeme String)) : Prop :=
  ∀ before behind, lexemes = before ++ word :: behind → allowed ∧ phrase <:+ before

section
variable {first second : String} {left right : List (Lexeme String)}

theorem pairCount_append (other : right.head? ≠ some (.word second)) :
    pairCount first second (left ++ right) =
      pairCount first second left + pairCount first second right := by
  induction left with
  | nil => simp [pairCount]
  | cons lexeme left ih =>
    have next : (left ++ right).head? = some (.word second) ↔
        left.head? = some (.word second) := by
      cases left with
      | nil => simpa using other
      | cons => simp
    simp only [List.cons_append, pairCount, ih, next, Nat.add_assoc]

theorem pairCount_absent (absent : Lexeme.word first ∉ right) :
    pairCount first second right = 0 := by
  induction right with
  | nil => rfl
  | cons lexeme right ih =>
    rw [List.mem_cons, not_or] at absent
    rw [pairCount, if_neg fun pair => absent.1 pair.1.symm, ih absent.2]

theorem pairCount_phrase (differ : first ≠ second) (before : Lexeme.word first ∉ left)
    (behind : Lexeme.word first ∉ right) :
    pairCount first second (left ++ ([.word first, .word second] ++ right)) = 1 := by
  have tail : Lexeme.word first ∉ .word second :: right := by
    simp [differ, behind]
  rw [pairCount_append (by simp [differ]), pairCount_absent before, List.cons_append, pairCount,
    if_pos ⟨rfl, rfl⟩, List.singleton_append, pairCount_absent tail]

theorem pairCount_flag (flag : Bool) (differ : first ≠ second)
    (before : Lexeme.word first ∉ left) (behind : Lexeme.word first ∉ right) :
    pairCount first second
        (left ++ ((if flag then [.word first, .word second] else []) ++ right)) =
      if flag then 1 else 0 := by
  cases flag with
  | false => exact pairCount_absent (by simp [before, behind])
  | true => exact pairCount_phrase differ before behind

theorem pairCount_intercalate {parts : List (List (Lexeme String))}
    (each : ∀ part ∈ parts, part.head? ≠ some (.word second)) :
    pairCount first second (List.intercalate [.symbol ","] parts) =
      (parts.map (pairCount first second)).sum := by
  induction parts with
  | nil => rfl
  | cons part rest ih =>
    rw [List.forall_mem_cons] at each
    cases rest with
    | nil => simp
    | cons next rest =>
      rw [List.intercalate_cons_cons, List.append_assoc, pairCount_append (by simp),
        List.singleton_append, pairCount, ih each.2]
      simp

end

section
variable {phrase left right : List (Lexeme String)} {word : Lexeme String} {allowed : Prop}

theorem onlyBehind_absent (absent : word ∉ left) : OnlyBehind phrase word allowed left := by
  intro before behind same
  rw [same] at absent
  exact absurd (by simp) absent

theorem onlyBehind_phrase (fresh : word ∉ phrase) (fine : allowed) :
    OnlyBehind phrase word allowed (phrase ++ [word]) := by
  intro before behind same
  have here : before = phrase := by
    rcases List.append_eq_append_iff.mp same with ⟨more, front, back⟩ | ⟨more, front, back⟩
    · cases more with
      | nil => simpa using front
      | cons lexeme more =>
        have short := congrArg List.length back
        simp at short
    · cases more with
      | nil => simpa using front.symm
      | cons lexeme more =>
        obtain ⟨rfl, _⟩ := List.cons.inj back
        rw [front] at fresh
        exact absurd (by simp) fresh
  rw [here]
  exact ⟨fine, List.suffix_refl phrase⟩

theorem onlyBehind_append (first : OnlyBehind phrase word allowed left)
    (second : OnlyBehind phrase word allowed right) :
    OnlyBehind phrase word allowed (left ++ right) := by
  intro before behind same
  rcases List.append_eq_append_iff.mp same with ⟨more, front, back⟩ | ⟨more, front, back⟩
  · obtain ⟨fine, there⟩ := second more behind back
    rw [front]
    exact ⟨fine, there.trans (List.suffix_append left more)⟩
  · cases more with
    | nil =>
      obtain ⟨fine, there⟩ := second [] behind back.symm
      rw [List.suffix_nil.mp there]
      exact ⟨fine, List.nil_suffix⟩
    | cons lexeme more =>
      obtain ⟨rfl, rest⟩ := List.cons.inj back
      exact first before more front

theorem onlyBehind_intercalate {parts : List (List (Lexeme String))}
    (comma : word ≠ .symbol ",") (each : ∀ part ∈ parts, OnlyBehind phrase word allowed part) :
    OnlyBehind phrase word allowed (List.intercalate [.symbol ","] parts) := by
  induction parts with
  | nil => exact onlyBehind_absent (by simp)
  | cons part rest ih =>
    rw [List.forall_mem_cons] at each
    cases rest with
    | nil => simpa using each.1
    | cons next rest =>
      have between : OnlyBehind phrase word allowed [.symbol ","] :=
        onlyBehind_absent (by simpa using comma)
      rw [List.intercalate_cons_cons]
      exact onlyBehind_append (onlyBehind_append each.1 between) (ih each.2)

end

end Lexeme

open Lexeme Token

def countedKey : List (Lexeme String) := [.word "INTEGER", .word "PRIMARY", .word "KEY"]

namespace TableDefinition
variable {d : Dialect} {composite : Bool} {name : String} {spec : ColumnSpec}

section
variable {type counting values : List (Lexeme String)} (typed : Quiet keyWords 0 type)
  (counted : Quiet keyWords 0 counting) (valued : Quiet keyWords 0 values)
  (inlineKey required unique : Bool)
include typed counted valued

theorem columnItem_primary :
    pairCount "PRIMARY" "KEY" (columnItem name type counting values inlineKey required unique) =
      if inlineKey then 1 else 0 := by
  have silent {part : List (Lexeme String)} (quiet : Quiet keyWords 0 part) :
      Lexeme.word "PRIMARY" ∉ part := quiet.silent _ (by decide)
  have whole : columnItem name type counting values inlineKey required unique =
      (.name name :: type) ++ ((if inlineKey then [.word "PRIMARY", .word "KEY"] else []) ++
        (counting ++ (if required then [.word "NOT", .word "NULL"] else []) ++
          (if unique then [.word "UNIQUE"] else []) ++ values)) := by
    simp [columnItem]
  rw [whole, pairCount_flag inlineKey (by decide)]
  · simp [silent typed]
  · cases required <;> cases unique <;> simp [silent counted, silent valued]

theorem columnItem_notNull :
    pairCount "NOT" "NULL" (columnItem name type counting values inlineKey required unique) =
      if required then 1 else 0 := by
  have silent {part : List (Lexeme String)} (quiet : Quiet keyWords 0 part) :
      Lexeme.word "NOT" ∉ part := quiet.silent _ (by decide)
  have whole : columnItem name type counting values inlineKey required unique =
      (.name name :: type ++ (if inlineKey then [.word "PRIMARY", .word "KEY"] else []) ++
        counting) ++ ((if required then [.word "NOT", .word "NULL"] else []) ++
          ((if unique then [.word "UNIQUE"] else []) ++ values)) := by
    simp [columnItem]
  rw [whole, pairCount_flag required (by decide)]
  · cases inlineKey <;> simp [silent typed, silent counted]
  · cases unique <;> simp [silent valued]

end

theorem columnItem_head {type counting values : List (Lexeme String)}
    {inlineKey required unique : Bool} :
    (columnItem name type counting values inlineKey required unique).head? = some (.name name) :=
  rfl

theorem increment_counts {inlineKey : Bool}
    (mem : Lexeme.word "AUTOINCREMENT" ∈
      (increment d spec inlineKey).flatMap fun constraint => said constraint.tokens) :
    d = .sqlite ∧ inlineKey = true ∧ spec.autoIncrement = true := by
  unfold increment at mem
  cases auto : spec.autoIncrement with
  | false => simp [auto] at mem
  | true =>
    cases d with
    | sqlite =>
      cases inlineKey with
      | false => simp [auto] at mem
      | true => exact ⟨rfl, rfl, rfl⟩
    | _ => simp [auto, ColumnConstraint.tokens, said, lexeme, inParens] at mem

theorem columnItem_counting {values : List (Lexeme String)} (valued : Quiet flagWords 0 values)
    (inlineKey required unique : Bool) :
    OnlyBehind countedKey (.word "AUTOINCREMENT") (d = .sqlite)
      (columnItem name (said (pieces (columnType d spec)))
        ((increment d spec inlineKey).flatMap fun constraint => said constraint.tokens) values
        inlineKey required unique) := by
  have silent {part : List (Lexeme String)} (quiet : Quiet flagWords 0 part) :
      Lexeme.word "AUTOINCREMENT" ∉ part := quiet.silent _ (by decide)
  by_cases counts : Lexeme.word "AUTOINCREMENT" ∈
      (increment d spec inlineKey).flatMap fun constraint => said constraint.tokens
  · obtain ⟨rfl, rfl, auto⟩ := increment_counts counts
    have type : said (pieces (columnType .sqlite spec)) = [.word "INTEGER"] := by
      have text : columnType .sqlite spec = "INTEGER" := by simp [columnType, auto]
      rw [text]
      decide
    have counting : ((increment .sqlite spec true).flatMap fun constraint =>
        said constraint.tokens) = [.word "AUTOINCREMENT"] := by
      simp [increment, auto, ColumnConstraint.tokens, said, lexeme]
    have whole : columnItem name (said (pieces (columnType .sqlite spec)))
        ((increment .sqlite spec true).flatMap fun constraint => said constraint.tokens) values
        true required unique =
        [.name name] ++ (countedKey ++ [.word "AUTOINCREMENT"]) ++
          ((if required then [.word "NOT", .word "NULL"] else []) ++
            (if unique then [.word "UNIQUE"] else []) ++ values) := by
      rw [type, counting]
      simp [columnItem, countedKey]
    rw [whole]
    refine onlyBehind_append (onlyBehind_append (onlyBehind_absent (by simp))
      (onlyBehind_phrase (by decide) rfl)) (onlyBehind_absent ?_)
    cases required <;> cases unique <;> simp [silent valued]
  · refine onlyBehind_absent ?_
    cases inlineKey <;> cases required <;> cases unique <;>
      simp [columnItem, silent (columnType_quiet d spec), counts, silent valued]

/-! Definitions in their frame. -/

section
variable {items : List (List (Lexeme String))} {lexemes : List (Lexeme String)}

theorem Frames.split (framed : Frames items lexemes) :
    ∃ before, Lexeme.word "PRIMARY" ∉ before ∧ Lexeme.word "AUTOINCREMENT" ∉ before ∧
      lexemes = before ++
        .symbol "(" :: (List.intercalate [.symbol ","] items ++ [.symbol ")"]) := by
  obtain ⟨front, middle, spoken, _, whole⟩ := framed
  have none (text : String) (other : text ∉ "TABLE" :: frameWords) :
      Lexeme.word text ∉ front ++ .word "TABLE" :: middle := by
    intro mem
    rw [List.mem_cons, not_or] at other
    have inside : Lexeme.word text ∈ front ++ middle := by simpa [other.1] using mem
    exact other.2 (spoken text inside)
  exact ⟨_, none "PRIMARY" (by decide), none "AUTOINCREMENT" (by decide), by simp [whole]⟩

theorem Frames.keyCount (framed : Frames items lexemes)
    (each : ∀ item ∈ items, item.head? ≠ some (.word "KEY")) :
    pairCount "PRIMARY" "KEY" lexemes = (items.map (pairCount "PRIMARY" "KEY")).sum := by
  obtain ⟨before, primary, _, whole⟩ := framed.split
  have last : pairCount "PRIMARY" "KEY" [.symbol ")"] = 0 := rfl
  rw [whole, pairCount_append (by simp), pairCount_absent primary, Lexeme.pairCount,
    if_neg (by simp), pairCount_append (by simp), pairCount_intercalate each, last]
  simp

theorem Frames.onlyBehind {phrase : List (Lexeme String)} {allowed : Prop}
    (framed : Frames items lexemes)
    (each : ∀ item ∈ items, OnlyBehind phrase (.word "AUTOINCREMENT") allowed item) :
    OnlyBehind phrase (.word "AUTOINCREMENT") allowed lexemes := by
  obtain ⟨before, _, counts, whole⟩ := framed.split
  have opened : OnlyBehind phrase (.word "AUTOINCREMENT") allowed (before ++ [.symbol "("]) :=
    onlyBehind_absent (by simp [counts])
  have closed : OnlyBehind phrase (.word "AUTOINCREMENT") allowed [.symbol ")"] :=
    onlyBehind_absent (by simp)
  have body := onlyBehind_intercalate (by simp) each
  have parts := onlyBehind_append (onlyBehind_append opened body) closed
  rw [whole]
  simpa using parts

end

end TableDefinition

namespace Statement
variable {table : String} {schema : TableSchema} {d : Dialect} {s : Statement}
open TableDefinition

/-- What a schema makes of one column. The key is inline where no other column is flagged. -/
structure Shaped (schema : TableSchema) (column : String × ColumnSpec)
    (item : List (Lexeme String)) : Prop where
  named : item.head? = some (.name column.1)
  key : pairCount "PRIMARY" "KEY" item =
    if column.2.primaryKey ∧ schema.primaryKeys.length = 1 then 1 else 0
  notNull : pairCount "NOT" "NULL" item =
    if (column.2.required ∨ column.2.primaryKey) ∧
      ¬(column.2.primaryKey ∧ schema.primaryKeys.length = 1) then 1 else 0

def keyItem (columns : List String) : List (Lexeme String) :=
  [.word "PRIMARY", .word "KEY", .symbol "("] ++
    List.intercalate [.symbol ","] (columns.map fun name => [.name name]) ++ [.symbol ")"]

theorem keyItem_said (columns : List String) :
    keyItem columns = .word "PRIMARY" :: .word "KEY" ::
      (.symbol "(" :: said (Token.names columns) ++ [.symbol ")"]) := by
  have each : (said ∘ fun name => [Token.name name]) = fun name => [Lexeme.name name] := rfl
  rw [Token.names, said_listed, List.map_map, each]
  rfl

theorem keyTokens_item (columns : List String) :
    (keyTokens (some columns)).map said = [keyItem columns] := by
  rw [keyTokens_said, keyItem_said]
  rfl

theorem keyItem_key (columns : List String) : pairCount "PRIMARY" "KEY" (keyItem columns) = 1 := by
  have silent := (names_quiet columns).silent "PRIMARY" (by decide)
  have whole : keyItem columns = [] ++ ([.word "PRIMARY", .word "KEY"] ++
      (.symbol "(" :: said (Token.names columns) ++ [.symbol ")"])) := keyItem_said columns
  rw [whole]
  exact pairCount_phrase (by decide) (by simp) (by simp [silent])

theorem keyItem_uncounted (columns : List String) :
    Lexeme.word "AUTOINCREMENT" ∉ keyItem columns := by
  have silent := (names_quiet columns).silent "AUTOINCREMENT" (by decide)
  rw [keyItem_said]
  simp [silent]

theorem inlineKey_iff {entry : String × ColumnSpec} (mem : entry ∈ schema.columns) :
    (entry.2.primaryKey && !schema.isComposite) = true ↔
      entry.2.primaryKey ∧ schema.primaryKeys.length = 1 := by
  rw [Bool.and_eq_true]
  refine and_congr_right fun key => ?_
  have inside : entry.1 ∈ schema.primaryKeys :=
    List.mem_map_of_mem (List.mem_filter.mpr ⟨mem, key⟩)
  have some := List.length_pos_of_mem inside
  simp only [TableSchema.isComposite, Bool.not_eq_true', decide_eq_false_iff_not]
  omega

theorem columnOf_shaped {column : ColumnDefinition} {entry : String × ColumnSpec}
    (mem : entry ∈ schema.columns)
    (built : columnOf d schema.isComposite entry.1 entry.2 = .ok column) :
    Shaped schema entry (said (respelled column.tokens)) := by
  obtain ⟨values, valued, item⟩ := columnOf_item built
  have typed := quiet_key (columnType_quiet d entry.2)
  have key := inlineKey_iff mem
  have notNull : ((entry.2.required || entry.2.primaryKey) &&
      !(entry.2.primaryKey && !schema.isComposite)) = true ↔
      (entry.2.required ∨ entry.2.primaryKey) ∧
        ¬(entry.2.primaryKey ∧ schema.primaryKeys.length = 1) := by
    rw [Bool.and_eq_true, Bool.or_eq_true, Bool.not_eq_true', ← Bool.not_eq_true, key]
  rw [item]
  constructor
  · exact columnItem_head
  · rw [columnItem_primary typed increment_quiet (quiet_key valued)]
    simp only [key]
  · rw [columnItem_notNull typed increment_quiet (quiet_key valued)]
    simp only [notNull]

theorem columnOf_counting {column : ColumnDefinition} {entry : String × ColumnSpec}
    (built : columnOf d schema.isComposite entry.1 entry.2 = .ok column) :
    OnlyBehind countedKey (.word "AUTOINCREMENT") (d = .sqlite)
      (said (respelled column.tokens)) := by
  obtain ⟨values, valued, item⟩ := columnOf_item built
  rw [item]
  exact columnItem_counting valued _ _ _

theorem shaped_keys {columns : List (String × ColumnSpec)} {items : List (List (Lexeme String))}
    (shaped : List.Forall₂ (Shaped schema) columns items) :
    (items.map (pairCount "PRIMARY" "KEY")).sum =
      if schema.primaryKeys.length = 1 then (columns.filter fun entry => entry.2.primaryKey).length
      else 0 := by
  induction shaped with
  | nil => simp
  | @cons entry _ _ _ first _ ih =>
    rw [List.map_cons, List.sum_cons, first.key, ih]
    by_cases single : schema.primaryKeys.length = 1
    · cases flagged : entry.2.primaryKey with
      | false => simp [single, flagged]
      | true => simp [single, flagged, Nat.add_comm]
    · simp [single]

/-- However many columns are flagged, the definitions state one key for them. -/
theorem shaped_key {items : List (List (Lexeme String))} {lexemes : List (Lexeme String)}
    (shaped : List.Forall₂ (Shaped schema) schema.columns items)
    (framed : Frames (items ++ if 1 < schema.primaryKeys.length then [keyItem schema.primaryKeys]
      else []) lexemes) :
    pairCount "PRIMARY" "KEY" lexemes = if schema.primaryKeys = [] then 0 else 1 := by
  have inline : (items.map (pairCount "PRIMARY" "KEY")).sum =
      if schema.primaryKeys.length = 1 then schema.primaryKeys.length else 0 := by
    rw [shaped_keys shaped, ← List.length_map Prod.fst]
    rfl
  rw [framed.keyCount ?heads, List.map_append, List.sum_append, inline]
  · rcases schema.primaryKeys with _ | ⟨first, _ | ⟨second, rest⟩⟩
    · rfl
    · rfl
    · simp [keyItem_key]
  case heads =>
    intro item mem
    rcases List.mem_append.mp mem with mem | mem
    · obtain ⟨entry, _, known⟩ := exists_of_forall₂ shaped mem
      simp [known.named]
    · split_ifs at mem
      · simp [List.mem_singleton.mp mem, keyItem]
      · cases mem

/-- The definitions in a table's text are those of its columns, in their order, and behind them that
    of a key of several columns. They state one key where any column is flagged. A column's own key
    and its nulls are as `Shaped` says. The word for counting stands in one dialect only, and right
    behind the words of a key column of integers. -/
theorem definition_shape (sql : d.isSql) (built : createTable table schema d = .ok s) :
    ∃ lexemes columns, Lexeme.ofText d s.sql = some lexemes ∧
      definitions lexemes = columns ++
        (if 1 < schema.primaryKeys.length then [keyItem schema.primaryKeys] else []) ∧
      List.Forall₂ (Shaped schema) schema.columns columns ∧
      pairCount "PRIMARY" "KEY" lexemes = (if schema.primaryKeys = [] then 0 else 1) ∧
      OnlyBehind countedKey (.word "AUTOINCREMENT") (d = .sqlite) lexemes := by
  obtain ⟨columns, made, framed, parts⟩ := createTable_definitions built
  have key : (keyTokens (if schema.isComposite then some schema.primaryKeys else none)).map said =
      if 1 < schema.primaryKeys.length then [keyItem schema.primaryKeys] else [] := by
    by_cases several : 1 < schema.primaryKeys.length
    · simp [TableSchema.isComposite, several, keyTokens_item]
    · simp [TableSchema.isComposite, several, keyTokens]
  rw [itemsOf, key] at framed parts
  have shaped : List.Forall₂ (Shaped schema) schema.columns
      (columns.map fun column => said (respelled column.tokens)) := by
    rw [List.forall₂_map_right_iff]
    have both := (List.forall₂_and_left schema.columns columns).mpr ⟨fun _ => id, made⟩
    exact both.imp fun entry column both => columnOf_shaped both.1 both.2
  refine ⟨_, _, createTable_read sql built, parts, shaped, shaped_key shaped framed,
    framed.onlyBehind fun item mem => ?_⟩
  rcases List.mem_append.mp mem with mem | mem
  · obtain ⟨column, inside, rfl⟩ := List.mem_map.mp mem
    obtain ⟨entry, _, defined⟩ := exists_of_forall₂ made inside
    exact columnOf_counting defined
  · split_ifs at mem
    · rw [List.mem_singleton.mp mem]
      exact onlyBehind_absent (keyItem_uncounted _)
    · cases mem

/-- A name and a default that are made of the words of flags, beside a key that counts up. -/
theorem definition_shape_counting :
    ∃ s lexemes columns, createTable "t" ⟨[
        ("PRIMARY KEY", { type := "string", default := some (.text "NOT NULL") }),
        ("id", { type := "bigint", primaryKey := true, autoIncrement := true })]⟩ .sqlite = .ok s ∧
      s.sql = "CREATE TABLE IF NOT EXISTS \"t\" (\"PRIMARY KEY\" TEXT DEFAULT 'NOT NULL', " ++
        "\"id\" INTEGER PRIMARY KEY AUTOINCREMENT)" ∧
      Lexeme.ofText .sqlite s.sql = some lexemes ∧ definitions lexemes = columns ∧
      columns.map (pairCount "PRIMARY" "KEY") = [0, 1] ∧
      columns.map (pairCount "NOT" "NULL") = [0, 0] ∧
      pairCount "PRIMARY" "KEY" lexemes = 1 ∧
      OnlyBehind countedKey (.word "AUTOINCREMENT") True lexemes := by
  obtain ⟨s, built, text⟩ : ∃ s, createTable "t" ⟨[
      ("PRIMARY KEY", { type := "string", default := some (.text "NOT NULL") }),
      ("id", { type := "bigint", primaryKey := true, autoIncrement := true })]⟩ .sqlite = .ok s ∧
      s.sql = "CREATE TABLE IF NOT EXISTS \"t\" (\"PRIMARY KEY\" TEXT DEFAULT 'NOT NULL', " ++
        "\"id\" INTEGER PRIMARY KEY AUTOINCREMENT)" := ⟨_, rfl, by decide +kernel⟩
  obtain ⟨lexemes, columns, read, parts, shaped, keys, counting⟩ := definition_shape rfl built
  refine ⟨s, lexemes, columns, built, text, read, by simpa [TableSchema.primaryKeys] using parts,
    ?_, ?_, keys, by simpa using counting⟩
  · cases shaped with
    | cons first rest =>
      cases rest with
      | cons second rest =>
        cases rest
        simp [first.key, second.key, TableSchema.primaryKeys]
  · cases shaped with
    | cons first rest =>
      cases rest with
      | cons second rest =>
        cases rest
        simp [first.notNull, second.notNull, TableSchema.primaryKeys]

end Statement
end StoreBridge.Sql
