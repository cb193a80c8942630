import StoreBridge.Proofs.Sql.DefinitionText
import StoreBridge.Proofs.Sql.Names

/-!
The names and the literals in the text that defines a table. Whatever characters they are made of,
each of them reads as one lexeme that holds it. Other names of columns and other texts in defaults
and choices change what these lexemes hold and nothing else.
-/
namespace StoreBridge

def ColumnSpec.quoted (spec : ColumnSpec) : List String :=
  (spec.default.toList ++ spec.choices.getD []).filterMap Value.quoted?

/-- A column with choices is named once more where they are listed. -/
def ColumnSpec.namings (spec : ColumnSpec) (name : String) : List String :=
  if (spec.choices.getD []).isEmpty then [name] else [name, name]

namespace TableSchema

def namings (schema : TableSchema) (table : String) : List String :=
  Sql.tableParts table ++ (schema.columns.flatMap fun column => column.2.namings column.1) ++
    if schema.isComposite then schema.primaryKeys else []

def quoted (schema : TableSchema) (d : Dialect) (table : String) : List String :=
  (if d = .mssql then [table, "U"] else []) ++ schema.columns.flatMap fun column => column.2.quoted

end TableSchema

/-- Values that are one value, or a text each. -/
inductive Value.Reworded : Value → Value → Prop
  | same (value : Value) : Reworded value value
  | text (one other : String) : Reworded (.text one) (.text other)

/-- Columns between which no more differs than the texts among their defaults and choices. -/
structure ColumnSpec.Reworded (spec other : ColumnSpec) : Prop where
  plain : { spec with default := none, choices := none } =
    { other with default := none, choices := none }
  default : List.Forall₂ Value.Reworded spec.default.toList other.default.toList
  choices : List.Forall₂ Value.Reworded (spec.choices.getD []) (other.choices.getD [])

/-- Tables whose columns have any names and are otherwise the same but for their texts. -/
def TableSchema.Reworded (schema other : TableSchema) : Prop :=
  List.Forall₂ (fun column changed => column.2.Reworded changed.2) schema.columns other.columns

namespace Sql

namespace Lexeme
variable {Operand : Type}

def literal? : Lexeme Operand → Option String
  | .literal text => some text
  | _ => none

def literals (lexemes : List (Lexeme Operand)) : List String := lexemes.filterMap literal?

def blanked : Lexeme Operand → Lexeme Operand
  | .name _ => .name ""
  | .literal _ => .literal ""
  | other => other

end Lexeme

namespace Token

def literal? : Token → Option String
  | .literal text => some text
  | _ => none

def blanked : Token → Token
  | .name _ => .name ""
  | .literal _ => .literal ""
  | other => other

def Pick.literals : Pick String where
  of := literal?
  word _ := rfl
  symbol _ := rfl
  number _ := rfl
  space := rfl

theorem literals_lexemes (d : Dialect) (index : Nat) (tokens : List Token) :
    Lexeme.literals (lexemes d index tokens) = Pick.literals.all tokens :=
  lexemes_filterMap (fun _ token => by cases token <;> rfl) index tokens

theorem lexemes_blanked (d : Dialect) (index : Nat) (tokens : List Token) :
    lexemes d index (tokens.map blanked) = (lexemes d index tokens).map Lexeme.blanked :=
  lexemes_map (fun _ token => by cases token <;> rfl) (fun token => by cases token <;> rfl) index
    tokens

theorem respelled_blanked (tokens : List Token) :
    (respelled tokens).map blanked = respelled (tokens.map blanked) := by
  have kept (run : List Char) : blanked (ofPiece run) = ofPiece run := by
    unfold ofPiece
    split_ifs <;> rfl
  induction tokens with
  | nil => rfl
  | cons token rest ih =>
    rw [respelled_cons, List.map_append, ih, List.map_cons, respelled_cons token.blanked]
    cases token with
    | word text =>
      have same : blanked (.word text) = .word text := rfl
      rw [same, respelled_word, pieces, List.map_map]
      exact congrArg (· ++ _) (List.map_congr_left fun run _ => kept run)
    | _ => rfl

theorem names_blanked {left right : List String} (same : left.length = right.length) :
    List.Forall₂ (Alike blanked) (left.map fun text => [.name text])
      (right.map fun text => [.name text]) := by
  rw [List.forall₂_map_left_iff, List.forall₂_map_right_iff, List.forall₂_iff_zip]
  exact ⟨same, fun _ => rfl⟩

theorem table_blanked {left right : String}
    (same : (tableParts left).length = (tableParts right).length) :
    Alike blanked (table left) (table right) := by
  have written (text : String) : table text =
      List.intercalate [.symbol "."] ((tableParts text).map fun part => [.name part]) := by
    rw [table, splitDots_eq, tableParts, List.map_map]
    rfl
  rw [written, written]
  exact alike_intercalate _ (names_blanked same)

end Token

open Token

/-! What is picked out of a definition. -/

namespace TableDefinition
variable {α : Type} (pick : Pick α) {d : Dialect} {composite : Bool} {name : String}
  {spec : ColumnSpec} {held : Value → List α}

theorem flagged_picked :
    ((flagged d composite spec).map ColumnConstraint.tokens).flatMap pick.all = [] := by
  rw [List.flatMap_map, List.flatMap_eq_nil_iff]
  intro constraint mem
  have known := flagged_tokens mem
  simp only [flagTokens, incrementTokens, List.cons_append, List.nil_append, List.mem_cons,
    List.not_mem_nil, or_false] at known
  rcases known with same | same | same | same | same | same <;> simp [same]

theorem literals_picked
    (each : ∀ value part, literal d value = .ok part → pick.all part = held value)
    {values : List Value} {parts : List (List Token)}
    (written : List.Forall₂ (fun value part => literal d value = .ok part) values parts) :
    parts.flatMap pick.all = values.flatMap held := by
  induction written with
  | nil => rfl
  | cons first _ ih => rw [List.flatMap_cons, List.flatMap_cons, each _ _ first, ih]

theorem amongChoices_picked
    (each : ∀ value part, literal d value = .ok part → pick.all part = held value)
    {values : List Value} {parts : List (List Token)}
    (written : List.Forall₂ (fun value part => literal d value = .ok part) values parts) :
    ((amongChoices name parts).map ColumnConstraint.tokens).flatMap pick.all =
      if values.isEmpty then [] else pick.ofNames [name] ++ values.flatMap held := by
  rw [← literals_picked pick each written]
  cases written with
  | nil => rfl
  | cons first later =>
    rw [amongChoices, List.isEmpty_cons, List.isEmpty_cons]
    simp only [Bool.false_eq_true, if_false, List.map_cons, List.map_nil, List.flatMap_cons,
      List.flatMap_nil, List.append_nil, ColumnConstraint.tokens, Pick.all_cons_word,
      Pick.all_cons_space, Pick.all_inParens, Pick.all_append, Pick.all_listed]
    rw [pick.all_cons, pick.all_name]
    simp

def heldBy (held : Value → List α) (column : String × ColumnSpec) : List α :=
  pick.ofNames [column.1] ++ column.2.default.toList.flatMap held ++
    if (column.2.choices.getD []).isEmpty then []
    else pick.ofNames [column.1] ++ (column.2.choices.getD []).flatMap held

theorem columnOf_picked
    (each : ∀ value part, literal d value = .ok part → pick.all part = held value)
    {column : ColumnDefinition} (built : columnOf d composite name spec = .ok column) :
    pick.all column.tokens = heldBy pick held (name, spec) := by
  obtain ⟨defaults, choices, written, among, rfl⟩ := columnOf_ok.mp built
  have given : ((defaults.map ColumnConstraint.default).map ColumnConstraint.tokens).flatMap
      pick.all = spec.default.toList.flatMap held := by
    rw [← literals_picked pick each written, List.map_map, List.flatMap_map]
    exact List.flatMap_congr fun part _ => by simp [ColumnConstraint.tokens]
  simp only [heldBy, ← given, ← amongChoices_picked pick each among, ColumnDefinition.tokens,
    Pick.all_spaced, Pick.all_nil, Pick.all_name, Pick.all_cons_word, List.flatMap_cons,
    List.map_append, List.flatMap_append, flagged_picked, List.nil_append, List.append_assoc]

theorem absenceTest_picked (table : String) :
    pick.all (absenceTest table) = pick.all [.literal table, .literal "U"] := by
  simp only [absenceTest, Pick.all_append, Pick.all_inParens, Pick.all_cons_word,
    Pick.all_cons_space, Pick.all_words, Pick.all_nil, List.nil_append, List.append_nil]
  rw [pick.all_cons (.literal table) [_], pick.all_cons (.literal table)]
  simp

end TableDefinition

namespace Statement
variable {table : String} {schema : TableSchema} {d : Dialect} {s : Statement}
open TableDefinition

theorem createTable_picked {α : Type} (pick : Pick α) {held : Value → List α}
    (each : ∀ value part, literal d value = .ok part → pick.all part = held value)
    (built : createTable table schema d = .ok s) :
    pick.all s.tokens =
      (if d = .mssql then pick.all [.literal table, .literal "U"] else []) ++
      pick.ofNames (tableParts table) ++ schema.columns.flatMap (heldBy pick held) ++
      if schema.isComposite then pick.ofNames schema.primaryKeys else [] := by
  obtain ⟨_, columns, made, rfl⟩ := createTable_ok.mp built
  have inside : (columns.map ColumnDefinition.tokens).flatMap pick.all =
      schema.columns.flatMap (heldBy pick held) := by
    rw [List.flatMap_map]
    clear built
    generalize schema.columns = entries at made
    induction made with
    | nil => rfl
    | cons first _ ih =>
      rw [List.flatMap_cons, List.flatMap_cons, columnOf_picked pick each first, ih]
  have key : (keyTokens (if schema.isComposite then some schema.primaryKeys else none)).flatMap
      pick.all = if schema.isComposite then pick.ofNames schema.primaryKeys else [] := by
    cases schema.isComposite <;> simp [keyTokens]
  rw [← key, ← inside]
  generalize (if schema.isComposite then some schema.primaryKeys else none) = keys
  simp only [TableDefinition.tokens]
  split_ifs <;> simp [absenceTest_picked]

theorem createTable_names (built : createTable table schema d = .ok s) :
    Pick.names.all s.tokens = schema.namings table := by
  have none (value : Value) (part : List Token) (written : literal d value = .ok part) :
      Pick.names.all part = [] := by
    rcases literal_cases written with ⟨_, _, rfl⟩ | ⟨_, ⟨_, _, rfl⟩ | ⟨_, _, rfl⟩⟩ <;> rfl
  have whole (texts : List String) : Pick.names.ofNames texts = texts := List.filterMap_some
  have bare (values : List Value) : values.flatMap (fun _ => ([] : List String)) = [] :=
    List.flatMap_eq_nil_iff.mpr fun _ _ => rfl
  have column (entry : String × ColumnSpec) :
      heldBy Pick.names (fun _ => []) entry = entry.2.namings entry.1 := by
    rw [heldBy, ColumnSpec.namings, whole, bare, bare]
    split_ifs <;> rfl
  have test : (if d = .mssql then Pick.names.all [.literal table, .literal "U"] else []) = [] := by
    split_ifs <;> rfl
  rw [createTable_picked Pick.names none built, test, whole, whole, TableSchema.namings,
    List.nil_append, funext column]

theorem createTable_literals (built : createTable table schema d = .ok s) :
    Pick.literals.all s.tokens = schema.quoted d table := by
  have said (value : Value) (part : List Token) (written : literal d value = .ok part) :
      Pick.literals.all part = value.quoted?.toList := by
    rcases literal_cases written with
      ⟨_, quoted, rfl⟩ | ⟨quoted, ⟨_, _, rfl⟩ | ⟨_, _, rfl⟩⟩ <;> rw [quoted] <;> rfl
  have none (texts : List String) : Pick.literals.ofNames texts = [] := List.filterMap_none _
  have column (entry : String × ColumnSpec) :
      heldBy Pick.literals (fun value => value.quoted?.toList) entry = entry.2.quoted := by
    rw [ColumnSpec.quoted, List.filterMap_eq_flatMap_toList, List.flatMap_append]
    cases listed : entry.2.choices.getD [] <;> simp [heldBy, listed, none]
  rw [createTable_picked Pick.literals said built, none, none, TableSchema.quoted,
    List.append_nil, ite_self, List.append_nil, funext column]
  rfl

end Statement

/-! Other names and other texts. -/

theorem forall₂_follows {α β γ δ : Type} {R : α → β → Prop} {S : α → γ → Prop} {R' : γ → δ → Prop}
    {T : β → δ → Prop} (each : ∀ a b c, R a b → S a c → ∃ d, R' c d ∧ T b d)
    {as : List α} {bs : List β} {cs : List γ} (left : List.Forall₂ R as bs)
    (right : List.Forall₂ S as cs) : ∃ ds, List.Forall₂ R' cs ds ∧ List.Forall₂ T bs ds := by
  induction left generalizing cs with
  | nil =>
    cases right
    exact ⟨[], .nil, .nil⟩
  | cons first _ ih =>
    cases right with
    | cons same later =>
      obtain ⟨d, made, alike⟩ := each _ _ _ first same
      obtain ⟨ds, others, rest⟩ := ih later
      exact ⟨d :: ds, .cons made others, .cons alike rest⟩

theorem literal_reworded {d : Dialect} {value other : Value} {part : List Token}
    (written : literal d value = .ok part) (same : value.Reworded other) :
    ∃ changed, literal d other = .ok changed ∧ Alike blanked part changed := by
  cases same with
  | same => exact ⟨part, written, rfl⟩
  | text =>
    cases written
    exact ⟨_, rfl, rfl⟩

namespace TableDefinition
variable {d : Dialect} {composite : Bool} {name : String} {spec other : ColumnSpec}

theorem columnOf_reworded {column : ColumnDefinition}
    (built : columnOf d composite name spec = .ok column) (same : spec.Reworded other)
    (renamed : String) : ∃ changed, columnOf d composite renamed other = .ok changed ∧
      Alike blanked column.tokens changed.tokens := by
  obtain ⟨defaults, choices, written, among, rfl⟩ := columnOf_ok.mp built
  have literally (value : Value) (part : List Token) (other : Value)
      (made : literal d value = .ok part) (reworded : value.Reworded other) :=
    literal_reworded made reworded
  obtain ⟨others, remade, alike⟩ := forall₂_follows literally written same.default
  obtain ⟨listed, relisted, alikes⟩ := forall₂_follows literally among same.choices
  refine ⟨_, columnOf_ok.mpr ⟨others, listed, remade, relisted, rfl⟩, ?_⟩
  have flags : flagged d composite { spec with default := none, choices := none } =
      flagged d composite { other with default := none, choices := none } := by rw [same.plain]
  have type : columnType d { spec with default := none, choices := none } =
      columnType d { other with default := none, choices := none } := by rw [same.plain]
  have given : List.Forall₂ (Alike blanked)
      ((defaults.map ColumnConstraint.default).map ColumnConstraint.tokens)
      ((others.map ColumnConstraint.default).map ColumnConstraint.tokens) := by
    simp only [List.forall₂_map_left_iff, List.forall₂_map_right_iff]
    exact alike.imp fun _ _ known => alike_cons (alike_cons known)
  have chosen : List.Forall₂ (Alike blanked)
      ((amongChoices name choices).map ColumnConstraint.tokens)
      ((amongChoices renamed listed).map ColumnConstraint.tokens) := by
    cases alikes with
    | nil => exact .nil
    | cons first later =>
      refine .cons (alike_cons (alike_cons (alike_inParens ?_))) .nil
      exact alike_append (a := [_, _, _, _]) rfl (alike_inParens (alike_listed (.cons first later)))
  refine alike_spaced (.cons rfl (.cons ?_ ?_))
  · exact congrArg (fun text => [Token.word text].map blanked) type
  · simp only [List.map_append]
    refine List.rel_append (List.rel_append ?_ given) chosen
    have named : flagged d composite spec = flagged d composite other := flags
    rw [named]
    exact alike_same _

end TableDefinition

namespace Statement
variable {table name : String} {schema other : TableSchema} {d : Dialect} {s : Statement}
open TableDefinition

theorem primaryKeys_reworded (same : schema.Reworded other) :
    schema.primaryKeys.length = other.primaryKeys.length := by
  rw [TableSchema.primaryKeys, TableSchema.primaryKeys, List.length_map, List.length_map]
  have flags := List.rel_filter (p := fun column : String × ColumnSpec => column.2.primaryKey)
    (q := fun column : String × ColumnSpec => column.2.primaryKey)
    (fun _ _ reworded => by
      have key := congrArg ColumnSpec.primaryKey reworded.plain
      exact (iff_of_eq (congrArg (· = true) key))) same
  exact flags.length_eq

theorem createTable_reworded (built : createTable table schema d = .ok s)
    (parts : (tableParts table).length = (tableParts name).length)
    (same : schema.Reworded other) :
    ∃ t, createTable name other d = .ok t ∧ Alike blanked s.tokens t.tokens := by
  obtain ⟨filled, columns, made, rfl⟩ := createTable_ok.mp built
  have keys := primaryKeys_reworded same
  have composite : schema.isComposite = other.isComposite := by
    rw [TableSchema.isComposite, TableSchema.isComposite, keys]
  have each (entry : String × ColumnSpec) (column : ColumnDefinition)
      (renamed : String × ColumnSpec)
      (first : columnOf d schema.isComposite entry.1 entry.2 = .ok column)
      (reworded : entry.2.Reworded renamed.2) :
      ∃ changed, columnOf d other.isComposite renamed.1 renamed.2 = .ok changed ∧
        Alike blanked column.tokens changed.tokens := by
    rw [composite] at first
    exact columnOf_reworded first reworded renamed.1
  obtain ⟨changed, remade, alike⟩ := forall₂_follows each made same
  have others : other.columns ≠ [] := by
    intro none
    unfold TableSchema.Reworded at same
    rw [none, List.forall₂_nil_right_iff] at same
    exact filled same
  refine ⟨_, createTable_ok.mpr ⟨others, changed, remade, rfl⟩, ?_⟩
  have key : List.Forall₂ (Alike blanked)
      (keyTokens (if schema.isComposite then some schema.primaryKeys else none))
      (keyTokens (if other.isComposite then some other.primaryKeys else none)) := by
    rw [composite]
    split_ifs
    · refine .cons (alike_append rfl (alike_cons (alike_inParens (alike_listed ?_)))) .nil
      exact names_blanked keys
    · exact .nil
  have body : Alike blanked
      (inParens (listed (columns.map ColumnDefinition.tokens ++
        keyTokens (if schema.isComposite then some schema.primaryKeys else none))))
      (inParens (listed (changed.map ColumnDefinition.tokens ++
        keyTokens (if other.isComposite then some other.primaryKeys else none)))) := by
    refine alike_inParens (alike_listed (List.rel_append ?_ key))
    simpa only [List.forall₂_map_left_iff, List.forall₂_map_right_iff] using alike
  have named := table_blanked parts
  simp only [TableDefinition.tokens]
  by_cases dialect : d = .mssql
  · rw [if_pos dialect, if_pos dialect]
    exact alike_spaced (.cons rfl (.cons rfl (.cons named (.cons body .nil))))
  · rw [if_neg dialect, if_neg dialect]
    exact alike_spaced (.cons rfl (.cons named (.cons body .nil)))

/-- A text's literal reads as the text, whatever characters it is made of. In the text that defines
    a table, each column's name and each text among its defaults and choices is one lexeme that
    holds it. Other names and other texts in their places, in a table of as many parts, are served
    too, and leave every lexeme as it is but for what the names and the literals hold. -/
theorem definition_confined {d : Dialect} (sql : d.isSql) :
    (∀ text, ∃ tokens, literal d (.text text) = .ok tokens ∧
      Lexeme.ofText d (textOf d tokens) = some [.literal text]) ∧
    ∀ table schema s, createTable table schema d = .ok s →
      ∃ lexemes, Lexeme.ofText d s.sql = some lexemes ∧
        Lexeme.names lexemes = schema.namings table ∧
        Lexeme.literals lexemes = schema.quoted d table ∧
        ∀ name other, (tableParts table).length = (tableParts name).length →
          schema.Reworded other →
          ∃ t changed, createTable name other d = .ok t ∧
            Lexeme.ofText d t.sql = some changed ∧
            Lexeme.names changed = other.namings name ∧
            Lexeme.literals changed = other.quoted d name ∧
            changed.map Lexeme.blanked = lexemes.map Lexeme.blanked := by
  refine ⟨fun text => ⟨_, rfl, ofText_render sql (legible_singleton rfl)⟩,
    fun table schema s built => ?_⟩
  refine ⟨_, createTable_read sql built, ?_, ?_, fun name other parts same => ?_⟩
  · rw [names_lexemes, Pick.all_respelled, createTable_names built]
  · rw [literals_lexemes, Pick.all_respelled, createTable_literals built]
  · obtain ⟨t, made, alike⟩ := createTable_reworded built parts same
    refine ⟨t, _, made, createTable_read sql made, ?_, ?_, ?_⟩
    · rw [names_lexemes, Pick.all_respelled, createTable_names made]
    · rw [literals_lexemes, Pick.all_respelled, createTable_literals made]
    · rw [← lexemes_blanked, ← lexemes_blanked, respelled_blanked, respelled_blanked]
      exact congrArg (fun tokens => lexemes d 1 (respelled tokens)) alike.symm

/-- Names and texts made of quotes, of backslashes and of a statement's end. -/
theorem definition_confined_quotes :
    (∃ tokens, literal .mysql (.text "it's \\") = .ok tokens ∧
      Lexeme.ofText .mysql (textOf .mysql tokens) = some [.literal "it's \\"]) ∧
    ∃ lexemes, Lexeme.ofText .mysql ("CREATE TABLE IF NOT EXISTS `t'` (`a``b` TEXT NOT NULL " ++
        "DEFAULT 'it''s \\\\' CHECK (`a``b` IN ('x', 1)))") = some lexemes ∧
      Lexeme.names lexemes = ["t'", "a`b", "a`b"] ∧
      Lexeme.literals lexemes = ["it's \\", "x"] ∧
      ∃ t changed, createTable "`" ⟨[("); --",
          { type := "text", required := true, default := some (.text "\\'"),
            choices := some [.text "", .int 1] })]⟩ .mysql = .ok t ∧
        Lexeme.ofText .mysql t.sql = some changed ∧
        Lexeme.names changed = ["`", "); --", "); --"] ∧
        Lexeme.literals changed = ["\\'", ""] ∧
        changed.map Lexeme.blanked = lexemes.map Lexeme.blanked := by
  obtain ⟨literally, defined⟩ := definition_confined (d := .mysql) rfl
  obtain ⟨s, built, text⟩ : ∃ s, createTable "t'" ⟨[("a`b",
      { type := "text", required := true, default := some (.text "it's \\"),
        choices := some [.text "x", .int 1] })]⟩ .mysql = .ok s ∧
      s.sql = "CREATE TABLE IF NOT EXISTS `t'` (`a``b` TEXT NOT NULL " ++
        "DEFAULT 'it''s \\\\' CHECK (`a``b` IN ('x', 1)))" := ⟨_, rfl, by decide +kernel⟩
  obtain ⟨lexemes, read, named, quoted, others⟩ := defined _ _ _ built
  rw [text] at read
  refine ⟨literally _, lexemes, read, named, quoted, others _ _ rfl ?_⟩
  exact .cons ⟨rfl, .cons (.text _ _) .nil, .cons (.text _ _) (.cons (.same _) .nil)⟩ .nil

end Statement
end Sql
end StoreBridge
