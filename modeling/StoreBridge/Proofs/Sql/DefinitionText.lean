import StoreBridge.Proofs.Sql.StatementText
import StoreBridge.Proofs.Sql.TypeText

/-!
The text that defines a table can be read back, whatever its names, its defaults and its choices
are made of. A literal reads as one number, one word or one literal.
-/
namespace StoreBridge

def TableSchema.isComposite (schema : TableSchema) : Bool := 1 < schema.primaryKeys.length

def Value.quoted? : Value → Option String
  | .null | .bool _ | .int _ | .float _ => none
  | .text s => some s
  | .timestamp t => some t.iso8601
  | .objectId id => some id.text
  | value => some value.jsonText

namespace Sql
open Lexeme Token

/-! Numbers. -/

def IsNumeral : List Char → Prop
  | [] => False
  | first :: rest => first.isDigit ∧ ∀ c ∈ rest, c.isDigit ∨ c = '.'

theorem isNumeral_append {front behind : List Char} (numeral : IsNumeral front)
    (more : ∀ c ∈ behind, c.isDigit ∨ c = '.') : IsNumeral (front ++ behind) := by
  cases front with
  | nil => exact numeral.elim
  | cons first rest =>
    refine ⟨numeral.1, fun c mem => ?_⟩
    rcases List.mem_append.mp mem with mem | mem
    · exact numeral.2 c mem
    · exact more c mem

theorem isNumeral_digits {digits : List Char} (filled : digits ≠ [])
    (each : ∀ c ∈ digits, c.isDigit) : IsNumeral digits := by
  cases digits with
  | nil => exact filled rfl
  | cons first rest =>
    rw [List.forall_mem_cons] at each
    exact ⟨each.1, fun c mem => .inl (each.2 c mem)⟩

theorem isDigit_toDigits (n : Nat) : ∀ c ∈ Nat.toDigits 10 n, c.isDigit := fun _ mem =>
  Nat.isDigit_of_mem_toDigits (by decide) (by decide) mem

theorem isNumeral_toDigits (n : Nat) : IsNumeral (Nat.toDigits 10 n) :=
  isNumeral_digits Nat.toDigits_ne_nil (isDigit_toDigits n)

theorem isNumeral_positional (n : Nat) (place : Int) :
    IsNumeral (Layout.positional (Nat.toDigits 10 n) place []) := by
  have digit : ∀ c ∈ Nat.toDigits 10 n, c.isDigit ∨ c = '.' := fun c mem =>
    .inl (isDigit_toDigits n c mem)
  have zero (count : Int) : ∀ c ∈ Layout.zeros count, c.isDigit ∨ c = '.' := fun c mem =>
    .inl (List.eq_of_mem_replicate mem ▸ rfl)
  unfold Layout.positional
  split_ifs with small short
  · refine isNumeral_append (isNumeral_append ⟨rfl, ?_⟩ (zero _)) digit
    exact List.forall_mem_singleton.mpr (.inr rfl)
  · rw [List.append_nil]
    exact isNumeral_append (isNumeral_toDigits n) (zero _)
  · have filled : (Nat.toDigits 10 n).take place.toNat ≠ [] := by
      rw [Ne, List.take_eq_nil_iff]
      rintro (none | none)
      · omega
      · exact Nat.toDigits_ne_nil none
    have front : IsNumeral ((Nat.toDigits 10 n).take place.toNat) :=
      isNumeral_digits filled fun c mem => isDigit_toDigits n c (List.mem_of_mem_take mem)
    refine isNumeral_append front (List.forall_mem_cons.mpr ⟨.inr rfl, fun c mem => ?_⟩)
    exact digit c (List.mem_of_mem_drop mem)

theorem isNumeral_chars {text : List Char} (numeral : IsNumeral text) :
    ∀ c ∈ text, isWordChar c || c == '.' := by
  cases text with
  | nil => exact numeral.elim
  | cons first rest =>
    have char {c : Char} (digit : c.isDigit) : isWordChar c || c == '.' := by
      simp [isWordChar, Char.isAlphanum, digit]
    refine List.forall_mem_cons.mpr ⟨char numeral.1, fun c mem => ?_⟩
    rcases numeral.2 c mem with digit | rfl
    · exact char digit
    · rfl

theorem isNumeral_spelled {text : List Char} (numeral : IsNumeral text) :
    (Token.number (String.ofList text)).isSpelled := by
  have chars := isNumeral_chars numeral
  cases text with
  | nil => exact numeral.elim
  | cons first rest =>
    simp only [isSpelled, String.toList_ofList, Bool.and_eq_true, List.all_eq_true]
    exact ⟨by simp [startsNumber, numeral.1], fun c mem => chars c (by simp [mem])⟩

theorem negative_spelled {text : List Char} (numeral : IsNumeral text) :
    (Token.number (String.ofList ('-' :: text))).isSpelled := by
  simp only [isSpelled, String.toList_ofList, Bool.and_eq_true, List.all_eq_true]
  exact ⟨rfl, isNumeral_chars numeral⟩

theorem signed_spelled {text : List Char} (x : Binary64) (numeral : IsNumeral text) :
    (Token.number (Layout.withSign x text)).isSpelled := by
  unfold Layout.withSign
  split_ifs
  · exact negative_spelled numeral
  · exact isNumeral_spelled numeral

theorem ofInt_spelled (i : Int) : (Token.number (Digits.ofInt i)).isSpelled := by
  have digits : String.ofList (Nat.toDigits 10 i.natAbs) = Digits.ofNat i.natAbs := by
    rw [Digits.ofNat, Nat.toString_eq_repr, ← String.toList_inj, Nat.toList_repr,
      String.toList_ofList]
  have numeral := isNumeral_toDigits i.natAbs
  unfold Digits.ofInt
  split_ifs
  · have signed : "-" ++ Digits.ofNat i.natAbs =
        String.ofList ('-' :: Nat.toDigits 10 i.natAbs) := by
      rw [← digits, ← String.toList_inj, String.toList_append]
      simp
    rw [signed]
    exact negative_spelled numeral
  · rw [← digits]
    exact isNumeral_spelled numeral

theorem plain_spelled {x : Binary64} (finite : x.isFinite) :
    (Token.number (Layout.plain x)).isSpelled := by
  have number : x.isNaN = false := by
    simp only [Binary64.isFinite, bne_iff_ne] at finite
    simp [Binary64.isNaN, finite]
  unfold Layout.plain
  simp only [number, finite, Bool.not_true, Bool.false_eq_true, if_false]
  split_ifs
  · exact signed_spelled x ⟨rfl, by simp⟩
  · refine signed_spelled x ?_
    simp only [Shortest.digits, Digits.ofNat, Nat.toString_eq_repr, Nat.toList_repr]
    exact isNumeral_positional _ _

/-! Literals. -/

variable {d : Dialect} {value : Value} {part : List Token}

theorem literal_cases (built : literal d value = .ok part) :
    (∃ text, value.quoted? = some text ∧ part = [.literal text]) ∨
      value.quoted? = none ∧
        ((∃ text, (Token.number text).isSpelled ∧ part = [.number text]) ∨
          ∃ text ∈ ["NULL", "TRUE", "FALSE"], part = [.word text]) := by
  cases value with
  | null =>
    cases built
    exact .inr ⟨rfl, .inr ⟨_, by simp, rfl⟩⟩
  | bool b =>
    simp only [literal] at built
    split_ifs at built with dialect holds holds
    · cases built
      exact .inr ⟨rfl, .inr ⟨_, by simp, rfl⟩⟩
    · cases built
      exact .inr ⟨rfl, .inr ⟨_, by simp, rfl⟩⟩
    · cases built
      exact .inr ⟨rfl, .inl ⟨_, by decide, rfl⟩⟩
    · cases built
      exact .inr ⟨rfl, .inl ⟨_, by decide, rfl⟩⟩
  | int i =>
    cases built
    exact .inr ⟨rfl, .inl ⟨_, ofInt_spelled _, rfl⟩⟩
  | float x =>
    simp only [literal] at built
    split_ifs at built with finite
    · cases built
      exact .inr ⟨rfl, .inl ⟨_, plain_spelled finite, rfl⟩⟩
    · cases built
  | _ =>
    cases built
    exact .inl ⟨_, rfl, rfl⟩

theorem literal_legible (built : literal d value = .ok part) : Legible part := by
  rcases literal_cases built with ⟨text, _, rfl⟩ | ⟨_, ⟨text, spelled, rfl⟩ | ⟨text, known, rfl⟩⟩
  · exact legible_singleton rfl
  · exact legible_singleton spelled
  · have spelled : ∀ text ∈ ["NULL", "TRUE", "FALSE"], (Token.word text).isSpelled := by decide
    exact legible_singleton (spelled text known)

theorem exists_of_forall₂ {α β : Type} {R : α → β → Prop} {items : List α} {others : List β}
    {other : β} (related : List.Forall₂ R items others) (mem : other ∈ others) :
    ∃ item ∈ items, R item other := by
  induction related with
  | nil => cases mem
  | cons first _ ih =>
    rcases List.mem_cons.mp mem with rfl | mem
    · exact ⟨_, List.mem_cons_self, first⟩
    · obtain ⟨item, inside, known⟩ := ih mem
      exact ⟨item, List.mem_cons_of_mem _ inside, known⟩

theorem cons_ok {α : Type} {first : Except Error α} {rest : Except Error (List α)} {all : List α} :
    (do let head ← first; let tail ← rest; .ok (head :: tail)) = Except.ok all ↔
      ∃ head tail, first = .ok head ∧ rest = .ok tail ∧ all = head :: tail := by
  cases first <;> cases rest <;> simp [bind, Except.bind, eq_comm]

theorem literals_ok {values : List Value} {parts : List (List Token)} :
    literals d values = .ok parts ↔
      List.Forall₂ (fun value part => literal d value = .ok part) values parts := by
  induction values generalizing parts with
  | nil =>
    rw [List.forall₂_nil_left_iff, literals, Except.ok.injEq]
    exact eq_comm
  | cons value rest ih =>
    rw [List.forall₂_cons_left_iff, literals, cons_ok]
    simp only [ih]

namespace TableDefinition
variable {d : Dialect} {composite : Bool} {name : String} {spec : ColumnSpec}

def flagged (d : Dialect) (composite : Bool) (spec : ColumnSpec) : List ColumnConstraint :=
  let inlineKey := spec.primaryKey && !composite
  (if inlineKey then [.primaryKey] else []) ++ increment d spec inlineKey ++
    (if (spec.required || spec.primaryKey) && !inlineKey then [.notNull] else []) ++
    (if spec.unique && !spec.primaryKey then [.unique] else [])

def amongChoices (name : String) (choices : List (List Token)) : List ColumnConstraint :=
  if choices.isEmpty then [] else [.oneOf name choices]

theorem defaultOf_ok {constraints : List ColumnConstraint} :
    defaultOf d spec = .ok constraints ↔
      ∃ parts, List.Forall₂ (fun value part => literal d value = .ok part)
        spec.default.toList parts ∧ constraints = parts.map .default := by
  unfold defaultOf
  cases spec.default with
  | none => simp [eq_comm]
  | some value =>
    simp only [Option.toList_some, List.forall₂_cons_left_iff, List.forall₂_nil_left_iff]
    cases literal d value <;> simp [Except.map, eq_comm]

theorem choicesOf_ok {constraints : List ColumnConstraint} :
    choicesOf d name spec = .ok constraints ↔
      ∃ parts, List.Forall₂ (fun value part => literal d value = .ok part)
        (spec.choices.getD []) parts ∧ constraints = amongChoices name parts := by
  cases known : spec.choices.getD [] with
  | nil =>
    have none : choicesOf d name spec = .ok [] := by
      unfold choicesOf
      cases given : spec.choices with
      | none => rfl
      | some values =>
        rw [given, Option.getD_some] at known
        rw [known]
    simp only [none, List.forall₂_nil_left_iff, exists_eq_left, Except.ok.injEq]
    exact eq_comm
  | cons value rest =>
    have some : choicesOf d name spec =
        (literals d (value :: rest)).map fun tokens => [.oneOf name tokens] := by
      unfold choicesOf
      cases given : spec.choices with
      | none => simp [given] at known
      | some values =>
        rw [given, Option.getD_some] at known
        rw [known]
    rw [some]
    simp only [← literals_ok]
    cases written : literals d (value :: rest) with
    | error e => simp [Except.map]
    | ok parts =>
      have filled : parts.isEmpty = false := by
        cases literals_ok.mp written
        rfl
      simp only [Except.map, Except.ok.injEq, exists_eq_left', amongChoices, filled,
        Bool.false_eq_true, if_false]
      exact eq_comm

theorem columnOf_ok {column : ColumnDefinition} :
    columnOf d composite name spec = .ok column ↔
      ∃ defaults choices,
        List.Forall₂ (fun value part => literal d value = .ok part)
          spec.default.toList defaults ∧
        List.Forall₂ (fun value part => literal d value = .ok part)
          (spec.choices.getD []) choices ∧
        column = ⟨name, columnType d spec, flagged d composite spec ++
          defaults.map .default ++ amongChoices name choices⟩ := by
  have parts : columnOf d composite name spec = .ok column ↔
      ∃ default choices, defaultOf d spec = .ok default ∧ choicesOf d name spec = .ok choices ∧
        column = ⟨name, columnType d spec, flagged d composite spec ++ default ++ choices⟩ := by
    unfold columnOf
    cases defaultOf d spec with
    | error e => simp [bind, Except.bind]
    | ok default =>
      cases choicesOf d name spec with
      | error e => simp [bind, Except.bind]
      | ok choices =>
        simp only [bind, Except.bind, Except.ok.injEq, flagged]
        exact ⟨fun same => ⟨_, _, rfl, rfl, same.symm⟩, fun ⟨_, _, rfl, rfl, same⟩ => same.symm⟩
  rw [parts]
  simp only [defaultOf_ok, choicesOf_ok]
  constructor
  · rintro ⟨_, _, ⟨defaults, written, rfl⟩, ⟨choices, among, rfl⟩, rfl⟩
    exact ⟨defaults, choices, written, among, rfl⟩
  · rintro ⟨defaults, choices, written, among, rfl⟩
    exact ⟨_, _, ⟨defaults, written, rfl⟩, ⟨choices, among, rfl⟩, rfl⟩

theorem columnsOf_ok {entries : List (String × ColumnSpec)} {columns : List ColumnDefinition} :
    columnsOf d composite entries = .ok columns ↔
      List.Forall₂ (fun entry column => columnOf d composite entry.1 entry.2 = .ok column)
        entries columns := by
  induction entries generalizing columns with
  | nil =>
    rw [List.forall₂_nil_left_iff, columnsOf, Except.ok.injEq]
    exact eq_comm
  | cons entry rest ih =>
    rw [List.forall₂_cons_left_iff, columnsOf, cons_ok]
    simp only [ih]

end TableDefinition

open TableDefinition

theorem Statement.createTable_ok {table : String} {schema : TableSchema} {d : Dialect}
    {s : Statement} :
    createTable table schema d = .ok s ↔
      schema.columns ≠ [] ∧ ∃ columns,
        List.Forall₂ (fun entry column =>
          columnOf d schema.isComposite entry.1 entry.2 = .ok column) schema.columns columns ∧
        s = ⟨d, TableDefinition.tokens d ⟨table, columns,
          if schema.isComposite then some schema.primaryKeys else none⟩⟩ := by
  unfold createTable ofSchema
  cases filled : schema.columns with
  | nil => simp [refuse, Except.map]
  | cons entry rest =>
    simp only [← columnsOf_ok, List.isEmpty_cons, Bool.false_eq_true, if_false]
    have composite : decide (1 < schema.primaryKeys.length) = schema.isComposite := rfl
    simp only [composite]
    cases columnsOf d schema.isComposite (entry :: rest) with
    | error e => simp [bind, Except.bind, Except.map]
    | ok columns =>
      simp only [bind, Except.bind, Except.map, Except.ok.injEq, exists_eq_left', ne_eq,
        reduceCtorEq, not_false_eq_true, true_and, TableSchema.isComposite, decide_eq_true_eq]
      exact eq_comm

/-! What a definition is made of can be read. -/

namespace TableDefinition
variable {d : Dialect} {composite : Bool} {name : String} {spec : ColumnSpec}

def incrementTokens : List (List Token) :=
  [[.word "AUTO_INCREMENT"], [.word "AUTOINCREMENT"],
    .word "IDENTITY" :: inParens [.number "1", .symbol ",", .number "1"]]

def flagTokens : List (List Token) :=
  [words ["PRIMARY", "KEY"], words ["NOT", "NULL"], [.word "UNIQUE"]] ++ incrementTokens

theorem increment_tokens {inlineKey : Bool} {constraint : ColumnConstraint}
    (mem : constraint ∈ increment d spec inlineKey) : constraint.tokens ∈ incrementTokens := by
  unfold increment at mem
  split at mem
  · cases mem
  · split at mem
    · rw [List.mem_singleton.mp mem]
      simp [ColumnConstraint.tokens, incrementTokens]
    · split at mem
      · rw [List.mem_singleton.mp mem]
        simp [ColumnConstraint.tokens, incrementTokens]
      · cases mem
    · rw [List.mem_singleton.mp mem]
      simp [ColumnConstraint.tokens, incrementTokens]
    · cases mem
    · cases mem

theorem flagged_tokens {constraint : ColumnConstraint}
    (mem : constraint ∈ flagged d composite spec) : constraint.tokens ∈ flagTokens := by
  have single {condition : Bool} {one : ColumnConstraint}
      (here : constraint ∈ if condition then [one] else []) : constraint = one := by
    cases condition
    · cases here
    · exact List.mem_singleton.mp here
  simp only [flagged, List.mem_append] at mem
  rcases mem with ((mem | mem) | mem) | mem
  · simp [single mem, ColumnConstraint.tokens, flagTokens]
  · exact List.mem_append_right _ (increment_tokens mem)
  · simp [single mem, ColumnConstraint.tokens, flagTokens]
  · simp [single mem, ColumnConstraint.tokens, flagTokens]

theorem flagTokens_legible {part : List Token} (mem : part ∈ flagTokens) : Legible part := by
  simp only [flagTokens, incrementTokens, List.cons_append, List.nil_append, List.mem_cons,
    List.not_mem_nil, or_false] at mem
  rcases mem with rfl | rfl | rfl | rfl | rfl | rfl <;> exact ⟨by decide, by decide⟩

theorem forall₂_legible {values : List Value} {parts : List (List Token)}
    (written : List.Forall₂ (fun value part => literal d value = .ok part) values parts) :
    ∀ part ∈ parts, Legible part := by
  intro part mem
  obtain ⟨value, _, made⟩ := exists_of_forall₂ written mem
  exact literal_legible made

theorem amongChoices_legible {parts : List (List Token)} (each : ∀ part ∈ parts, Legible part) :
    ∀ constraint ∈ amongChoices name parts, Legible constraint.tokens := by
  intro constraint mem
  unfold amongChoices at mem
  split_ifs at mem
  · cases mem
  · rw [List.mem_singleton.mp mem, ColumnConstraint.tokens]
    exact legible_cons_solo (by decide) (by decide) (legible_inParens
      (legible_cons_solo (by decide) rfl (legible_cons_solo (by decide) (by decide)
        (legible_inParens (legible_listed each)))))

theorem constraints_legible {column : ColumnDefinition}
    (built : columnOf d composite name spec = .ok column) :
    ∀ constraint ∈ column.constraints, Legible constraint.tokens := by
  obtain ⟨defaults, choices, written, among, rfl⟩ := columnOf_ok.mp built
  intro constraint mem
  simp only [List.mem_append, List.mem_map] at mem
  rcases mem with (mem | ⟨part, mem, rfl⟩) | mem
  · exact flagTokens_legible (flagged_tokens mem)
  · exact legible_cons_solo (by decide) (by decide) (forall₂_legible written part mem)
  · exact amongChoices_legible (forall₂_legible among) constraint mem

theorem columnOf_respelled {column : ColumnDefinition}
    (built : columnOf d composite name spec = .ok column) :
    respelled column.tokens = spaced ([.name name] :: pieces (columnType d spec) ::
      column.constraints.map ColumnConstraint.tokens) := by
  have kept : (column.constraints.map ColumnConstraint.tokens).map respelled =
      column.constraints.map ColumnConstraint.tokens := by
    rw [List.map_map]
    refine List.map_congr_left fun constraint mem => ?_
    exact respelled_legible (constraints_legible built constraint mem)
  obtain ⟨defaults, choices, _, _, rfl⟩ := columnOf_ok.mp built
  rw [ColumnDefinition.tokens, respelled_spaced, List.map_cons, List.map_cons, kept,
    respelled_word]
  rfl

theorem columnOf_legible {column : ColumnDefinition}
    (built : columnOf d composite name spec = .ok column) : Legible (respelled column.tokens) := by
  rw [columnOf_respelled built]
  refine legible_spaced (List.forall_mem_cons.mpr ⟨legible_singleton rfl,
    List.forall_mem_cons.mpr ⟨columnType_legible d spec, fun part mem => ?_⟩⟩)
  obtain ⟨constraint, inside, rfl⟩ := List.mem_map.mp mem
  exact constraints_legible built constraint inside

theorem absenceTest_legible (name : String) : Legible (absenceTest name) := by
  unfold absenceTest
  have asked : Legible [.word "N", .literal name, .symbol ",", .space, .word "N", .literal "U"] :=
    ⟨by simp [isSpelled]; decide, by simp +decide [Apart, kind]⟩
  have named : Legible (.word "OBJECT_ID" :: inParens
      [.word "N", .literal name, .symbol ",", .space, .word "N", .literal "U"]) :=
    legible_cons_solo (by decide) (by decide) (legible_around (by decide) asked legible_nil)
  have front : Legible (.word "IF" :: .space :: .word "OBJECT_ID" :: inParens
      [.word "N", .literal name, .symbol ",", .space, .word "N", .literal "U"]) :=
    legible_cons_solo (by decide) (by decide) named
  exact legible_around (by decide) front (legible_words (by decide))

theorem keyTokens_legible (keys : Option (List String)) :
    ∀ part ∈ keyTokens keys, Legible part := by
  cases keys with
  | none => simp [keyTokens]
  | some columns =>
    refine List.forall_mem_singleton.mpr ?_
    exact legible_around (by decide) (legible_words (by decide))
      (legible_inParens (legible_names columns))

end TableDefinition

namespace Statement
variable {table : String} {schema : TableSchema} {d : Dialect} {s : Statement}

theorem createTable_legible (built : createTable table schema d = .ok s) :
    Legible (respelled s.tokens) := by
  obtain ⟨_, columns, made, rfl⟩ := createTable_ok.mp built
  have kept {part : List Token} (known : Legible part) : Legible (respelled part) := by
    rwa [respelled_legible known]
  have body (keys : Option (List String)) : Legible
      (respelled (inParens (listed (columns.map ColumnDefinition.tokens ++ keyTokens keys)))) := by
    rw [respelled_inParens, respelled_listed]
    refine legible_inParens (legible_listed fun part mem => ?_)
    simp only [List.map_append, List.map_map, List.mem_append, List.mem_map] at mem
    rcases mem with ⟨column, mem, rfl⟩ | ⟨key, mem, rfl⟩
    · obtain ⟨entry, _, defined⟩ := exists_of_forall₂ made mem
      exact columnOf_legible defined
    · exact kept (keyTokens_legible keys key mem)
  have name := kept (legible_table table)
  simp only [TableDefinition.tokens]
  generalize (if schema.isComposite then some schema.primaryKeys else none) = keys
  split_ifs <;> rw [respelled_spaced] <;> refine legible_spaced ?_ <;>
    simp only [List.map_cons, List.map_nil, List.forall_mem_cons, List.not_mem_nil,
      IsEmpty.forall_iff, implies_true, and_true]
  · exact ⟨kept (absenceTest_legible table), kept (legible_words (by decide)), name, body _⟩
  · exact ⟨kept (legible_words (by decide)), name, body _⟩

theorem createTable_dialect (built : createTable table schema d = .ok s) : s.dialect = d := by
  obtain ⟨_, _, _, rfl⟩ := createTable_ok.mp built
  rfl

theorem createTable_read (known : d.isSql) (built : createTable table schema d = .ok s) :
    Lexeme.ofText d s.sql = some (lexemes d 1 (respelled s.tokens)) := by
  rw [Statement.sql, textOf, createTable_dialect built, ← render_respelled]
  exact ofText_render known (createTable_legible built)

end Statement
end Sql
end StoreBridge
