import StoreBridge.Proofs.Sql.Command
import StoreBridge.Proofs.Text.Numerals

/-!
What a SELECT says. Its text is read under the grammar of its dialect into columns, a table, a
condition, an order and a window, in that order and each at most once, and what is read are the
options that were given. Dialects write a missing limit in different ways, so a window is told by
the rows that it leaves of a result. Which numbers a server takes is not for the grammar to say.
-/
namespace StoreBridge.Sql

/-- Which rows of a result are kept: those behind the first `skip`, and no more than `count`. -/
structure Window where
  skip : Nat
  count : Option Nat
  deriving DecidableEq, Repr

def Window.keep {α : Type} (w : Window) (rows : List α) : List α :=
  match w.count with
  | none => rows.drop w.skip
  | some count => (rows.drop w.skip).take count

def Window.kept {α : Type} (w : Option Window) (rows : List α) : List α :=
  match w with
  | none => rows
  | some w => w.keep rows

inductive Order where
  | columns (sort : List (String × Direction))
  /-- An order that is none, for the sake of a window behind it. -/
  | any
  deriving DecidableEq, Repr

structure Selection where
  columns : Option (List String)
  table : List String
  condition : Option (Formula FieldTest)
  order : Option Order
  window : Option Window
  deriving Repr

namespace Selection
open Grammar

def keep {α : Type} (s : Selection) (rows : List α) : List α := Window.kept s.window rows

def nameList : Lexemes → Option (List String × Lexemes)
  | .name column :: .symbol "," :: rest =>
    (nameList rest).map fun (others, rest) => (column :: others, rest)
  | .name column :: rest => some ([column], rest)
  | _ => none

def readColumns : Lexemes → Option (Option (List String) × Lexemes)
  | .symbol "*" :: rest => some (none, rest)
  | lexemes => (nameList lexemes).map fun (columns, rest) => (some columns, rest)

def readCondition : Lexemes → Option (Option (Formula FieldTest) × Lexemes)
  | .word "WHERE" :: rest =>
    (selection (.word "WHERE" :: rest)).map fun (condition, rest) => (some condition, rest)
  | rest => some (none, rest)

def direction? : String → Option Direction
  | "ASC" => some .ascending
  | "DESC" => some .descending
  | _ => none

def sortList : Lexemes → Option (List (String × Direction) × Lexemes)
  | .name column :: .word text :: .symbol "," :: rest =>
    (direction? text).bind fun direction =>
      (sortList rest).map fun (others, rest) => ((column, direction) :: others, rest)
  | .name column :: .word text :: rest =>
    (direction? text).map fun direction => ([(column, direction)], rest)
  | _ => none

def readOrder : Lexemes → Option (Option Order × Lexemes)
  | .word "ORDER" :: .word "BY" :: .symbol "(" :: .word "SELECT" :: .word "NULL" ::
      .symbol ")" :: rest => some (some .any, rest)
  | .word "ORDER" :: .word "BY" :: rest =>
    (sortList rest).map fun (sort, rest) => (some (.columns sort), rest)
  | rest => some (none, rest)

def readCount (text : String) : Option Nat := Digits.toNat? text.toList

/-- The limit that a numeral sets. A negative one sets none in SQLite. -/
def readLimit (d : Dialect) (text : String) : Option (Option Nat) :=
  (Digits.toInt? text.toList).bind fun i =>
    if 0 ≤ i then some (some i.toNat) else if d = .sqlite then some none else none

/-- A window in front of which a limit stands. Only PostgreSQL has one without. -/
def readLimited (d : Dialect) : Lexemes → Option (Option Window)
  | [] => some none
  | [.word "LIMIT", .number limit] => (readLimit d limit).map fun count => some ⟨0, count⟩
  | [.word "LIMIT", .number limit, .word "OFFSET", .number offset] =>
    (readLimit d limit).bind fun count => (readCount offset).map fun skip => some ⟨skip, count⟩
  | [.word "OFFSET", .number offset] =>
    if d = .postgres then (readCount offset).map fun skip => some ⟨skip, none⟩ else none
  | _ => none

def readFetched : Lexemes → Option (Option Window)
  | [] => some none
  | [.word "OFFSET", .number offset, .word "ROWS"] =>
    (readCount offset).map fun skip => some ⟨skip, none⟩
  | [.word "OFFSET", .number offset, .word "ROWS", .word "FETCH", .word "NEXT", .number limit,
      .word "ROWS", .word "ONLY"] =>
    (readCount offset).bind fun skip => (readCount limit).map fun count => some ⟨skip, some count⟩
  | _ => none

def readWindow (d : Dialect) (order : Option Order) (lexemes : Lexemes) :
    Option (Option Window) :=
  match d, order, lexemes with
  | .mssql, some _, lexemes => readFetched lexemes
  | .mssql, none, [] => some none
  | .mssql, none, _ => none
  | d, _, lexemes => readLimited d lexemes

def ofLexemes (d : Dialect) : Lexemes → Option Selection
  | .word "SELECT" :: rest =>
    match readColumns rest with
    | some (columns, .word "FROM" :: rest) =>
      (tableName rest).bind fun (table, rest) =>
        (readCondition rest).bind fun (condition, rest) =>
          (readOrder rest).bind fun (order, rest) =>
            (readWindow d order rest).map fun window => ⟨columns, table, condition, order, window⟩
    | _ => none
  | _ => none

end Selection

def Statement.selection (s : Statement) : Option Selection :=
  (Lexeme.ofText s.dialect s.sql).bind fun lexemes =>
    (Lexeme.bound 1 s.parameters 0 lexemes).bind (Selection.ofLexemes s.dialect)

end StoreBridge.Sql

namespace StoreBridge

namespace FindOptions

def window (o : FindOptions) : Sql.Window := ⟨o.offset.getD 0, o.limit⟩

/-- Whether options cut a result at either end. -/
def Cuts (o : FindOptions) : Prop := o.limit ≠ none ∨ o.offset ≠ none

instance (o : FindOptions) : Decidable o.Cuts := inferInstanceAs (Decidable (_ ∨ _))

def order (d : Dialect) (o : FindOptions) : Option Sql.Order :=
  if o.sort ≠ [] then some (.columns o.sort)
  else if d = .mssql ∧ o.Cuts then some .any
  else none

theorem order_needed {d : Dialect} (o : FindOptions) (server : d = .mssql) (cuts : o.Cuts) :
    o.order d ≠ none := by
  unfold order
  split
  · simp
  · simp [server, cuts]

end FindOptions

theorem Digits.toInt?_toDigits (n : Nat) : toInt? (Nat.toDigits 10 n) = some (n : Int) := by
  have read := toNat?_toDigits n
  obtain ⟨c, rest, form, digit⟩ := toDigits_cons n
  rw [form] at read ⊢
  unfold toInt?
  split
  · rename_i same
    rw [(List.cons.inj same).1] at digit
    exact absurd digit (by decide)
  · rename_i same
    rw [(List.cons.inj same).1] at digit
    exact absurd digit (by decide)
  · rw [read]
    rfl

namespace Sql
open Grammar

namespace Selection

theorem readCount_written (n : Nat) : readCount (Digits.ofNat n) = some n := by
  rw [readCount, Digits.toList_ofNat, Digits.toNat?_toDigits]

theorem readLimit_written (d : Dialect) (n : Nat) :
    readLimit d (Digits.ofNat n) = some (some n) := by
  simp [readLimit, Digits.toList_ofNat, Digits.toInt?_toDigits]

theorem nameList_listed {names : List String} (some : names ≠ []) (rest : Lexemes)
    (ends : rest.head? ≠ .some (.symbol ",")) :
    nameList (List.intercalate [.symbol ","] (names.map fun name => [.name name]) ++ rest) =
      .some (names, rest) := by
  refine separated_read (fun name rest => ?_) (fun name rest ends => ?_) some rest ends
  · rw [List.singleton_append, nameList]
  · rw [List.singleton_append, nameList]
    rintro behind rfl
    exact ends rfl

theorem direction?_keyword (direction : Direction) :
    direction? direction.keyword = some direction := by
  cases direction <;> rfl

theorem sortList_listed {sort : List (String × Direction)} (some : sort ≠ []) (rest : Lexemes)
    (ends : rest.head? ≠ .some (.symbol ",")) :
    sortList (List.intercalate [.symbol ","]
      (sort.map fun entry => [.name entry.1, .word entry.2.keyword]) ++ rest) =
      .some (sort, rest) := by
  refine separated_read (fun entry rest => ?_) (fun entry rest ends => ?_) some rest ends
  · simp only [List.cons_append, List.nil_append, sortList, direction?_keyword, Option.bind_some]
  · simp only [List.cons_append, List.nil_append]
    rw [sortList, direction?_keyword, Option.map_some]
    rintro behind rfl
    exact ends rfl

end Selection

namespace Token

theorem read_parts (parts : List (List Token)) : read (spaced parts) = parts.flatMap read := by
  induction parts with
  | nil => rfl
  | cons part rest ih => rw [read_spaced, ih, List.flatMap_cons]

theorem read_filled (parts : List (List Token)) :
    read (spaced (parts.filter fun part => !part.isEmpty)) = parts.flatMap read := by
  rw [read_parts]
  induction parts with
  | nil => rfl
  | cons part rest ih =>
    cases part with
    | nil => simpa using ih
    | cons token others => simp [ih]

theorem read_names (texts : List String) :
    read (names texts) = List.intercalate [.symbol ","] (texts.map fun text => [.name text]) := by
  rw [names, listed, Predicate.read_intercalate, List.map_map]
  rfl

end Token

namespace Statement

def orderTokens (d : Dialect) (options : FindOptions) : List Token :=
  let order := orderBy options.sort
  if order.isEmpty && d == .mssql && !(window d options.limit options.offset).isEmpty then anyOrder
  else order

theorem read_tail (d : Dialect) (options : FindOptions) :
    Token.read (Token.spaced (tail d options)) =
      Token.read (orderTokens d options) ++
        Token.read (window d options.limit options.offset) := by
  refine (Token.read_filled [orderTokens d options, window d options.limit options.offset]).trans ?_
  simp

theorem read_sortTokens (sort : List (String × Direction)) :
    Token.read (sortTokens sort) = List.intercalate [.symbol ","]
      (sort.map fun entry => [.name entry.1, .word entry.2.keyword]) := by
  rw [sortTokens, Token.listed, Predicate.read_intercalate, List.map_map]
  rfl

theorem window_nil_iff (d : Dialect) (o : FindOptions) :
    window d o.limit o.offset = [] ↔ ¬o.Cuts := by
  unfold FindOptions.Cuts
  cases o.limit <;> cases o.offset <;> cases d <;>
    simp [window, fetchWindow, limitWindow, skipped, limited, Token.spaced, Token.words]

end Statement

namespace Selection

theorem keep_boundless {α : Type} {rows : List α} (short : rows.length < 2 ^ 64 - 1) (skip : Nat) :
    Window.keep ⟨skip, some Statement.boundless⟩ rows = Window.keep ⟨skip, none⟩ rows := by
  refine List.take_of_length_le ?_
  rw [List.length_drop, Statement.boundless]
  omega

theorem readWindow_written {d : Dialect} (sql : d.isSql) (o : FindOptions) {order : Option Order}
    (ordered : d = .mssql → o.Cuts → order ≠ none) :
    ∃ w, readWindow d order (Token.read (Statement.window d o.limit o.offset)) = some w ∧
      (w = none ↔ ¬o.Cuts) ∧ ∀ {α : Type} (rows : List α), rows.length < 2 ^ 64 - 1 →
        Window.kept w rows = o.window.keep rows := by
  have exact (cuts : o.Cuts)
      (read : readWindow d order (Token.read (Statement.window d o.limit o.offset)) =
        some (some o.window)) :
      ∃ w, readWindow d order (Token.read (Statement.window d o.limit o.offset)) = some w ∧
        (w = none ↔ ¬o.Cuts) ∧ ∀ {α : Type} (rows : List α), rows.length < 2 ^ 64 - 1 →
          Window.kept w rows = o.window.keep rows :=
    ⟨some o.window, read, by simp [cuts], fun rows _ => rfl⟩
  obtain ⟨sort, limit, offset, select⟩ := o
  cases limit with
  | none =>
    cases offset with
    | none =>
      refine ⟨none, ?_, by simp [FindOptions.Cuts], fun rows _ => rfl⟩
      cases d <;> cases order <;> rfl
    | some skip =>
      have cuts : FindOptions.Cuts ⟨sort, none, some skip, select⟩ := by simp [FindOptions.Cuts]
      have skipped := readCount_written skip
      cases d with
      | document => cases sql
      | postgres =>
        refine exact cuts ?_
        change readLimited .postgres [.word "OFFSET", .number (Digits.ofNat skip)] = _
        simp only [readLimited, skipped, if_pos, Option.map_some]
        rfl
      | sqlite =>
        refine exact cuts ?_
        change readLimited .sqlite [.word "LIMIT", .number "-1", .word "OFFSET",
          .number (Digits.ofNat skip)] = _
        have unlimited : readLimit .sqlite "-1" = some none := rfl
        simp only [readLimited, unlimited, skipped, Option.bind_some, Option.map_some]
        rfl
      | mysql =>
        refine ⟨some ⟨skip, some Statement.boundless⟩, ?_, by simp [cuts], fun rows short =>
          keep_boundless short skip⟩
        change readLimited .mysql [.word "LIMIT", .number (Digits.ofNat Statement.boundless),
          .word "OFFSET", .number (Digits.ofNat skip)] = _
        simp only [readLimited, readLimit_written, skipped, Option.bind_some, Option.map_some]
      | mssql =>
        obtain ⟨before, rfl⟩ := Option.ne_none_iff_exists'.mp (ordered rfl cuts)
        refine exact cuts ?_
        change readFetched [.word "OFFSET", .number (Digits.ofNat skip), .word "ROWS"] = _
        simp only [readFetched, skipped, Option.map_some]
        rfl
  | some count =>
    have cuts : FindOptions.Cuts ⟨sort, some count, offset, select⟩ := by simp [FindOptions.Cuts]
    refine exact cuts ?_
    cases d with
    | document => cases sql
    | mssql =>
      obtain ⟨before, rfl⟩ := Option.ne_none_iff_exists'.mp (ordered rfl cuts)
      change readFetched [.word "OFFSET", .number (Digits.ofNat (offset.getD 0)), .word "ROWS",
        .word "FETCH", .word "NEXT", .number (Digits.ofNat count), .word "ROWS", .word "ONLY"] = _
      simp only [readFetched, readCount_written, Option.bind_some, Option.map_some]
      rfl
    | postgres | sqlite | mysql =>
      cases offset with
      | none =>
        change readLimited _ [.word "LIMIT", .number (Digits.ofNat count)] = _
        simp only [readLimited, readLimit_written, Option.map_some]
        rfl
      | some skip =>
        change readLimited _ [.word "LIMIT", .number (Digits.ofNat count), .word "OFFSET",
          .number (Digits.ofNat skip)] = _
        simp only [readLimited, readLimit_written, readCount_written, Option.bind_some,
          Option.map_some]
        rfl

/-! The order. -/

def orderLexemes : Option Order → Lexemes
  | none => []
  | some .any => [.word "ORDER", .word "BY", .symbol "(", .word "SELECT", .word "NULL", .symbol ")"]
  | some (.columns sort) => .word "ORDER" :: .word "BY" :: List.intercalate [.symbol ","]
      (sort.map fun entry => [.name entry.1, .word entry.2.keyword])

theorem read_orderTokens (d : Dialect) (o : FindOptions) :
    Token.read (Statement.orderTokens d o) = orderLexemes (o.order d) := by
  unfold Statement.orderTokens FindOptions.order
  by_cases sorted : o.sort = []
  · have nothing : Statement.orderBy o.sort = [] := by rw [Statement.orderBy, sorted]; rfl
    have asked : (([] : List Token).isEmpty && d == .mssql &&
        !(Statement.window d o.limit o.offset).isEmpty) = true ↔ d = .mssql ∧ o.Cuts := by
      rw [Bool.and_eq_true, Bool.and_eq_true, Bool.not_eq_true', List.isEmpty_eq_false_iff, Ne,
        Statement.window_nil_iff, not_not, beq_iff_eq]
      simp
    rw [nothing, if_neg (not_not.mpr sorted)]
    simp only [asked]
    split
    · rfl
    · rfl
  · have written : Statement.orderBy o.sort =
        Token.words ["ORDER", "BY"] ++ .space :: Statement.sortTokens o.sort := by
      rw [Statement.orderBy, if_neg (by simpa using sorted)]
    rw [written, if_pos sorted, orderLexemes, ← Statement.read_sortTokens]
    rfl

theorem readOrder_written (d : Dialect) (o : FindOptions) {rest : Lexemes}
    (apart : rest.head? ≠ some (.symbol ",")) (plain : rest.head? ≠ some (.word "ORDER")) :
    readOrder (orderLexemes (o.order d) ++ rest) = some (o.order d, rest) := by
  unfold FindOptions.order
  by_cases sorted : o.sort = []
  · rw [if_neg (not_not.mpr sorted)]
    split
    · rfl
    · rw [orderLexemes, List.nil_append, readOrder]
      · rintro behind rfl
        exact plain rfl
      · rintro behind rfl
        exact plain rfl
  · rw [if_pos sorted, orderLexemes, List.cons_append, List.cons_append, readOrder,
      sortList_listed sorted rest apart]
    · rfl
    · -- The first column is no bracket.
      intro behind same
      obtain ⟨entry, others, sort⟩ := List.exists_cons_of_ne_nil sorted
      rw [sort] at same
      cases others <;> simp at same

/-! The parts in front of it. -/

theorem head_ne {texts : List String} {lexemes : Lexemes} {other : Lexeme Value}
    (starts : ∀ first ∈ lexemes.head?, ∃ text ∈ texts, first = .word text)
    (different : ∀ text ∈ texts, other ≠ .word text) : lexemes.head? ≠ some other := by
  intro same
  obtain ⟨text, mem, word⟩ := starts other same
  exact different text mem word

theorem window_starts (d : Dialect) (limit offset : Option Nat) :
    ∀ first ∈ (Token.read (Statement.window d limit offset)).head?,
      ∃ text ∈ ["LIMIT", "OFFSET"], first = .word text := by
  intro first starts
  cases limit <;> cases offset <;> cases d <;> cases starts <;> exact ⟨_, by simp, rfl⟩

theorem tail_starts (d : Dialect) (o : FindOptions) :
    ∀ first ∈ (orderLexemes (o.order d) ++
        Token.read (Statement.window d o.limit o.offset)).head?,
      ∃ text ∈ ["ORDER", "LIMIT", "OFFSET"], first = .word text := by
  intro first starts
  match order : o.order d with
  | none =>
    rw [order, orderLexemes, List.nil_append] at starts
    obtain ⟨text, mem, same⟩ := window_starts d o.limit o.offset first starts
    exact ⟨text, List.mem_cons_of_mem _ mem, same⟩
  | some .any | some (.columns _) =>
    rw [order, orderLexemes] at starts
    cases starts
    exact ⟨_, List.mem_cons_self, rfl⟩

theorem readColumns_written (fields : List String) (rest : Lexemes) :
    readColumns (Token.read (Statement.selectList fields) ++ .word "FROM" :: rest) =
      some (if fields = [] then none else some fields, .word "FROM" :: rest) := by
  unfold Statement.selectList
  by_cases every : fields = []
  · subst every
    rfl
  · rw [if_neg (by simpa using every), if_neg every, Token.read_names, readColumns,
      nameList_listed every _ (by simp)]
    · rfl
    · intro behind same
      obtain ⟨field, others, fields⟩ := List.exists_cons_of_ne_nil every
      rw [fields] at same
      cases others <;> simp at same

theorem readCondition_written {d : Dialect} {filter : Filter} {clause : Clause} {rest : Lexemes}
    (compiled : Clause.ofFilter d filter = .ok clause) (ends : Clause.Ends rest) :
    ∃ condition, readCondition (Token.read clause.whereTokens ++ rest) = some (condition, rest) ∧
      (condition = none ↔ clause.matchesAll) ∧ (condition ≠ none →
        condition = conditionOfText d 1 (clause.text d 1) clause.parameters) := by
  cases every : clause.matchesAll with
  | true =>
    have written : Token.read clause.whereTokens = [] := by simp [Clause.whereTokens, every]
    refine ⟨none, ?_, by simp, by simp⟩
    rw [written, List.nil_append, readCondition]
    rintro behind rfl
    exact ends.2.2 rfl
  | false =>
    have reads := Clause.reads_asked (Clause.ofConditions_asks (Clause.ofFilter_ok.mp compiled).2)
    have chosen := Clause.chooses_written reads every rest ends
    have written : Token.read clause.whereTokens = .word "WHERE" :: Token.read clause.tokens := by
      simp [Clause.whereTokens, every, Token.meant]
    refine ⟨some _, ?_, by simp, fun _ => (Clause.text_poses compiled 1).written.symm⟩
    rw [written, List.cons_append] at chosen ⊢
    rw [readCondition, chosen]
    rfl

end Selection

namespace Statement
variable {d : Dialect} {table : String} {filter : Filter} {options : FindOptions} {s : Statement}

theorem read_select (table : String) (clause : Clause) (options : FindOptions) (d : Dialect) :
    Token.read (Token.spaced (Token.spaced [[.word "SELECT"], selectList options.select,
        [.word "FROM"], Token.table table ++ clause.whereTokens] :: tail d options)) =
      .word "SELECT" :: (Token.read (selectList options.select) ++ .word "FROM" ::
        (namedTable table ++ (Token.read clause.whereTokens ++
          (Selection.orderLexemes (options.order d) ++
            Token.read (window d options.limit options.offset))))) := by
  simp only [Token.read_spaced, read_tail, Selection.read_orderTokens, Token.read_append,
    Token.read_table]
  simp [Token.spaced, Token.meant]

/-- The text of a SELECT says the columns, the table, the condition of the filter, the order and the
    window of its options, and nothing else. SQL Server's window stands behind an order, which is
    made up only where none is asked for. -/
theorem select_says_options (built : select table filter options d = .ok s) :
    ∃ clause said, Clause.ofFilter d filter = .ok clause ∧ s.selection = some said ∧
      said.columns = (if options.select = [] then none else some options.select) ∧
      said.table = tableParts table ∧
      (said.condition = none ↔ clause.matchesAll) ∧
      (said.condition ≠ none →
        said.condition = conditionOfText d 1 (clause.text d 1) clause.parameters) ∧
      said.order = (if options.sort ≠ [] then some (.columns options.sort)
        else if d = .mssql ∧ said.window ≠ none then some .any else none) ∧
      (said.window = none ↔ options.limit = none ∧ options.offset = none) ∧
      ∀ {α : Type} (rows : List α), rows.length < 2 ^ 64 - 1 →
        said.keep rows = Window.keep ⟨options.offset.getD 0, options.limit⟩ rows := by
  have legible := select_legible built
  obtain ⟨clause, compiled, rfl⟩ := select_built built
  obtain ⟨sql, conditions⟩ := Clause.ofFilter_ok.mp compiled
  have starts := Selection.tail_starts d options
  have ends : Clause.Ends (Selection.orderLexemes (options.order d) ++
      Token.read (window d options.limit options.offset)) :=
    ⟨Selection.head_ne starts (by simp), Selection.head_ne starts (by simp),
      Selection.head_ne starts (by simp)⟩
  have named := Grammar.tableName_parts (Token.tableParts_ne_nil table) _
    (clause.whereTokens_head _ "." (Selection.head_ne starts (by simp)))
  obtain ⟨condition, conditioned, always, same⟩ :=
    Selection.readCondition_written compiled ends
  have behind := Selection.window_starts d options.limit options.offset
  have ordered := Selection.readOrder_written d options
    (Selection.head_ne behind (by simp)) (Selection.head_ne behind (by simp))
  obtain ⟨w, windowed, uncut, keeps⟩ :=
    Selection.readWindow_written sql options options.order_needed
  have whole : Selection.ofLexemes d (Token.read (Token.spaced (Token.spaced [[.word "SELECT"],
      selectList options.select, [.word "FROM"], Token.table table ++ clause.whereTokens] ::
        tail d options))) = some ⟨if options.select = [] then none else some options.select,
          tableParts table, condition, options.order d, w⟩ := by
    rw [read_select, Selection.ofLexemes, Selection.readColumns_written]
    simp only [named, conditioned, ordered, windowed, Option.bind_some, Option.map_some]
  refine ⟨clause, _, compiled, (bound_read sql legible _).trans whole, rfl, rfl, always, same, ?_,
    ?_, fun rows short => keeps rows short⟩
  · rw [FindOptions.order]
    simp only [ne_eq, uncut, not_not]
  · rw [uncut, FindOptions.Cuts]
    simp

/-- Columns with marks and keywords in their names, and an offset without a limit, in SQL Server,
    where no order is asked for, and in MySQL. -/
theorem select_says_options_offset :
    let columns := ["a], [b", "FROM", "ORDER BY x"]
    let sort := [("`DESC, ", Direction.ascending), ("FROM", .descending)]
    let rows := ["Ann", "Bob", "Eve", "Joe"]
    (∃ s said, select "dbo.users" [] ⟨[], none, some 3, columns⟩ .mssql = .ok s ∧
      s.selection = some said ∧ said.columns = some columns ∧ said.condition = none ∧
      said.order = some .any ∧ said.keep rows = ["Joe"]) ∧
    ∃ s said, select "users" (.equals "n" .null) ⟨sort, none, some 1, []⟩ .mysql = .ok s ∧
      s.selection = some said ∧ said.columns = none ∧ said.condition ≠ none ∧
      said.order = some (.columns sort) ∧ said.keep rows = ["Bob", "Eve", "Joe"] := by
  intro columns sort rows
  constructor
  · obtain ⟨s, built⟩ : ∃ s, select "dbo.users" [] ⟨[], none, some 3, columns⟩ .mssql = .ok s :=
      ⟨_, rfl⟩
    obtain ⟨clause, said, compiled, reads, listed, _, always, _, order, window, keeps⟩ :=
      select_says_options built
    cases compiled
    have cut : said.window ≠ none := fun whole => absurd (window.mp whole).2 (by simp)
    refine ⟨s, said, built, reads, listed, always.mpr rfl, ?_, keeps rows (by decide)⟩
    rw [order, if_neg (by simp), if_pos ⟨rfl, cut⟩]
  · obtain ⟨s, built⟩ : ∃ s, select "users" (.equals "n" .null) ⟨sort, none, some 1, []⟩ .mysql =
      .ok s := ⟨_, rfl⟩
    obtain ⟨clause, said, compiled, reads, listed, _, always, _, order, _, keeps⟩ :=
      select_says_options built
    cases compiled
    exact ⟨s, said, built, reads, listed, fun none => absurd (always.mp none) (by decide), order,
      keeps rows (by decide)⟩

end Statement
end Sql
end StoreBridge
