import StoreBridge.Proofs.Sql.DefinitionNames
import StoreBridge.Proofs.Sql.Operands

/-!
The keys that the text of a table's definition declares, and the rows that they let in. The text is
taken apart at its commas; a column's definition declares the column a key where it says so, and a
primary key of several columns stands in a definition of its own.
-/
namespace StoreBridge.Sql

namespace Lexeme

def deeper (depth : Nat) (lexeme : Lexeme String) : Nat :=
  if lexeme = .symbol "(" then depth + 1
  else if lexeme = .symbol ")" then depth - 1
  else depth

/-- The items of a list, up to the parenthesis that closes it. Inner parentheses stay together. -/
def items : Nat → List (Lexeme String) → List (List (Lexeme String))
  | _, [] => [[]]
  | depth, lexeme :: rest =>
    if depth = 0 ∧ lexeme = .symbol ")" then [[]]
    else if depth = 0 ∧ lexeme = .symbol "," then [] :: items 0 rest
    else (items (deeper depth lexeme) rest).modifyHead (lexeme :: ·)

def definitions (lexemes : List (Lexeme String)) : List (List (Lexeme String)) :=
  items 0 ((lexemes.dropWhile (· ≠ .word "TABLE")).dropWhile (· ≠ .symbol "(")).tail

/-- The keys that a definition declares, each by its columns. -/
def keysOf : List (Lexeme String) → List (List String)
  | .name column :: rest =>
    (if .word "PRIMARY" ∈ rest then [[column]] else []) ++
      if .word "UNIQUE" ∈ rest then [[column]] else []
  | .word "PRIMARY" :: rest | .word "UNIQUE" :: rest => [names rest]
  | _ => []

def keys (lexemes : List (Lexeme String)) : List (List String) :=
  (definitions lexemes).flatMap keysOf

end Lexeme

variable {Cell : Type}

/-- Rows of which no two agree in all columns of a key. -/
def Distinct (key : List String) (rows : List (String → Cell)) : Prop :=
  rows.Pairwise fun row other => ∃ column ∈ key, row column ≠ other column

/-- Rows without nulls that a table lets in whose definition has these lexemes. -/
def Admits (lexemes : List (Lexeme String)) (rows : List (String → Cell)) : Prop :=
  ∀ key ∈ Lexeme.keys lexemes, Distinct key rows

namespace Lexeme

/-! Where a definition ends. -/

/-- The depth behind lexemes that end no item. -/
def depthAfter : Nat → List (Lexeme String) → Option Nat
  | depth, [] => some depth
  | depth, lexeme :: rest =>
    if depth = 0 ∧ (lexeme = .symbol ")" ∨ lexeme = .symbol ",") then none
    else depthAfter (deeper depth lexeme) rest

def Enclosed (depth : Nat) (part : List (Lexeme String)) : Prop :=
  depthAfter depth part = some depth

theorem items_append {depth after : Nat} {part rest : List (Lexeme String)}
    (through : depthAfter depth part = some after) :
    items depth (part ++ rest) = (items after rest).modifyHead (part ++ ·) := by
  induction part generalizing depth with
  | nil =>
    cases through
    rw [List.nil_append]
    cases items after rest <;> rfl
  | cons lexeme part ih =>
    rw [depthAfter] at through
    split_ifs at through with ends
    rw [not_and_or, not_or] at ends
    have closes : ¬(depth = 0 ∧ lexeme = .symbol ")") := by tauto
    have parts : ¬(depth = 0 ∧ lexeme = .symbol ",") := by tauto
    rw [List.cons_append, items, if_neg closes, if_neg parts, ih through]
    cases items after rest <;> rfl

theorem depthAfter_append {depth middle : Nat} {part rest : List (Lexeme String)}
    (through : depthAfter depth part = some middle) :
    depthAfter depth (part ++ rest) = depthAfter middle rest := by
  induction part generalizing depth with
  | nil =>
    cases through
    rfl
  | cons lexeme part ih =>
    rw [depthAfter] at through
    split_ifs at through with ends
    rw [List.cons_append, depthAfter, if_neg ends, ih through]

theorem depthAfter_raised {depth after : Nat} {part : List (Lexeme String)}
    (through : depthAfter depth part = some after) :
    depthAfter (depth + 1) part = some (after + 1) := by
  induction part generalizing depth with
  | nil =>
    cases through
    rfl
  | cons lexeme part ih =>
    rw [depthAfter] at through
    split_ifs at through with ends
    have raised : deeper (depth + 1) lexeme = deeper depth lexeme + 1 := by
      unfold deeper
      split_ifs with opens closes
      · rfl
      · have : depth ≠ 0 := fun zero => ends ⟨zero, .inl closes⟩
        omega
      · rfl
    rw [depthAfter, if_neg (by omega), raised]
    exact ih through

theorem enclosed_append {depth : Nat} {left right : List (Lexeme String)}
    (first : Enclosed depth left) (second : Enclosed depth right) :
    Enclosed depth (left ++ right) := by
  rw [Enclosed, depthAfter_append first]
  exact second

theorem items_intercalate {parts : List (List (Lexeme String))} (filled : parts ≠ [])
    (each : ∀ part ∈ parts, Enclosed 0 part) (rest : List (Lexeme String)) :
    items 0 (List.intercalate [.symbol ","] parts ++ .symbol ")" :: rest) = parts := by
  induction parts with
  | nil => exact absurd rfl filled
  | cons part others ih =>
    have first := each part (by simp)
    cases others with
    | nil =>
      rw [List.intercalate_singleton, items_append first]
      simp [items]
    | cons next others =>
      have later := ih (by simp) fun p mem => each p (by simp [mem])
      rw [List.intercalate_cons_cons, List.append_assoc, List.append_assoc, items_append first]
      simp [items, later]

/-! Lexemes that leave some words out. -/

def keyWords : List String := ["PRIMARY", "UNIQUE", "NOT"]

def flagWords : List String := "AUTOINCREMENT" :: keyWords

structure Quiet (loud : List String) (depth : Nat) (part : List (Lexeme String)) : Prop where
  enclosed : Enclosed depth part
  silent : ∀ text ∈ loud, Lexeme.word text ∉ part

instance (depth : Nat) (part : List (Lexeme String)) : Decidable (Enclosed depth part) :=
  inferInstanceAs (Decidable (_ = _))

instance (loud : List String) (depth : Nat) (part : List (Lexeme String)) :
    Decidable (Quiet loud depth part) :=
  decidable_of_iff (Enclosed depth part ∧ ∀ text ∈ loud, Lexeme.word text ∉ part)
    ⟨fun ⟨enclosed, silent⟩ => ⟨enclosed, silent⟩, fun ⟨enclosed, silent⟩ => ⟨enclosed, silent⟩⟩

section
variable {loud : List String}

theorem quiet_nil (depth : Nat) : Quiet loud depth [] := ⟨rfl, by simp⟩

theorem quiet_key {depth : Nat} {part : List (Lexeme String)} (quiet : Quiet flagWords depth part) :
    Quiet keyWords depth part :=
  ⟨quiet.enclosed, fun text known => quiet.silent text (List.mem_cons_of_mem _ known)⟩

theorem quiet_singleton {lexeme : Lexeme String} (depth : Nat)
    (mark : ∀ text, lexeme ≠ .symbol text) (word : ∀ text, lexeme ≠ .word text) :
    Quiet loud depth [lexeme] := by
  refine ⟨?_, fun text _ mem => word text (List.mem_singleton.mp mem).symm⟩
  simp [Enclosed, depthAfter, deeper, mark]

theorem quiet_append {depth : Nat} {left right : List (Lexeme String)}
    (first : Quiet loud depth left) (second : Quiet loud depth right) :
    Quiet loud depth (left ++ right) := by
  refine ⟨enclosed_append first.enclosed second.enclosed, fun text known mem => ?_⟩
  rcases List.mem_append.mp mem with mem | mem
  · exact first.silent text known mem
  · exact second.silent text known mem

theorem quiet_flatMap {Item : Type} {depth : Nat} {items : List Item}
    {said : Item → List (Lexeme String)} (each : ∀ item ∈ items, Quiet loud depth (said item)) :
    Quiet loud depth (items.flatMap said) := by
  induction items with
  | nil => exact quiet_nil depth
  | cons item rest ih =>
    rw [List.flatMap_cons]
    exact quiet_append (each item (by simp)) (ih fun item mem => each item (by simp [mem]))

theorem quiet_raised {depth : Nat} {part : List (Lexeme String)}
    (quiet : Quiet loud depth part) : Quiet loud (depth + 1) part :=
  ⟨depthAfter_raised quiet.enclosed, quiet.silent⟩

theorem quiet_inParens {depth : Nat} {inner : List (Lexeme String)}
    (quiet : Quiet loud (depth + 1) inner) :
    Quiet loud depth (.symbol "(" :: inner ++ [.symbol ")"]) := by
  refine ⟨?_, fun text known mem => quiet.silent text known (by simpa using mem)⟩
  have opened : depthAfter depth [.symbol "("] = some (depth + 1) := by
    simp [depthAfter, deeper]
  have closed : depthAfter (depth + 1) [.symbol ")"] = some depth := by
    simp [depthAfter, deeper]
  rw [Enclosed, List.cons_append, ← List.singleton_append, depthAfter_append opened,
    depthAfter_append quiet.enclosed, closed]

theorem quiet_intercalate {parts : List (List (Lexeme String))}
    (each : ∀ part ∈ parts, Quiet loud 0 part) :
    Quiet loud 1 (List.intercalate [.symbol ","] parts) := by
  induction parts with
  | nil => exact quiet_nil 1
  | cons part rest ih =>
    have first := quiet_raised (each part (by simp))
    cases rest with
    | nil => simpa using first
    | cons next rest =>
      rw [List.intercalate_cons_cons]
      have comma : Quiet loud 1 [.symbol ","] := ⟨by decide, by simp⟩
      exact quiet_append (quiet_append first comma) (ih fun p mem => each p (by simp [mem]))

end

end Lexeme

namespace Token
open Lexeme

/-- The lexemes of tokens without parameters, which are the same in all dialects. -/
def said (tokens : List Token) : List (Lexeme String) := tokens.flatMap (lexeme .postgres 0)

theorem lexemes_said {d : Dialect} {index : Nat} {tokens : List Token}
    (none : parameters tokens = []) : lexemes d index tokens = said tokens := by
  induction tokens generalizing index with
  | nil => rfl
  | cons token rest ih =>
    cases token with
    | parameter value => simp [parameters, parameter?] at none
    | _ => exact congrArg (_ ++ ·) (ih none)

theorem said_append (left right : List Token) : said (left ++ right) = said left ++ said right :=
  List.flatMap_append

theorem said_spaced (parts : List (List Token)) : said (spaced parts) = parts.flatMap said := by
  induction parts with
  | nil => rfl
  | cons part rest ih =>
    cases rest with
    | nil => simp [spaced]
    | cons next rest =>
      rw [spaced, List.intercalate_cons_cons, said_append, said_append, List.flatMap_cons, ← ih]
      simp [said, lexeme, spaced]

theorem said_listed (parts : List (List Token)) :
    said (listed parts) = List.intercalate [.symbol ","] (parts.map said) := by
  induction parts with
  | nil => rfl
  | cons part rest ih =>
    cases rest with
    | nil => simp [listed]
    | cons next rest =>
      rw [listed, List.intercalate_cons_cons, said_append, said_append]
      rw [listed] at ih
      rw [ih]
      simp only [List.map_cons, List.intercalate_cons_cons]
      rfl

theorem said_inParens (tokens : List Token) :
    said (inParens tokens) = .symbol "(" :: said tokens ++ [.symbol ")"] := by
  rw [inParens, said_append]
  rfl

end Token

open Token Lexeme

/-! What each part of a definition says of keys. -/

namespace TableDefinition
variable {d : Dialect} {composite : Bool} {name : String} {spec : ColumnSpec}

theorem columnType_quiet (d : Dialect) (spec : ColumnSpec) :
    Quiet flagWords 0 (said (pieces (columnType d spec))) := by
  refine columnType_induct (motive := fun text => Quiet flagWords 0 (said (pieces text)))
    ?sized ?fixed ?widest ?serial d spec
  case sized =>
    intro name known length
    have spelled : ∀ name ∈ ["VARCHAR", "NVARCHAR"], (Token.word name).isSpelled := by decide
    have plain : ∀ name ∈ ["VARCHAR", "NVARCHAR"], Quiet flagWords 0 [.word name] := by decide
    have number : Quiet flagWords 1 [.number (toString length)] :=
      quiet_singleton 1 (by simp) (by simp)
    rw [pieces_sized (spelled name known)]
    exact quiet_append (plain name known) (quiet_inParens number)
  case fixed =>
    intro t d
    cases t <;> cases d <;> decide +kernel
  case widest => exact fun d => by cases d <;> decide +kernel
  case serial => decide +kernel

theorem literal_quiet {value : Value} {part : List Token} (built : literal d value = .ok part) :
    Quiet flagWords 0 (said part) := by
  rcases literal_cases built with ⟨text, _, rfl⟩ | ⟨_, ⟨text, _, rfl⟩ | ⟨text, known, rfl⟩⟩
  · exact quiet_singleton 0 (by simp) (by simp)
  · exact quiet_singleton 0 (by simp) (by simp)
  · have each : ∀ text ∈ ["NULL", "TRUE", "FALSE"], Quiet flagWords 0 (said [.word text]) := by
      decide
    exact each text known

theorem forall₂_quiet {values : List Value} {parts : List (List Token)}
    (written : List.Forall₂ (fun value part => literal d value = .ok part) values parts) :
    ∀ part ∈ parts, Quiet flagWords 0 (said part) := by
  intro part mem
  obtain ⟨value, _, made⟩ := exists_of_forall₂ written mem
  exact literal_quiet made

theorem increment_quiet {inlineKey : Bool} :
    Quiet keyWords 0
      ((increment d spec inlineKey).flatMap fun constraint => said constraint.tokens) := by
  refine quiet_flatMap fun constraint mem => ?_
  have known := increment_tokens mem
  simp only [incrementTokens, List.mem_cons, List.not_mem_nil, or_false] at known
  rcases known with same | same | same <;> rw [same] <;> decide

theorem default_quiet {part : List Token} (quiet : Quiet flagWords 0 (said part)) :
    Quiet flagWords 0 (said (ColumnConstraint.default part).tokens) := by
  have word : Quiet flagWords 0 [.word "DEFAULT"] := by decide
  exact quiet_append word quiet

theorem amongChoices_quiet {parts : List (List Token)}
    (each : ∀ part ∈ parts, Quiet flagWords 0 (said part)) :
    Quiet flagWords 0
      ((amongChoices name parts).flatMap fun constraint => said constraint.tokens) := by
  refine quiet_flatMap fun constraint mem => ?_
  unfold amongChoices at mem
  split_ifs at mem
  · cases mem
  · rw [List.mem_singleton.mp mem]
    have choices : Quiet flagWords 2 (said (listed parts)) := by
      rw [said_listed]
      refine quiet_raised (quiet_intercalate fun part mem => ?_)
      obtain ⟨choice, inside, rfl⟩ := List.mem_map.mp mem
      exact each choice inside
    have inner : Quiet flagWords 1 (said ([.name name, .space, .word "IN", .space] ++
        inParens (listed parts))) := by
      have front : Quiet flagWords 1 [.name name, .word "IN"] :=
        quiet_append (quiet_singleton 1 (by simp) (by simp)) (by decide)
      rw [said_append, said_inParens]
      exact quiet_append front (quiet_inParens choices)
    have word : Quiet flagWords 0 [.word "CHECK"] := by decide
    have check := quiet_append word (quiet_inParens inner)
    rwa [← said_inParens] at check

def columnItem (name : String) (type counting values : List (Lexeme String))
    (inlineKey required unique : Bool) : List (Lexeme String) :=
  [.name name] ++ type ++ ((if inlineKey then [.word "PRIMARY", .word "KEY"] else []) ++ counting ++
    (if required then [.word "NOT", .word "NULL"] else []) ++
    (if unique then [.word "UNIQUE"] else [])) ++ values

section
variable {type counting values : List (Lexeme String)} (typed : Quiet keyWords 0 type)
  (counted : Quiet keyWords 0 counting) (valued : Quiet keyWords 0 values)
  (inlineKey required unique : Bool)
include typed counted valued

theorem columnItem_enclosed :
    Enclosed 0 (columnItem name type counting values inlineKey required unique) := by
  have named : Quiet keyWords 0 [.name name] := quiet_singleton 0 (by simp) (by simp)
  have flag (condition : Bool) {part : List (Lexeme String)} (known : Enclosed 0 part) :
      Enclosed 0 (if condition then part else []) := by
    cases condition
    · rfl
    · exact known
  have key : Enclosed 0 [.word "PRIMARY", .word "KEY"] := by decide
  have notNull : Enclosed 0 [.word "NOT", .word "NULL"] := by decide
  have once : Enclosed 0 [.word "UNIQUE"] := by decide
  have flags := enclosed_append (enclosed_append (enclosed_append (flag inlineKey key)
    counted.enclosed) (flag required notNull)) (flag unique once)
  exact enclosed_append (enclosed_append (enclosed_append named.enclosed typed.enclosed) flags)
    valued.enclosed

theorem columnItem_keys :
    keysOf (columnItem name type counting values inlineKey required unique) =
      (if inlineKey then [[name]] else []) ++ if unique then [[name]] else [] := by
  have silent {part : List (Lexeme String)} (quiet : Quiet keyWords 0 part) :
      Lexeme.word "PRIMARY" ∉ part ∧ Lexeme.word "UNIQUE" ∉ part :=
    ⟨quiet.silent _ (by decide), quiet.silent _ (by decide)⟩
  cases inlineKey <;> cases required <;> cases unique <;>
    simp [columnItem, keysOf, silent typed, silent counted, silent valued]

end

theorem flagged_said :
    ((flagged d composite spec).flatMap fun constraint => said constraint.tokens) =
      (if spec.primaryKey && !composite then [.word "PRIMARY", .word "KEY"] else []) ++
      ((increment d spec (spec.primaryKey && !composite)).flatMap fun constraint =>
        said constraint.tokens) ++
      (if (spec.required || spec.primaryKey) && !(spec.primaryKey && !composite) then
        [.word "NOT", .word "NULL"] else []) ++
      (if spec.unique && !spec.primaryKey then [.word "UNIQUE"] else []) := by
  have single (condition : Bool) (constraint : ColumnConstraint) :
      ((if condition then [constraint] else []).flatMap fun constraint =>
        said constraint.tokens) = if condition then said constraint.tokens else [] := by
    cases condition
    · rfl
    · exact List.flatMap_singleton _ _
  simp only [flagged, List.flatMap_append, single]
  rfl

theorem columnOf_item {column : ColumnDefinition}
    (built : columnOf d composite name spec = .ok column) :
    ∃ values, Quiet flagWords 0 values ∧ said (respelled column.tokens) =
      columnItem name (said (pieces (columnType d spec)))
        ((increment d spec (spec.primaryKey && !composite)).flatMap fun constraint =>
          said constraint.tokens) values (spec.primaryKey && !composite)
        ((spec.required || spec.primaryKey) && !(spec.primaryKey && !composite))
        (spec.unique && !spec.primaryKey) := by
  have apart := columnOf_respelled built
  obtain ⟨defaults, choices, written, among, rfl⟩ := columnOf_ok.mp built
  refine ⟨(defaults.flatMap fun part => said (ColumnConstraint.default part).tokens) ++
    (amongChoices name choices).flatMap fun constraint => said constraint.tokens, ?_, ?_⟩
  · exact quiet_append
      (quiet_flatMap fun part mem => default_quiet (forall₂_quiet written part mem))
      (amongChoices_quiet (forall₂_quiet among))
  · rw [apart, said_spaced, List.flatMap_cons, List.flatMap_cons, List.flatMap_map,
      List.flatMap_append, List.flatMap_append, List.flatMap_map, flagged_said, columnItem]
    simp only [List.append_assoc]
    rfl

theorem columnOf_enclosed {column : ColumnDefinition}
    (built : columnOf d composite name spec = .ok column) :
    Enclosed 0 (said (respelled column.tokens)) := by
  obtain ⟨values, valued, item⟩ := columnOf_item built
  rw [item]
  exact columnItem_enclosed (quiet_key (columnType_quiet d spec)) increment_quiet
    (quiet_key valued) _ _ _

theorem columnOf_keys {column : ColumnDefinition}
    (built : columnOf d composite name spec = .ok column) :
    keysOf (said (respelled column.tokens)) =
      (if spec.primaryKey && !composite then [[name]] else []) ++
        if spec.unique && !spec.primaryKey then [[name]] else [] := by
  obtain ⟨values, valued, item⟩ := columnOf_item built
  rw [item]
  exact columnItem_keys (quiet_key (columnType_quiet d spec)) increment_quiet
    (quiet_key valued) _ _ _

/-! The table. -/

theorem names_quiet (columns : List String) : Quiet flagWords 1 (said (Token.names columns)) := by
  rw [Token.names, said_listed, List.map_map]
  refine quiet_intercalate fun part mem => ?_
  obtain ⟨column, _, rfl⟩ := List.mem_map.mp mem
  exact quiet_singleton 0 (by simp) (by simp)

theorem names_said (columns : List String) :
    Lexeme.names (said (Token.names columns)) = columns := by
  have none : parameters (Token.names columns) = [] :=
    (Pick.values.all_names columns).trans (List.filterMap_none _)
  have read : lexemes .postgres 0 (Token.names columns) = said (Token.names columns) :=
    lexemes_said none
  rw [← read, names_lexemes, Pick.all_names]
  exact List.filterMap_some

theorem keyTokens_said (columns : List String) :
    (keyTokens (some columns)).map said = [[.word "PRIMARY", .word "KEY"] ++
      (.symbol "(" :: said (Token.names columns) ++ [.symbol ")"])] := by
  rw [keyTokens, List.map_singleton, said_append, ← said_inParens]
  rfl

theorem keyTokens_enclosed (keys : Option (List String)) :
    ∀ part ∈ (keyTokens keys).map said, Enclosed 0 part := by
  cases keys with
  | none => simp [keyTokens]
  | some columns =>
    rw [keyTokens_said]
    exact List.forall_mem_singleton.mpr
      (enclosed_append (by decide) (quiet_inParens (names_quiet columns)).enclosed)

theorem keyTokens_keys (keys : Option (List String)) :
    ((keyTokens keys).map said).flatMap keysOf = keys.toList := by
  cases keys with
  | none => rfl
  | some columns =>
    have listed : Lexeme.names ([.word "KEY"] ++
        (.symbol "(" :: said (Token.names columns) ++ [.symbol ")"])) = columns := by
      have same := names_said columns
      simp only [Lexeme.names] at same ⊢
      simp [List.filterMap_append, List.filterMap_cons, Lexeme.name?, same]
    rw [keyTokens_said, List.flatMap_singleton]
    exact congrArg ([·]) listed

theorem table_said (text : String) :
    ∀ lexeme ∈ said (Token.table text), (∃ part, lexeme = .name part) ∨ lexeme = .symbol "." := by
  unfold Token.table
  induction splitDots text.toList with
  | nil => simp [said]
  | cons part rest ih =>
    cases rest with
    | nil => simp [said, lexeme]
    | cons next rest =>
      simp only [List.map_cons] at ih ⊢
      rw [List.intercalate_cons_cons, said_append, said_append]
      simp only [said, lexeme, List.flatMap_cons, List.flatMap_nil] at ih ⊢
      simpa using ih

theorem table_unopened (text : String) : Lexeme.symbol "(" ∉ said (Token.table text) := by
  intro mem
  rcases table_said text _ mem with ⟨part, same⟩ | same <;> simp at same

theorem table_wordless (table text : String) : Lexeme.word text ∉ said (Token.table table) := by
  intro mem
  rcases table_said table _ mem with ⟨part, same⟩ | same <;> simp at same

theorem definitions_append {front middle rest : List (Lexeme String)}
    (before : Lexeme.word "TABLE" ∉ front) (between : Lexeme.symbol "(" ∉ middle) :
    definitions (front ++ .word "TABLE" :: (middle ++ .symbol "(" :: rest)) = items 0 rest := by
  have first : ∀ x ∈ front, decide (x ≠ .word "TABLE") = true := fun x mem => by
    simp only [decide_eq_true_eq]
    rintro rfl
    exact before mem
  have second : ∀ x ∈ .word "TABLE" :: middle, decide (x ≠ .symbol "(") = true := by
    refine List.forall_mem_cons.mpr ⟨by decide, fun x mem => ?_⟩
    simp only [decide_eq_true_eq]
    rintro rfl
    exact between mem
  rw [definitions, List.dropWhile_append_of_pos first, List.dropWhile_cons_of_neg (by simp),
    ← List.cons_append, List.dropWhile_append_of_pos second, List.dropWhile_cons_of_neg (by simp)]
  rfl

def frameWords : List String :=
  ["IF", "OBJECT_ID", "N", "IS", "NULL", "CREATE", "NOT", "EXISTS"]

def Frames (items : List (List (Lexeme String))) (lexemes : List (Lexeme String)) : Prop :=
  ∃ front middle, (∀ text, Lexeme.word text ∈ front ++ middle → text ∈ frameWords) ∧
    Lexeme.symbol "(" ∉ middle ∧
    lexemes = front ++ .word "TABLE" ::
      (middle ++ .symbol "(" :: (List.intercalate [.symbol ","] items ++ [.symbol ")"]))

theorem Frames.definitions {items : List (List (Lexeme String))} {lexemes : List (Lexeme String)}
    (framed : Frames items lexemes) (filled : items ≠ []) (each : ∀ item ∈ items, Enclosed 0 item) :
    definitions lexemes = items := by
  obtain ⟨front, middle, spoken, unopened, whole⟩ := framed
  have untitled : Lexeme.word "TABLE" ∉ front := by
    intro mem
    exact absurd (spoken _ (List.mem_append_left _ mem)) (by decide)
  rw [whole, definitions_append untitled unopened]
  exact items_intercalate filled each []

def itemsOf (columns : List ColumnDefinition) (keys : Option (List String)) :
    List (List (Lexeme String)) :=
  columns.map (fun column => said (respelled column.tokens)) ++ (keyTokens keys).map said

end TableDefinition

namespace Statement
variable {table : String} {schema : TableSchema} {d : Dialect} {s : Statement}
open TableDefinition

theorem createTable_parameters (built : createTable table schema d = .ok s) :
    Token.parameters s.tokens = [] := by
  have none (value : Value) (part : List Token) (written : literal d value = .ok part) :
      Pick.values.all part = [] := by
    rcases literal_cases written with ⟨_, _, rfl⟩ | ⟨_, ⟨_, _, rfl⟩ | ⟨_, _, rfl⟩⟩ <;> rfl
  have unnamed (texts : List String) : Pick.values.ofNames texts = [] := List.filterMap_none _
  have column (entry : String × ColumnSpec) : heldBy Pick.values (fun _ => []) entry = [] := by
    simp [heldBy, unnamed]
  have test : Pick.values.all [.literal table, .literal "U"] = [] := rfl
  refine (createTable_picked Pick.values none built).trans ?_
  simp [unnamed, column, test]

theorem createTable_framed (built : createTable table schema d = .ok s) :
    ∃ columns, List.Forall₂ (fun entry column =>
        columnOf d schema.isComposite entry.1 entry.2 = .ok column) schema.columns columns ∧
      Frames (itemsOf columns (if schema.isComposite then some schema.primaryKeys else none))
        (lexemes d 1 (respelled s.tokens)) := by
  have bare : Token.parameters (respelled s.tokens) = [] :=
    (Pick.values.all_respelled s.tokens).trans (createTable_parameters built)
  rw [lexemes_said bare]
  obtain ⟨_, columns, made, rfl⟩ := createTable_ok.mp built
  refine ⟨columns, made, ?_⟩
  simp only [TableDefinition.tokens]
  generalize (if schema.isComposite then some schema.primaryKeys else none) = keys
  have kept {part : List Token} (known : Legible part) : said (respelled part) = said part := by
    rw [respelled_legible known]
  have body : said (respelled (inParens (listed (columns.map ColumnDefinition.tokens ++
      keyTokens keys)))) =
      .symbol "(" :: List.intercalate [.symbol ","] (itemsOf columns keys) ++ [.symbol ")"] := by
    rw [respelled_inParens, said_inParens, respelled_listed, said_listed, List.map_append,
      List.map_append, List.map_map, List.map_map, List.map_map]
    have same : (keyTokens keys).map (said ∘ respelled) = (keyTokens keys).map said :=
      List.map_congr_left fun part mem => kept (keyTokens_legible keys part mem)
    rw [same]
    rfl
  have create : said (respelled (words ["CREATE", "TABLE"])) =
      [.word "CREATE", .word "TABLE"] := kept (legible_words (by decide))
  have create' : said (respelled (words ["CREATE", "TABLE", "IF", "NOT", "EXISTS"])) =
      [.word "CREATE", .word "TABLE", .word "IF", .word "NOT", .word "EXISTS"] :=
    kept (legible_words (by decide))
  split_ifs
  · refine ⟨said (absenceTest table) ++ [.word "CREATE"], said (Token.table table), ?_,
      table_unopened table, ?_⟩
    · intro text mem
      simp only [List.mem_append, table_wordless, or_false] at mem
      simp [absenceTest, inParens, said, lexeme, words] at mem
      rcases mem with (rfl | rfl | rfl | rfl | rfl) | rfl <;> decide
    · simp [respelled_spaced, said_spaced, kept (absenceTest_legible table), create,
        kept (legible_table table), body]
  · refine ⟨[.word "CREATE"], [.word "IF", .word "NOT", .word "EXISTS"] ++ said (Token.table table),
      ?_, by simp [table_unopened], ?_⟩
    · intro text mem
      simp only [List.mem_append, table_wordless, or_false] at mem
      simp only [List.mem_cons, List.not_mem_nil, or_false, Lexeme.word.injEq] at mem
      rcases mem with rfl | rfl | rfl | rfl <;> decide
    · simp [respelled_spaced, said_spaced, create', kept (legible_table table), body]

theorem createTable_definitions (built : createTable table schema d = .ok s) :
    ∃ columns, List.Forall₂ (fun entry column =>
        columnOf d schema.isComposite entry.1 entry.2 = .ok column) schema.columns columns ∧
      Frames (itemsOf columns (if schema.isComposite then some schema.primaryKeys else none))
        (lexemes d 1 (respelled s.tokens)) ∧
      definitions (lexemes d 1 (respelled s.tokens)) =
        itemsOf columns (if schema.isComposite then some schema.primaryKeys else none) := by
  obtain ⟨columns, made, framed⟩ := createTable_framed built
  refine ⟨columns, made, framed, framed.definitions ?_ ?_⟩
  · have several : columns ≠ [] := by
      intro none
      rw [none] at made
      exact (createTable_ok.mp built).1 (List.forall₂_nil_right_iff.mp made)
    simp [itemsOf, several]
  · intro part mem
    rcases List.mem_append.mp mem with mem | mem
    · obtain ⟨column, inside, rfl⟩ := List.mem_map.mp mem
      obtain ⟨entry, _, defined⟩ := exists_of_forall₂ made inside
      exact columnOf_enclosed defined
    · exact keyTokens_enclosed _ part mem

theorem createTable_keys (built : createTable table schema d = .ok s) :
    keys (lexemes d 1 (respelled s.tokens)) =
      (schema.columns.flatMap fun column =>
        (if column.2.primaryKey && !schema.isComposite then [[column.1]] else []) ++
          if column.2.unique && !column.2.primaryKey then [[column.1]] else []) ++
      if schema.isComposite then [schema.primaryKeys] else [] := by
  obtain ⟨columns, made, -, parts⟩ := createTable_definitions built
  rw [keys, parts, itemsOf, List.flatMap_append, keyTokens_keys, List.flatMap_map]
  congr 1
  · clear parts
    generalize schema.columns = entries at made
    induction made with
    | nil => rfl
    | cons first _ ih => rw [List.flatMap_cons, List.flatMap_cons, columnOf_keys first, ih]
  · split_ifs <;> rfl

theorem primaryKeys_single {column : String × ColumnSpec} (single : schema.isComposite = false)
    (mem : column ∈ schema.columns) (key : column.2.primaryKey) :
    schema.primaryKeys = [column.1] := by
  have inside : column.1 ∈ schema.primaryKeys :=
    List.mem_map_of_mem (List.mem_filter.mpr ⟨mem, key⟩)
  have short : schema.primaryKeys.length ≤ 1 := by
    simpa [TableSchema.isComposite] using single
  generalize schema.primaryKeys = keys at inside short ⊢
  cases keys with
  | nil => cases inside
  | cons first rest =>
    cases rest with
    | nil => rw [List.mem_singleton.mp inside]
    | cons second rest =>
      rw [List.length_cons, List.length_cons] at short
      omega

/-- A table's definition lets in the rows that are distinct in the columns of the primary key, taken
    together, and in every column that is unique and not one of several columns of the key. -/
theorem definition_admits (sql : d.isSql) (built : createTable table schema d = .ok s) :
    ∃ lexemes, Lexeme.ofText d s.sql = some lexemes ∧ ∀ rows : List (String → Cell),
      Admits lexemes rows ↔
        (schema.primaryKeys ≠ [] → Distinct schema.primaryKeys rows) ∧
        ∀ column ∈ schema.columns, column.2.unique →
          ¬(column.2.primaryKey ∧ schema.isComposite) → Distinct [column.1] rows := by
  refine ⟨_, createTable_read sql built, fun rows => ?_⟩
  rw [Admits, createTable_keys built]
  constructor
  · intro admitted
    have declared {key : List String} (column : String × ColumnSpec)
        (mem : column ∈ schema.columns)
        (said : key ∈ (if column.2.primaryKey && !schema.isComposite then [[column.1]] else []) ++
          if column.2.unique && !column.2.primaryKey then [[column.1]] else []) :
        Distinct key rows :=
      admitted key (List.mem_append_left _ (List.mem_flatMap.mpr ⟨column, mem, said⟩))
    constructor
    · intro filled
      cases several : schema.isComposite with
      | true => exact admitted _ (List.mem_append_right _ (by simp [several]))
      | false =>
        obtain ⟨name, inside⟩ := List.exists_mem_of_ne_nil _ filled
        obtain ⟨column, kept, rfl⟩ := List.mem_map.mp inside
        obtain ⟨mem, key⟩ := List.mem_filter.mp kept
        rw [primaryKeys_single several mem key]
        exact declared column mem (List.mem_append_left _ (by simp [key, several]))
    · intro column mem unique apart
      cases key : column.2.primaryKey with
      | true =>
        have single : schema.isComposite = false := by simpa [key] using apart
        exact declared column mem (List.mem_append_left _ (by simp [key, single]))
      | false => exact declared column mem (List.mem_append_right _ (by simp [unique, key]))
  · rintro ⟨primary, unique⟩ key mem
    rcases List.mem_append.mp mem with mem | mem
    · obtain ⟨column, inside, said⟩ := List.mem_flatMap.mp mem
      rcases List.mem_append.mp said with said | said
      · split_ifs at said with inlineKey
        · simp only [Bool.and_eq_true, Bool.not_eq_true'] at inlineKey
          have same := primaryKeys_single inlineKey.2 inside inlineKey.1
          rw [List.mem_singleton.mp said, ← same]
          exact primary (by simp [same])
        · cases said
      · split_ifs at said with flagged
        · simp only [Bool.and_eq_true, Bool.not_eq_true'] at flagged
          rw [List.mem_singleton.mp said]
          exact unique column inside flagged.1 (by simp [flagged.2])
        · cases said
    · split_ifs at mem with several
      · rw [List.mem_singleton.mp mem]
        refine primary fun none => ?_
        simp [TableSchema.isComposite, none] at several
      · cases mem

/-- A key of one column, which is flagged as unique too, and another unique column. -/
theorem definition_admits_single :
    ∃ s lexemes, createTable "t" ⟨[("a", { type := "integer", primaryKey := true, unique := true }),
        ("b", { type := "integer", unique := true })]⟩ .postgres = .ok s ∧
      s.sql = "CREATE TABLE IF NOT EXISTS \"t\" (\"a\" INTEGER PRIMARY KEY, " ++
        "\"b\" INTEGER UNIQUE)" ∧
      Lexeme.ofText .postgres s.sql = some lexemes ∧
      Admits lexemes [fun _ => 1, fun column => if column = "a" then 2 else 3] := by
  obtain ⟨s, built, text⟩ : ∃ s, createTable "t" ⟨[("a",
      { type := "integer", primaryKey := true, unique := true }),
      ("b", { type := "integer", unique := true })]⟩ .postgres = .ok s ∧
      s.sql = "CREATE TABLE IF NOT EXISTS \"t\" (\"a\" INTEGER PRIMARY KEY, " ++
        "\"b\" INTEGER UNIQUE)" := ⟨_, rfl, by decide +kernel⟩
  obtain ⟨lexemes, read, admits⟩ := definition_admits rfl built
  refine ⟨s, lexemes, built, text, read, (admits _).mpr ⟨fun _ => ?_, fun column mem _ _ => ?_⟩⟩
  · simp [Distinct, TableSchema.primaryKeys]
  · simp only [List.mem_cons, List.not_mem_nil, or_false] at mem
    rcases mem with rfl | rfl <;> simp [Distinct]

/-- A unique column takes one value twice where it is one of several columns of the key. -/
theorem unique_key_column_repeats :
    ∃ s lexemes, createTable "t" ⟨[("a", { type := "integer", primaryKey := true, unique := true }),
        ("b", { type := "integer", primaryKey := true })]⟩ .postgres = .ok s ∧
      s.sql = "CREATE TABLE IF NOT EXISTS \"t\" (\"a\" INTEGER NOT NULL, " ++
        "\"b\" INTEGER NOT NULL, PRIMARY KEY (\"a\", \"b\"))" ∧
      Lexeme.ofText .postgres s.sql = some lexemes ∧
      Admits lexemes [fun _ => 1, fun column => if column = "b" then 2 else 1] ∧
      ¬Distinct ["a"] [fun _ => 1, fun column => if column = "b" then 2 else 1] := by
  obtain ⟨s, built, text⟩ : ∃ s, createTable "t" ⟨[("a",
      { type := "integer", primaryKey := true, unique := true }),
      ("b", { type := "integer", primaryKey := true })]⟩ .postgres = .ok s ∧
      s.sql = "CREATE TABLE IF NOT EXISTS \"t\" (\"a\" INTEGER NOT NULL, " ++
        "\"b\" INTEGER NOT NULL, PRIMARY KEY (\"a\", \"b\"))" := ⟨_, rfl, by decide +kernel⟩
  have declared : keys (lexemes .postgres 1 (respelled s.tokens)) = [["a", "b"]] :=
    createTable_keys built
  refine ⟨s, _, built, text, createTable_read rfl built, ?_, by simp [Distinct]⟩
  rw [Admits, declared]
  simp [Distinct]

end Statement
end StoreBridge.Sql
