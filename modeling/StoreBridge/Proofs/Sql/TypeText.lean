import Mathlib.Data.List.SplitBy
import StoreBridge.Proofs.Sql.Picked
import StoreBridge.Sql.Definition

/-!
A column's type is one word in its definition, though some types have a length or a second word.
Read back, such a word is the words, the numbers and the marks that its text is made of. The text
of tokens stays as it is where each word gives way to these pieces.
-/
namespace StoreBridge
namespace Sql
open Lexeme

namespace Token

def ofPiece (run : List Char) : Token :=
  if run = [' '] then .space
  else if run.all isWordChar then
    if run.head?.any startsNumber then .number (String.ofList run) else .word (String.ofList run)
  else .symbol (String.ofList run)

def joins (left right : Char) : Bool := isWordChar left && isWordChar right

def pieces (text : String) : List Token := (text.toList.splitBy joins).map ofPiece

def respelled (tokens : List Token) : List Token :=
  tokens.flatMap fun
    | .word text => pieces text
    | other => [other]

/-! The text of the pieces. -/

theorem ofPiece_chars (d : Dialect) (index : Nat) (run : List Char) :
    (ofPiece run).chars d index = run := by
  unfold ofPiece
  split_ifs with blank
  · exact blank.symm
  all_goals exact String.toList_ofList

theorem ofPiece_not_parameter (run : List Char) : (ofPiece run).parameter? = none := by
  unfold ofPiece
  split_ifs <;> rfl

theorem render_pieces (d : Dialect) (index : Nat) (text : String) :
    render d index (pieces text) = text.toList := by
  have whole (runs : List (List Char)) : render d index (runs.map ofPiece) = runs.flatten := by
    induction runs with
    | nil => rfl
    | cons run rest ih =>
      rw [List.map_cons, render, ofPiece_not_parameter, ofPiece_chars, List.flatten_cons]
      exact congrArg (run ++ ·) ih
  rw [pieces, whole, List.flatten_splitBy]

theorem parameters_pieces (text : String) : parameters (pieces text) = [] := by
  rw [pieces, parameters, List.filterMap_map, List.filterMap_eq_nil_iff]
  exact fun run _ => ofPiece_not_parameter run

theorem respelled_cons (token : Token) (rest : List Token) :
    respelled (token :: rest) = respelled [token] ++ respelled rest := by
  simp [respelled]

theorem respelled_word (text : String) : respelled [.word text] = pieces text := by
  simp [respelled]

theorem respelled_append (before after : List Token) :
    respelled (before ++ after) = respelled before ++ respelled after :=
  List.flatMap_append

theorem render_respelled (d : Dialect) (index : Nat) (tokens : List Token) :
    render d index (respelled tokens) = render d index tokens := by
  induction tokens generalizing index with
  | nil => rfl
  | cons token rest ih =>
    rw [respelled_cons]
    cases token with
    | word text =>
      rw [respelled_word, render_append, render_pieces, parameters_pieces, ih]
      rfl
    | parameter value => exact congrArg (_ ++ ·) (ih (index + 1))
    | _ => exact congrArg (_ ++ ·) (ih index)

/-! The pieces themselves. -/

def isTypeChar (c : Char) : Bool := isWordChar c || c == ' ' || c == '(' || c == ')' || c == ','

theorem ofPiece_single {c : Char} (known : isTypeChar c) (mark : isWordChar c = false) :
    (ofPiece [c]).isSolo := by
  simp only [isTypeChar, mark, Bool.false_or, Bool.or_eq_true, beq_iff_eq] at known
  obtain (((rfl | rfl) | rfl) | rfl) := known <;> decide

theorem startsWord_of_isWordChar {c : Char} (known : isWordChar c)
    (other : startsNumber c = false) : startsWord c := by
  simp only [isWordChar, Char.isAlphanum, startsNumber, startsWord, Bool.or_eq_true,
    Bool.or_eq_false_iff] at known other ⊢
  rcases known with (letter | digit) | low
  · exact .inl letter
  · rw [other.1] at digit
    simp at digit
  · exact .inr low

theorem ofPiece_run {run : List Char} (filled : run ≠ []) (every : ∀ c ∈ run, isWordChar c) :
    (ofPiece run).isSpelled := by
  obtain ⟨first, rest, rfl⟩ := List.exists_cons_of_ne_nil filled
  have blank : first :: rest ≠ [' '] := by
    intro same
    rw [same] at every
    exact absurd (every ' ' (by simp)) (by decide)
  unfold ofPiece
  rw [if_neg blank, if_pos (List.all_eq_true.mpr every)]
  cases digit : startsNumber first with
  | true =>
    simp only [List.head?_cons, Option.any_some, digit, if_true, isSpelled, String.toList_ofList,
      Bool.true_and, List.all_eq_true, Bool.or_eq_true]
    exact fun c mem => .inl (every c (by simp [mem]))
  | false =>
    simp only [List.head?_cons, Option.any_some, digit, Bool.false_eq_true, if_false, isSpelled,
      String.toList_ofList, Bool.and_eq_true, List.all_eq_true]
    exact ⟨startsWord_of_isWordChar (every first (by simp)) digit,
      fun c mem => every c (by simp [mem])⟩

theorem piece_cases {cs run : List Char} (piece : run ∈ cs.splitBy joins) :
    (run ≠ [] ∧ ∀ c ∈ run, isWordChar c) ∨ ∃ c, run = [c] ∧ isWordChar c = false := by
  have chained := List.isChain_of_mem_splitBy piece
  match run, List.ne_nil_of_mem_splitBy piece with
  | [c], filled =>
    cases known : isWordChar c with
    | true => exact .inl ⟨filled, by simpa using known⟩
    | false => exact .inr ⟨c, rfl, known⟩
  | first :: second :: rest, filled =>
    refine .inl ⟨filled, ?_⟩
    clear filled piece
    induction rest generalizing first second with
    | nil => simpa [joins] using chained
    | cons third rest ih =>
      obtain ⟨near, far⟩ := List.isChain_cons_cons.mp chained
      simp only [joins, Bool.and_eq_true] at near
      exact List.forall_mem_cons.mpr ⟨near.1, ih second third far⟩

theorem pieces_legible {text : String} (known : text.toList.all isTypeChar) :
    Legible (pieces text) := by
  have inside {run : List Char} (piece : run ∈ text.toList.splitBy joins) :
      ∀ c ∈ run, isTypeChar c := by
    intro c mem
    refine List.all_eq_true.mp known c ?_
    rw [← List.flatten_splitBy joins text.toList]
    exact List.mem_flatten.mpr ⟨run, piece, mem⟩
  constructor
  · intro token mem
    obtain ⟨run, piece, rfl⟩ := List.mem_map.mp mem
    rcases piece_cases piece with ⟨filled, every⟩ | ⟨c, rfl, mark⟩
    · exact ofPiece_run filled every
    · have solo := ofPiece_single (inside piece c (by simp)) mark
      simp only [isSolo, Bool.and_eq_true] at solo
      exact solo.1
  · rw [pieces, List.isChain_map]
    refine (List.isChain_getLast_head_splitBy joins text.toList).imp_of_mem_imp ?_
    -- Of two runs side by side, one at least is a single mark.
    intro left right here there beside
    obtain ⟨ends, begins, parted⟩ := beside
    rcases piece_cases here with ⟨_, every⟩ | ⟨c, rfl, mark⟩
    · rcases piece_cases there with ⟨_, all⟩ | ⟨c, rfl, mark⟩
      · simp [joins, every _ (List.getLast_mem ends), all _ (List.head_mem begins)] at parted
      · exact solo_apart (.inr (ofPiece_single (inside there c (by simp)) mark))
    · exact solo_apart (.inl (ofPiece_single (inside here c (by simp)) mark))

theorem pieces_run {text : String} (filled : text.toList ≠ [])
    (every : ∀ c ∈ text.toList, isWordChar c) :
    pieces text =
      [if text.toList.head?.any startsNumber then .number text else .word text] := by
  have joined : text.toList.IsChain fun left right => joins left right := by
    refine List.Pairwise.isChain (List.pairwise_of_forall_mem_list fun left here right there => ?_)
    simp [joins, every left here, every right there]
  have blank : text.toList ≠ [' '] := by
    intro same
    rw [same] at every
    exact absurd (every ' ' (by simp)) (by decide)
  rw [pieces, List.splitBy_of_isChain filled joined, List.map_singleton, ofPiece, if_neg blank,
    if_pos (List.all_eq_true.mpr every), String.ofList_toList]

theorem pieces_spelled {text : String} (spelled : (Token.word text).isSpelled) :
    pieces text = [.word text] := by
  obtain ⟨first, rest, chars, letter, more⟩ := word_chars spelled
  have every : ∀ c ∈ text.toList, isWordChar c := by
    rw [chars]
    refine List.forall_mem_cons.mpr ⟨?_, more⟩
    simp only [startsWord, Bool.or_eq_true] at letter
    simp only [isWordChar, Char.isAlphanum, Bool.or_eq_true]
    exact letter.imp_left .inl
  rw [pieces_run (by simp [chars]) every]
  simp [chars, word_not_number letter]

theorem pieces_digits (n : Nat) : pieces (toString n) = [.number (toString n)] := by
  have chars : (toString n).toList = Nat.toDigits 10 n := by
    rw [Nat.toString_eq_repr, Nat.toList_repr]
  have digit : ∀ c ∈ (toString n).toList, c.isDigit := fun c mem =>
    Nat.isDigit_of_mem_toDigits (by decide) (by decide) (chars ▸ mem)
  have filled : (toString n).toList ≠ [] := by
    rw [chars]
    exact Nat.toDigits_ne_nil
  rw [pieces_run filled fun c mem => by simp [isWordChar, Char.isAlphanum, digit c mem]]
  obtain ⟨first, rest, form⟩ := List.exists_cons_of_ne_nil filled
  rw [form] at digit ⊢
  simp [startsNumber, digit first (by simp)]

theorem pieces_append {left right : String} (apart : ∀ x ∈ left.toList.getLast?,
    ∀ y ∈ right.toList.head?, joins x y = false) :
    pieces (left ++ right) = pieces left ++ pieces right := by
  rw [pieces, String.toList_append, List.splitBy_append apart, List.map_append]
  rfl

theorem pieces_sized {name : String} (spelled : (Token.word name).isSpelled) (length : Nat) :
    pieces (ColumnType.sized name length) =
      .word name :: inParens [.number (toString length)] := by
  rw [ColumnType.sized, pieces_append, pieces_append, pieces_append, pieces_spelled spelled,
    pieces_digits]
  · rfl
  · intro x _ y first
    cases first
    exact Bool.and_false _
  · intro x last y _
    rw [String.toList_append, List.getLast?_append_of_ne_nil _ (by decide)] at last
    cases last
    rfl
  · intro x _ y first
    cases first
    exact Bool.and_false _

theorem respelled_legible {tokens : List Token} (known : Legible tokens) :
    respelled tokens = tokens := by
  have spelled := known.spelled
  clear known
  induction tokens with
  | nil => rfl
  | cons token rest ih =>
    rw [List.forall_mem_cons] at spelled
    rw [respelled_cons, ih spelled.2]
    cases token with
    | word text => rw [respelled_word, pieces_spelled spelled.1, List.singleton_append]
    | _ => rfl

/-! How lists are respelled part by part. -/

theorem respelled_intercalate {between : List Token} (bare : respelled between = between)
    (parts : List (List Token)) :
    respelled (List.intercalate between parts) =
      List.intercalate between (parts.map respelled) := by
  induction parts with
  | nil => rfl
  | cons part rest ih =>
    cases rest with
    | nil => simp
    | cons next rest =>
      rw [List.intercalate_cons_cons, respelled_append, respelled_append, bare, ih]
      simp only [List.map_cons, List.intercalate_cons_cons]

theorem respelled_spaced (parts : List (List Token)) :
    respelled (spaced parts) = spaced (parts.map respelled) :=
  respelled_intercalate rfl parts

theorem respelled_listed (parts : List (List Token)) :
    respelled (listed parts) = listed (parts.map respelled) :=
  respelled_intercalate rfl parts

theorem respelled_inParens (tokens : List Token) :
    respelled (inParens tokens) = inParens (respelled tokens) := by
  rw [inParens, List.cons_append, respelled_cons, respelled_append]
  rfl

theorem Pick.all_respelled {α : Type} (pick : Pick α) (tokens : List Token) :
    pick.all (respelled tokens) = pick.all tokens := by
  have none (run : List Char) : pick.of (ofPiece run) = none := by
    unfold ofPiece
    split_ifs
    · exact pick.space
    · exact pick.number _
    · exact pick.word _
    · exact pick.symbol _
  have bare (text : String) : pick.all (pieces text) = [] := by
    rw [pieces, all, List.filterMap_map, List.filterMap_eq_nil_iff]
    exact fun run _ => none run
  induction tokens with
  | nil => rfl
  | cons token rest ih =>
    rw [respelled_cons, all_append, ih, all_cons pick token rest]
    cases token with
    | word text => rw [respelled_word, bare, all_cons_word, all_nil]
    | _ => rfl

end Token

/-! The types of columns. -/

open Token

/-- The type of a column is a string type with a length, or one of a dialect's fixed types. -/
theorem columnType_induct {motive : String → Prop}
    (sized : ∀ name ∈ ["VARCHAR", "NVARCHAR"], ∀ length, motive (ColumnType.sized name length))
    (fixed : ∀ t d, motive (ColumnType.native t 0 d))
    (widest : ∀ d, motive (Dialect.widestText d))
    (serial : ∀ text ∈ ["BIGSERIAL", "SERIAL"], motive text) (d : Dialect) (spec : ColumnSpec) :
    motive (TableDefinition.columnType d spec) := by
  have native (t : ColumnType) (length : Nat) (d : Dialect) : motive (t.native length d) := by
    by_cases string : t = .string
    · subst string
      cases d with
      | postgres | mysql => exact sized "VARCHAR" (by simp) length
      | mssql => exact sized "NVARCHAR" (by simp) length
      | sqlite => exact fixed .text .sqlite
      | document => exact fixed .text .document
    · have same : t.native length d = t.native 0 d := by
        cases t <;> cases d <;> first | rfl | exact absurd rfl string
      rw [same]
      exact fixed t d
  unfold TableDefinition.columnType
  split
  · split
    · exact serial _ (by simp)
    · exact serial _ (by simp)
  · exact fixed .integer .sqlite
  · unfold Dialect.columnType
    split
    · exact native _ _ _
    · exact widest _

theorem columnType_legible (d : Dialect) (spec : ColumnSpec) :
    Legible (pieces (TableDefinition.columnType d spec)) := by
  refine columnType_induct (motive := fun text => Legible (pieces text))
    ?sized ?fixed ?widest ?serial d spec
  case sized =>
    intro name known length
    have spelled : ∀ name ∈ ["VARCHAR", "NVARCHAR"], (Token.word name).isSpelled := by decide
    rw [pieces_sized (spelled name known)]
    exact legible_cons_solo (by decide) (spelled name known)
      (legible_cons_solo (by decide) (Statement.count_spelled length) legible_nil)
  case fixed =>
    intro t d
    refine pieces_legible ?_
    cases t <;> cases d <;> decide
  case widest => exact fun d => pieces_legible (by cases d <;> decide)
  case serial =>
    intro text known
    have chars : ∀ text ∈ ["BIGSERIAL", "SERIAL"], text.toList.all isTypeChar := by decide
    exact pieces_legible (chars text known)

end Sql
end StoreBridge
