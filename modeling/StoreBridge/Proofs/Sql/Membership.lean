import StoreBridge.Proofs.Sql.Acceptance
import StoreBridge.Proofs.Sql.Meaning

/-!
Membership in a list beside the equalities with its items, where a comparison with NULL is unknown.
An equality that is asked of null is written as a test for NULL, but a null among the items of a
list is bound like the others. The list then never finds the rows that have no value, and its
complement finds no row.
-/
namespace StoreBridge

namespace Truth

def any (parts : List Truth) : Truth := parts.foldr or .false

def all (parts : List Truth) : Truth := parts.foldr and .true

theorem or_eq_true {a b : Truth} : a.or b = .true ↔ a = .true ∨ b = .true := by
  cases a <;> cases b <;> decide

theorem and_eq_true {a b : Truth} : a.and b = .true ↔ a = .true ∧ b = .true := by
  cases a <;> cases b <;> decide

section Map
variable {α : Type} {items : List α} {f : α → Truth}

theorem any_map_eq_true : any (items.map f) = .true ↔ ∃ item ∈ items, f item = .true := by
  induction items with
  | nil => simp [any]
  | cons item rest ih =>
    rw [List.map_cons, any, List.foldr_cons, or_eq_true, List.exists_mem_cons_iff, ← ih]
    rfl

theorem all_map_eq_true : all (items.map f) = .true ↔ ∀ item ∈ items, f item = .true := by
  induction items with
  | nil => simp [all]
  | cons item rest ih =>
    rw [List.map_cons, all, List.foldr_cons, and_eq_true, List.forall_mem_cons, ← ih]
    rfl

end Map

end Truth

def Filter.oneByOne (field : String) (op : Operator) (items : List Value) : List Filter :=
  items.map fun item => [.operator field op item]

namespace Sql

namespace Meaning
variable (d : Dialect) (σ : FieldTest → Truth)

theorem truth_single (condition : Condition) :
    (ofFilter d [condition]).truth σ = (ofCondition d condition).truth σ :=
  Truth.and_true _

theorem truth_any (branches : List (List Condition)) :
    (ofAny d branches).truth σ =
      Truth.any (branches.map fun branch => (ofFilter d branch).truth σ) := by
  induction branches with
  | nil => rfl
  | cons branch rest ih => rw [ofAny, Formula.truth, ih]; rfl

theorem truth_all (branches : List (List Condition)) :
    (ofAll d branches).truth σ =
      Truth.all (branches.map fun branch => (ofFilter d branch).truth σ) := by
  induction branches with
  | nil => rfl
  | cons branch rest ih => rw [ofAll, Formula.truth, ih]; rfl

end Meaning

/-- A row under the tests of a clause: its cells, of which NULL is none, and which of them equal an
    operand. -/
structure TestedRow (Cell : Type) where
  cell : String → Option Cell
  equal : Cell → Value → Bool
  /-- Whatever the other tests say. -/
  other : FieldTest → Truth

namespace TestedRow
variable {Cell : Type} (row : TestedRow Cell) {d : Dialect} {field : String}

def equality (column : String) (operand : Value) : Truth :=
  match row.cell column with
  | none => .unknown
  | some cell => if operand.isNull then .unknown else Truth.ofBool (row.equal cell operand)

def inequality (column : String) (operand : Value) : Truth := (row.equality column operand).not

def truth : FieldTest → Truth
  | .null column negated => Truth.ofBool ((row.cell column).isNone != negated)
  | .compare column .eq operand => row.equality column operand
  | .compare column .ne operand => row.inequality column operand
  | .member column false items => Truth.any (items.map (row.equality column))
  | .member column true items => Truth.all (items.map (row.inequality column))
  | test => row.other test

def answer (d : Dialect) (start : Nat) (filter : Filter) : Option Truth :=
  match Clause.ofFilter d filter with
  | .ok clause => (conditionOfText d start (clause.text d start) clause.parameters).map
    (·.truth row.truth)
  | .error _ => none

theorem answer_means {start : Nat} {filter : Filter} (sql : d.isSql)
    (taken : ∀ q ∈ Filter.questions filter, q.op.takes q.value)
    (kept : ∀ c ∈ Filter.nested filter, Clause.KeepsBranches d start c) :
    row.answer d start filter = some ((Meaning.ofFilter d filter).truth row.truth) := by
  obtain ⟨clause, built⟩ := Clause.ofConditions_ok taken
  have made : Clause.ofFilter d filter = .ok clause := Clause.ofFilter_ok.mpr ⟨sql, built⟩
  rw [answer, made]
  exact Clause.means_text sql (Clause.ofConditions_means sql kept built) start row.truth

def asked (d : Dialect) (field : String) (op : Operator) (value : Value) : Truth :=
  (Meaning.ofOperator d field op value).truth row.truth

/-! One item of a list. -/

theorem inequality_null (column : String) : row.inequality column .null = .unknown := by
  unfold inequality equality
  cases row.cell column <;> rfl

theorem equality_empty {column : String} (empty : row.cell column = none) (operand : Value) :
    row.equality column operand = .unknown := by
  rw [equality, empty]

theorem asked_eq {value : Value} (there : value ≠ .null) :
    row.asked d field .eq value = row.equality field (d.stored value) := by
  cases value with
  | null => exact absurd rfl there
  | _ => rfl

theorem asked_ne {value : Value} (there : value ≠ .null) :
    row.asked d field .ne value = row.inequality field (d.stored value) := by
  cases value with
  | null => exact absurd rfl there
  | _ => rfl

theorem asked_eq_true {value : Value} : row.asked d field .eq value = .true ↔
    row.equality field (d.stored value) = .true ∨ value = .null ∧ row.cell field = none := by
  by_cases null : value = .null
  · subst null
    cases empty : row.cell field with
    | none => simp [asked, Meaning.ofOperator, Formula.truth, truth, empty, Value.isNull,
        Truth.ofBool]
    | some cell => simp [asked, Meaning.ofOperator, Formula.truth, truth, empty, Value.isNull,
        Truth.ofBool, equality, Dialect.stored]
  · simp [row.asked_eq null, null]

theorem asked_ne_true {value : Value} : row.asked d field .ne value = .true ↔
    row.inequality field (d.stored value) = .true ∨ value = .null ∧ row.cell field ≠ none := by
  by_cases null : value = .null
  · subst null
    cases empty : row.cell field with
    | none => simp [asked, Meaning.ofOperator, Formula.truth, truth, empty, Value.isNull,
        Truth.ofBool, inequality_null, Dialect.stored]
    | some cell => simp [asked, Meaning.ofOperator, Formula.truth, truth, empty, Value.isNull,
        Truth.ofBool]
  · simp [row.asked_ne null, null]

/-! Lists of them. -/

section Lists
variable {items : List Value} (start : Nat)

theorem operator_kept {op : Operator} {value : Value} :
    ∀ c ∈ Filter.nested [.operator field op value], Clause.KeepsBranches d start c := by
  rw [Filter.forall_nested_cons, Filter.forall_nested_operator]
  exact ⟨trivial, by simp [Filter.nested]⟩

theorem answer_operator (sql : d.isSql) {op : Operator} {value : Value} (taken : op.takes value) :
    row.answer d start [.operator field op value] = some (row.asked d field op value) := by
  rw [answer_means row sql, Meaning.truth_single]
  · rfl
  · simpa [Filter.questions, Condition.questions] using taken
  · exact operator_kept start

theorem asked_member (d : Dialect) (field : String) (filled : items ≠ []) :
    row.asked d field .isIn (.array items) =
        Truth.any (items.map fun item => row.equality field (d.stored item)) ∧
      row.asked d field .notIn (.array items) =
        Truth.all (items.map fun item => row.inequality field (d.stored item)) := by
  have nonempty : items.isEmpty = false := by simpa using filled
  have members (negated : Bool) : Meaning.ofMembers d field negated items =
      .test (.member field negated (items.map d.stored)) := by
    rw [Meaning.ofMembers, nonempty]
    rfl
  constructor
  · simp only [asked, Meaning.ofOperator, Value.items?, Option.map_some, Option.getD_some, members,
      Formula.truth, truth, List.map_map]
    rfl
  · simp only [asked, Meaning.ofOperator, Value.items?, Option.map_some, Option.getD_some, members,
      Formula.truth, truth, List.map_map]
    rfl

theorem oneByOne_taken {op : Operator} (takes : ∀ item, op.takes item) :
    ∀ q ∈ Filter.branchQuestions (Filter.oneByOne field op items), q.op.takes q.value := by
  rw [Filter.branchQuestions_eq, List.forall_mem_flatMap, Filter.oneByOne, List.forall_mem_map]
  intro item _ q mem
  obtain rfl : q = ⟨field, op, item⟩ := by
    simpa [Filter.questions, Condition.questions] using mem
  exact takes item

theorem oneByOne_kept {op : Operator} :
    ∀ branch ∈ Filter.oneByOne field op items, ∀ c ∈ Filter.nested branch,
      Clause.KeepsBranches d start c := by
  rw [Filter.oneByOne, List.forall_mem_map]
  exact fun item _ => operator_kept start

theorem oneByOne_truth {op : Operator} :
    (Filter.oneByOne field op items).map (fun branch =>
      (Meaning.ofFilter d branch).truth row.truth) = items.map (row.asked d field op) := by
  rw [Filter.oneByOne, List.map_map]
  exact List.map_congr_left fun item _ => Meaning.truth_single d row.truth _

theorem eq_not_marker {item : Value} {clause : Clause}
    (built : Clause.ofFilter d [.operator field .eq item] = .ok clause) :
    clause.text d start ≠ Clause.marker := by
  obtain ⟨sql, built⟩ := Clause.ofFilter_ok.mp built
  have leaf : Clause.ofConditions d [.operator field .eq item] =
      .ok [Clause.ofLeaf d field item] := by
    cases item <;> rfl
  obtain rfl := Except.ok.inj (leaf.symm.trans built)
  rw [Ne, Clause.text_eq_marker sql, Clause.ofLeaf]
  split <;> simp [Clause.matchesAll]

theorem answer_any (sql : d.isSql) (filled : items ≠ []) :
    row.answer d start [.or (Filter.oneByOne field .eq items)] =
      some (Truth.any (items.map (row.asked d field .eq))) := by
  rw [answer_means row sql, Meaning.truth_single, Meaning.ofCondition, Meaning.truth_any,
    oneByOne_truth]
  · simpa [Filter.questions, Condition.questions] using oneByOne_taken fun _ => rfl
  · rw [Filter.forall_nested_cons, Filter.forall_nested_or]
    refine ⟨⟨⟨by simpa [Filter.oneByOne] using filled, ?_⟩, oneByOne_kept start⟩,
      by simp [Filter.nested]⟩
    rw [Filter.oneByOne, List.forall_mem_map]
    exact fun item _ clause built => eq_not_marker start built

theorem answer_all (sql : d.isSql) :
    row.answer d start [.and (Filter.oneByOne field .ne items)] =
      some (Truth.all (items.map (row.asked d field .ne))) := by
  rw [answer_means row sql, Meaning.truth_single, Meaning.ofCondition, Meaning.truth_all,
    oneByOne_truth]
  · simpa [Filter.questions, Condition.questions] using oneByOne_taken fun _ => rfl
  · rw [Filter.forall_nested_cons, Filter.forall_nested_and]
    exact ⟨⟨trivial, oneByOne_kept start⟩, by simp [Filter.nested]⟩

end Lists

/-- A list finds what the equalities with its items find, but no row without a value for a null
    among them, and its complement finds nothing where there is one. -/
theorem membership_iff (sql : d.isSql) {items : List Value} (filled : items ≠ []) (start : Nat) :
    ∃ inside equal outside apart : Truth,
      row.answer d start [.operator field .isIn (.array items)] = some inside ∧
      row.answer d start [.or (Filter.oneByOne field .eq items)] = some equal ∧
      row.answer d start [.operator field .notIn (.array items)] = some outside ∧
      row.answer d start [.and (Filter.oneByOne field .ne items)] = some apart ∧
      (inside = .true ↔ equal = .true ∧ ¬(.null ∈ items ∧ row.cell field = none)) ∧
      (outside = .true ↔ apart = .true ∧ .null ∉ items) ∧
      (.null ∉ items → inside = equal ∧ outside = apart) := by
  obtain ⟨inside, outside⟩ := row.asked_member d field filled
  refine ⟨_, _, _, _, row.answer_operator start sql rfl, row.answer_any start sql filled,
    row.answer_operator start sql rfl, row.answer_all start sql, ?found, ?missed, ?same⟩
  case found =>
    rw [inside, Truth.any_map_eq_true, Truth.any_map_eq_true]
    constructor
    · rintro ⟨item, mem, holds⟩
      refine ⟨⟨item, mem, row.asked_eq_true.mpr (.inl holds)⟩, fun ⟨_, empty⟩ => ?_⟩
      rw [row.equality_empty empty] at holds
      contradiction
    · rintro ⟨⟨item, mem, holds⟩, apart⟩
      obtain holds | ⟨rfl, empty⟩ := row.asked_eq_true.mp holds
      · exact ⟨item, mem, holds⟩
      · exact absurd ⟨mem, empty⟩ apart
  case missed =>
    rw [outside, Truth.all_map_eq_true, Truth.all_map_eq_true]
    constructor
    · intro each
      -- A null among the items would be unknown, and then the list is not missed.
      refine ⟨fun item mem => row.asked_ne_true.mpr (.inl (each item mem)), fun mem => ?_⟩
      have holds := (row.inequality_null field).symm.trans (each .null mem)
      contradiction
    · rintro ⟨each, without⟩ item mem
      obtain holds | ⟨rfl, _⟩ := row.asked_ne_true.mp (each item mem)
      · exact holds
      · exact absurd mem without
  case same =>
    intro without
    have there item (mem : item ∈ items) : item ≠ .null := fun same => without (same ▸ mem)
    rw [inside, outside]
    constructor
    · exact congrArg Truth.any
        (List.map_congr_left fun item mem => (row.asked_eq (there item mem)).symm)
    · exact congrArg Truth.all
        (List.map_congr_left fun item mem => (row.asked_ne (there item mem)).symm)

def ofNumbers (cell : String → Option Int64) : TestedRow Int64 where
  cell
  equal
    | cell, .int operand => cell == operand
    | _, _ => false
  other _ := .unknown

/-- A null among the items, and a row without a value. -/
theorem membership_iff_null_item :
    let row := ofNumbers fun _ => none
    let items : List Value := [.int 1, .null]
    ∃ inside equal outside apart : Truth,
      row.answer .postgres 3 [.operator "a" .isIn (.array items)] = some inside ∧
      row.answer .postgres 3 [.or (Filter.oneByOne "a" .eq items)] = some equal ∧
      row.answer .postgres 3 [.operator "a" .notIn (.array items)] = some outside ∧
      row.answer .postgres 3 [.and (Filter.oneByOne "a" .ne items)] = some apart ∧
      (inside = .true ↔ equal = .true ∧ ¬(.null ∈ items ∧ row.cell "a" = none)) ∧
      (outside = .true ↔ apart = .true ∧ .null ∉ items) ∧
      (.null ∉ items → inside = equal ∧ outside = apart) :=
  membership_iff _ rfl (List.cons_ne_nil _ _) 3

/-- A null in a list does not find the row without a value, and hides one with another value. -/
theorem null_item_unknown :
    let items : List Value := [.null, .int 1]
    let empty := ofNumbers fun _ => none
    let filled := ofNumbers fun _ => some 2
    empty.answer .mysql 1 [.operator "a" .isIn (.array items)] = some .unknown ∧
    empty.answer .mysql 1 [.or (Filter.oneByOne "a" .eq items)] = some .true ∧
    filled.answer .mysql 1 [.operator "a" .notIn (.array items)] = some .unknown ∧
    filled.answer .mysql 1 [.and (Filter.oneByOne "a" .ne items)] = some .true := by
  refine ⟨?_, ?_, ?_, ?_⟩ <;> rfl

end TestedRow
end Sql
end StoreBridge
