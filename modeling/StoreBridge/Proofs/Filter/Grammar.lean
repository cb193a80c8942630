import StoreBridge.Filter.Reader
import StoreBridge.Proofs.Document.Boundary
import StoreBridge.Proofs.Filter.Nested

/-!
The grammar of filters in JSON, apart from its reader. `IsFilter` says which JSON values are
filters and `Says` which conditions they stand for, entry by entry in their order. The reader takes
exactly the filters, gives what they say, and refuses all else as what cannot be compiled.
-/
namespace StoreBridge

/-- A condition whose names are names of fields, and whose operand, where it has an operator, has
    none but such names in it. -/
def Condition.Unreserved : Condition → Prop
  | .leaf field _ => Filter.isReserved field = false
  | .operator field _ value =>
    Filter.isReserved field = false ∧ ∀ fields, value = .object fields →
      ∀ entry ∈ fields, Filter.isReserved entry.1 = false
  | .and _ | .or _ | .not _ => True

namespace Filter

def HoldsOperators (fields : Entries Json) : Prop :=
  fields ≠ [] ∧ ∀ entry ∈ fields, isReserved entry.1

def HoldsReserved (operand : Json) : Prop :=
  ∃ fields, operand = .object fields ∧ ∃ entry ∈ fields, isReserved entry.1

mutual

inductive IsFilter : Json → Prop where
  | null : IsFilter .null
  | object {fields : Entries Json} (entries : ∀ entry ∈ fields, IsEntry entry.1 entry.2) :
    IsFilter (.object fields)

/-- What may stand under a name of a filter. -/
inductive IsEntry : String → Json → Prop where
  | branches {key : String} {items : List Json} (named : key = "$and" ∨ key = "$or")
    (each : ∀ item ∈ items, IsFilter item) : IsEntry key (.array items)
  | negation {fields : Entries Json} (inner : IsFilter (.object fields)) :
    IsEntry "$not" (.object fields)
  | operators {field : String} {operands : Entries Json} (free : isReserved field = false)
    (only : HoldsOperators operands)
    (each : ∀ operand ∈ operands, (∃ op : Operator, op.key = operand.1) ∧
      ¬HoldsReserved operand.2) : IsEntry field (.object operands)
  | literal {field : String} {value : Json} (free : isReserved field = false)
    (plain : ∀ fields, value = .object fields → ¬HoldsOperators fields) : IsEntry field value

end

/-- The condition that one operator of a field stands for. -/
def Asks (field : String) (operand : String × Json) (condition : Condition) : Prop :=
  ∃ op : Operator, op.key = operand.1 ∧ ¬HoldsReserved operand.2 ∧
    condition = .operator field op (Value.ofJson operand.2)

mutual

/-- What a JSON value says as a filter. -/
inductive Says : Json → Filter → Prop where
  | null : Says .null []
  | object {fields : Entries Json} {filter : Filter} (each : EntriesSay fields filter) :
    Says (.object fields) filter

inductive EntriesSay : Entries Json → List Condition → Prop where
  | nil : EntriesSay [] []
  | cons {key : String} {value : Json} {first later : List Condition} {rest : Entries Json}
    (head : EntrySays key value first) (tail : EntriesSay rest later) :
    EntriesSay ((key, value) :: rest) (first ++ later)

inductive EntrySays : String → Json → List Condition → Prop where
  | and {items : List Json} {branches : List Filter} (each : BranchesSay items branches) :
    EntrySays "$and" (.array items) [.and branches]
  | or {items : List Json} {branches : List Filter} (each : BranchesSay items branches) :
    EntrySays "$or" (.array items) [.or branches]
  | not {fields : Entries Json} {inner : Filter} (each : EntriesSay fields inner) :
    EntrySays "$not" (.object fields) [.not inner]
  | operators {field : String} {operands : Entries Json} {conditions : List Condition}
    (free : isReserved field = false) (only : HoldsOperators operands)
    (each : List.Forall₂ (Asks field) operands conditions) :
    EntrySays field (.object operands) conditions
  | literal {field : String} {value : Json} (free : isReserved field = false)
    (plain : ∀ fields, value = .object fields → ¬HoldsOperators fields) :
    EntrySays field value [.leaf field (Value.ofJson value)]

inductive BranchesSay : List Json → List Filter → Prop where
  | nil : BranchesSay [] []
  | cons {item : Json} {first : Filter} {rest : List Json} {later : List Filter}
    (head : Says item first) (tail : BranchesSay rest later) :
    BranchesSay (item :: rest) (first :: later)

end

/-! The tests of the reader say what the grammar asks. -/

theorem isOperators_iff {fields : Entries Json} : isOperators fields ↔ HoldsOperators fields := by
  simp [isOperators, HoldsOperators]

theorem isNested_iff {operand : Json} : isNested operand ↔ HoldsReserved operand := by
  cases operand <;> simp [isNested, HoldsReserved]

theorem ofKey?_iff {key : String} {op : Operator} :
    Operator.ofKey? key = some op ↔ op.key = key := by
  constructor
  · intro found
    simpa using List.find?_some found
  · rintro rfl
    cases op <;> decide

/-! Reading ends in what the grammar says, or refuses. -/

def Ends {α : Type} (promised : α → Prop) : Except Error α → Prop
  | .ok a => promised a
  | .error error => ∃ cause, error = .uncompilable cause

section
variable {α β : Type} {P : α → Prop} {Q : β → Prop} {x : Except Error α}

theorem ends_refuse (cause : CompileError) : Ends P (refuse cause) := ⟨cause, rfl⟩

theorem ends_imp {R : α → Prop} (first : Ends P x) (weaker : ∀ a, P a → R a) : Ends R x := by
  cases x with
  | error error => exact first
  | ok a => exact weaker a first

theorem ends_map {f : α → β} (first : Ends P x) (next : ∀ a, P a → Q (f a)) : Ends Q (x.map f) := by
  cases x with
  | error error => exact first
  | ok a => exact next a first

theorem ends_bind {f : α → Except Error β} (first : Ends P x) (next : ∀ a, P a → Ends Q (f a)) :
    Ends Q (x >>= f) := by
  cases x with
  | error error => exact first
  | ok a => exact next a first

end

theorem operatorsOfJson_ends (field : String) (operands : Entries Json) :
    Ends (List.Forall₂ (Asks field) operands) (operatorsOfJson field operands) := by
  induction operands with
  | nil => exact .nil
  | cons operand rest ih =>
    obtain ⟨key, operand⟩ := operand
    rw [operatorsOfJson]
    cases known : Operator.ofKey? key with
    | none => exact ends_refuse _
    | some op =>
      by_cases nested : isNested operand
      · simp only [nested, if_true]
        exact ends_refuse _
      · simp only [nested, Bool.false_eq_true, if_false]
        refine ends_bind ih fun later asked => .cons ⟨op, ?_, ?_, rfl⟩ asked
        · exact ofKey?_iff.mp known
        · rwa [← isNested_iff]

theorem fieldOfJson_ends {field : String} (free : isReserved field = false) (value : Json) :
    Ends (EntrySays field value) (fieldOfJson field value) := by
  unfold fieldOfJson
  split
  · rename_i fields
    by_cases operators : isOperators fields
    · simp only [operators, if_true]
      exact ends_imp (operatorsOfJson_ends field fields) fun conditions asked =>
        .operators free (isOperators_iff.mp operators) asked
    · simp only [operators, Bool.false_eq_true, if_false]
      refine .literal free ?_
      rintro _ ⟨⟩
      rwa [← isOperators_iff]
  · rename_i other
    exact .literal free fun fields same => absurd same (other fields)

theorem named_ends {key : String} (value : Json) :
    Ends (EntrySays key value)
      (if isReserved key then refuse (.unknownCombinator key) else fieldOfJson key value) := by
  by_cases reserved : isReserved key
  · simp only [reserved, if_true]
    exact ends_refuse _
  · simp only [reserved, Bool.false_eq_true, if_false]
    exact fieldOfJson_ends (by simpa using reserved) value

mutual

theorem ofJson_ends (j : Json) : Ends (Says j) (ofJson j) := by
  match j with
  | .null => exact .null
  | .object fields => exact ends_imp (entries_end fields) fun filter each => .object each
  | .bool _ | .integer _ | .float _ | .string _ | .array _ => exact ends_refuse _

theorem entries_end (fields : List (String × Json)) :
    Ends (EntriesSay fields) (conditionsOfJson fields) := by
  match fields with
  | [] => exact .nil
  | (key, value) :: rest =>
    rw [conditionsOfJson]
    refine ends_bind (entry_ends key value) fun first head => ?_
    exact ends_bind (entries_end rest) fun later tail => .cons head tail

theorem entry_ends (key : String) (value : Json) :
    Ends (EntrySays key value) (entryOfJson key value) := by
  match value with
  | .array items =>
    rw [entryOfJson]
    split
    · subst key
      exact ends_map (branches_end items) fun branches each => .and each
    · split
      · subst key
        exact ends_map (branches_end items) fun branches each => .or each
      · split
        · exact ends_refuse _
        · exact named_ends (.array items)
  | .object fields =>
    rw [entryOfJson]
    split
    · subst key
      exact ends_map (entries_end fields) fun inner each => .not each
    · split
      · exact ends_refuse _
      · exact named_ends (.object fields)
  | .null | .bool _ | .integer _ | .float _ | .string _ =>
    unfold entryOfJson
    split
    · exact ends_refuse _
    · split
      · exact ends_refuse _
      · exact named_ends _

theorem branches_end (items : List Json) : Ends (BranchesSay items) (branchesOfJson items) := by
  match items with
  | [] => exact .nil
  | item :: rest =>
    rw [branchesOfJson]
    refine ends_bind (ofJson_ends item) fun first head => ?_
    exact ends_bind (branches_end rest) fun later tail => .cons head tail

end

/-! What the grammar says is read. -/

theorem operators_read {field : String} {operands : Entries Json} {conditions : List Condition}
    (each : List.Forall₂ (Asks field) operands conditions) :
    operatorsOfJson field operands = .ok conditions := by
  induction each with
  | nil => rfl
  | cons first _ ih =>
    obtain ⟨op, known, plain, rfl⟩ := first
    rw [← isNested_iff] at plain
    rw [operatorsOfJson, ofKey?_iff.mpr known, ih]
    simp only [plain, Bool.false_eq_true, if_false]
    rfl

theorem free_read {field : String} (free : isReserved field = false) (value : Json) :
    entryOfJson field value = fieldOfJson field value := by
  have and : field ≠ "$and" := by rintro rfl; simp +decide at free
  have or : field ≠ "$or" := by rintro rfl; simp +decide at free
  have not : field ≠ "$not" := by rintro rfl; simp +decide at free
  cases value <;> simp [entryOfJson, and, or, not, free]

mutual

theorem Says.read {j : Json} {filter : Filter} : Says j filter → ofJson j = .ok filter
  | .null => rfl
  | .object each => each.read

theorem EntriesSay.read {fields : Entries Json} {filter : List Condition} :
    EntriesSay fields filter → conditionsOfJson fields = .ok filter
  | .nil => rfl
  | .cons head tail => by
    rw [conditionsOfJson, head.read, tail.read]
    rfl

theorem EntrySays.read {key : String} {value : Json} {conditions : List Condition} :
    EntrySays key value conditions → entryOfJson key value = .ok conditions
  | .and each => by
    rw [entryOfJson, if_pos rfl, each.read]
    rfl
  | .or each => by
    rw [entryOfJson, if_neg (by decide), if_pos rfl, each.read]
    rfl
  | .not each => by
    rw [entryOfJson, if_pos rfl, each.read]
    rfl
  | .operators free only each => by
    rw [free_read free, fieldOfJson, if_pos (isOperators_iff.mpr only), operators_read each]
  | .literal free plain => by
    rw [free_read free]
    unfold fieldOfJson
    split
    · rename_i fields
      have other := plain fields rfl
      rw [← isOperators_iff] at other
      rw [if_neg other]
    · rfl

theorem BranchesSay.read {items : List Json} {branches : List Filter} :
    BranchesSay items branches → branchesOfJson items = .ok branches
  | .nil => rfl
  | .cons head tail => by
    rw [branchesOfJson, head.read, tail.read]
    rfl

end

theorem ofJson_iff {j : Json} {filter : Filter} : ofJson j = .ok filter ↔ Says j filter := by
  refine ⟨fun read => ?_, Says.read⟩
  have ends := ofJson_ends j
  rwa [read] at ends

/-! The values that say something are the filters. -/

theorem forall₂_exists_iff {α β : Type} {R : α → β → Prop} {items : List α} :
    (∃ others, List.Forall₂ R items others) ↔ ∀ item ∈ items, ∃ other, R item other := by
  induction items with
  | nil => simp
  | cons item rest ih =>
    rw [List.forall_mem_cons, ← ih]
    constructor
    · rintro ⟨_, _ | ⟨first, later⟩⟩
      exact ⟨⟨_, first⟩, ⟨_, later⟩⟩
    · rintro ⟨⟨other, first⟩, ⟨others, later⟩⟩
      exact ⟨other :: others, .cons first later⟩

mutual

theorem Says.isFilter {j : Json} {filter : Filter} : Says j filter → IsFilter j
  | .null => .null
  | .object each => .object each.isEntry

theorem EntriesSay.isEntry {fields : Entries Json} {filter : List Condition} :
    EntriesSay fields filter → ∀ entry ∈ fields, IsEntry entry.1 entry.2
  | .nil => by simp
  | .cons head tail => List.forall_mem_cons.mpr ⟨head.isEntry, tail.isEntry⟩

theorem EntrySays.isEntry {key : String} {value : Json} {conditions : List Condition} :
    EntrySays key value conditions → IsEntry key value
  | .and each => .branches (.inl rfl) each.isFilter
  | .or each => .branches (.inr rfl) each.isFilter
  | .not each => .negation (.object each.isEntry)
  | .operators free only each => by
    refine .operators free only fun operand mem => ?_
    obtain ⟨_, op, known, plain, _⟩ := forall₂_exists_iff.mp ⟨_, each⟩ operand mem
    exact ⟨⟨op, known⟩, plain⟩
  | .literal free plain => .literal free plain

theorem BranchesSay.isFilter {items : List Json} {branches : List Filter} :
    BranchesSay items branches → ∀ item ∈ items, IsFilter item
  | .nil => by simp
  | .cons head tail => List.forall_mem_cons.mpr ⟨head.isFilter, tail.isFilter⟩

end

theorem entries_say {fields : Entries Json}
    (each : ∀ entry ∈ fields, ∃ conditions, EntrySays entry.1 entry.2 conditions) :
    ∃ filter, EntriesSay fields filter := by
  induction fields with
  | nil => exact ⟨[], .nil⟩
  | cons entry rest ih =>
    rw [List.forall_mem_cons] at each
    obtain ⟨first, head⟩ := each.1
    obtain ⟨later, tail⟩ := ih each.2
    exact ⟨first ++ later, .cons head tail⟩

theorem branches_say {items : List Json} (each : ∀ item ∈ items, ∃ filter, Says item filter) :
    ∃ branches, BranchesSay items branches := by
  induction items with
  | nil => exact ⟨[], .nil⟩
  | cons item rest ih =>
    rw [List.forall_mem_cons] at each
    obtain ⟨first, head⟩ := each.1
    obtain ⟨later, tail⟩ := ih each.2
    exact ⟨first :: later, .cons head tail⟩

mutual

theorem IsFilter.spoken {j : Json} : IsFilter j → ∃ filter, Says j filter
  | .null => ⟨[], .null⟩
  | .object entries => by
    obtain ⟨filter, each⟩ := entries_say fun entry mem => (entries entry mem).spoken
    exact ⟨filter, .object each⟩

theorem IsEntry.spoken {key : String} {value : Json} :
    IsEntry key value → ∃ conditions, EntrySays key value conditions
  | .branches named each => by
    obtain ⟨branches, said⟩ := branches_say fun item mem => (each item mem).spoken
    rcases named with rfl | rfl
    · exact ⟨_, .and said⟩
    · exact ⟨_, .or said⟩
  | .negation inner => by
    obtain ⟨filter, said⟩ := inner.spoken
    cases said with
    | object each => exact ⟨_, .not each⟩
  | .operators free only each => by
    have asked : ∃ conditions, List.Forall₂ (Asks key) _ conditions :=
      forall₂_exists_iff.mpr fun operand mem =>
        have ⟨⟨op, known⟩, plain⟩ := each operand mem
        ⟨_, op, known, plain, rfl⟩
    obtain ⟨conditions, asked⟩ := asked
    exact ⟨conditions, .operators free only asked⟩
  | .literal free plain => ⟨_, .literal free plain⟩

end

/-! Nothing of the grammar is left in the names and the operands of what was read. -/

theorem nested_append (front behind : List Condition) :
    nested (front ++ behind) = nested front ++ nested behind := by
  induction front with
  | nil => rfl
  | cons condition rest ih => rw [List.cons_append, nested, nested, ih, List.append_assoc]

theorem operand_unreserved {operand : Json} (plain : ¬HoldsReserved operand)
    {fields : List (String × Value)} (same : Value.ofJson operand = .object fields) :
    ∀ entry ∈ fields, isReserved entry.1 = false := by
  cases operand with
  | object inner =>
    rw [Value.ofJson, Value.object.injEq] at same
    subst same
    intro entry mem
    have written := Entries.mem_ofList mem
    rw [Value.fieldsOfJson_map] at written
    obtain ⟨source, inside, rfl⟩ := List.mem_map.mp written
    by_contra reserved
    rw [Bool.not_eq_false] at reserved
    exact plain ⟨inner, rfl, source, inside, reserved⟩
  | integer i =>
    rw [Value.ofJson] at same
    split at same <;> simp at same
  | null | bool | float | string | array => simp [Value.ofJson] at same

theorem asks_unreserved {field : String} (free : isReserved field = false)
    {operands : Entries Json} {conditions : List Condition}
    (each : List.Forall₂ (Asks field) operands conditions) :
    ∀ condition ∈ nested conditions, condition.Unreserved := by
  induction each with
  | nil => simp [nested]
  | cons first _ ih =>
    obtain ⟨op, _, plain, rfl⟩ := first
    rw [forall_nested_cons, forall_nested_operator]
    exact ⟨⟨free, fun fields same => operand_unreserved plain same⟩, ih⟩

mutual

theorem Says.unreserved {j : Json} {filter : Filter} :
    Says j filter → ∀ condition ∈ nested filter, condition.Unreserved
  | .null => by simp [nested]
  | .object each => each.unreserved

theorem EntriesSay.unreserved {fields : Entries Json} {filter : List Condition} :
    EntriesSay fields filter → ∀ condition ∈ nested filter, condition.Unreserved
  | .nil => by simp [nested]
  | .cons head tail => by
    rw [nested_append, List.forall_mem_append]
    exact ⟨head.unreserved, tail.unreserved⟩

theorem EntrySays.unreserved {key : String} {value : Json} {conditions : List Condition} :
    EntrySays key value conditions → ∀ condition ∈ nested conditions, condition.Unreserved
  | .and each => by
    rw [forall_nested_cons, forall_nested_and]
    exact ⟨⟨trivial, each.unreserved⟩, by simp [nested]⟩
  | .or each => by
    rw [forall_nested_cons, forall_nested_or]
    exact ⟨⟨trivial, each.unreserved⟩, by simp [nested]⟩
  | .not each => by
    rw [forall_nested_cons, forall_nested_not]
    exact ⟨⟨trivial, each.unreserved⟩, by simp [nested]⟩
  | .operators free _ each => asks_unreserved free each
  | .literal free _ => by
    rw [forall_nested_cons, forall_nested_leaf]
    exact ⟨free, by simp [nested]⟩

theorem BranchesSay.unreserved {items : List Json} {branches : List Filter} :
    BranchesSay items branches →
      ∀ branch ∈ branches, ∀ condition ∈ nested branch, condition.Unreserved
  | .nil => by simp
  | .cons head tail => List.forall_mem_cons.mpr ⟨head.unreserved, tail.unreserved⟩

end

/-- The reader takes the filters of the grammar and gives what they say: the conditions of the
    entries in their order, those of one field's operators side by side, and one condition for
    every other value of a field. No name of the grammar is left as a field or in an operand, and
    what is no filter is refused as what cannot be compiled. -/
theorem ofJson_grammar (j : Json) :
    ((∃ filter, ofJson j = .ok filter) ↔ IsFilter j) ∧
    (∀ filter, ofJson j = .ok filter →
      Says j filter ∧ ∀ condition ∈ nested filter, condition.Unreserved) ∧
    ∀ error, ofJson j = .error error → ∃ cause, error = .uncompilable cause := by
  refine ⟨⟨?_, ?_⟩, ?_, ?_⟩
  · rintro ⟨filter, read⟩
    exact (ofJson_iff.mp read).isFilter
  · intro grammar
    obtain ⟨filter, said⟩ := grammar.spoken
    exact ⟨filter, said.read⟩
  · intro filter read
    have said := ofJson_iff.mp read
    exact ⟨said, said.unreserved⟩
  · intro error failed
    have ends := ofJson_ends j
    rwa [failed] at ends

/-- An object with one name of the grammar is a value beside a field's operators, and no operand
    in a branch. -/
theorem ofJson_grammar_objects :
    IsFilter (.object [("a", .object [("$gte", .integer 1), ("$lt", .integer 5)]),
      ("$not", .object [("b", .object [("$x", .null), ("y", .null)])])]) ∧
    ¬IsFilter (.object [("$and", .array [.null, .object [("a",
      .object [("$eq", .object [("$gt", .integer 3), ("y", .null)])])]])]) := by
  refine ⟨(ofJson_grammar _).1.mp ⟨_, rfl⟩, fun grammar => ?_⟩
  obtain ⟨filter, read⟩ := (ofJson_grammar _).1.mpr grammar
  cases read

end Filter
end StoreBridge
