import StoreBridge.Proofs.Document.Reading
import StoreBridge.Proofs.Entries

/-!
What writing a condition into a query does to its truth. Each way to write one, beside the entries,
into an entry or into `$and`, adds exactly that condition to those that must hold. Two facts about
the query carry this: `$and` is bound to an array, and options stand beside their pattern.
-/
namespace StoreBridge

namespace Query
variable {β : StoredTest → Bool} {query : Document} {key field : String}

/-- Options stand beside their pattern. -/
def Paired (operators : Document) : Prop :=
  operators.contains "$options" → operators.contains "$regex"

/-- What compiling keeps true of a query. -/
structure Tidy (query : Document) : Prop where
  conjunction : ∀ value, query.get? "$and" = some value → ∃ clauses, value = .array clauses
  paired : ∀ field operators, query.get? field = some (.document operators) →
    isOperators operators → Paired operators

structure Together (operators : Document) : Prop where
  named : isOperators operators
  distinct : operators.keys.Nodup
  paired : Paired operators

/-! Entries that are added, and entries that ask for more than before. -/

theorem holds_insert_absent (absent : query.get? key = none) (value : Bson) :
    holds β (query.insert key value) = (holds β query && entryHolds β key value) := by
  rw [Entries.insert_absent absent]
  clear absent
  induction query with
  | nil => simp [holds]
  | cons e rest ih => simp only [List.cons_append, holds, ih, Bool.and_assoc]

theorem holds_insert_present {old value : Bson} {asked : Bool} (there : query.get? key = some old)
    (more : entryHolds β key value = (entryHolds β key old && asked)) :
    holds β (query.insert key value) = (holds β query && asked) := by
  induction query with
  | nil => simp [Entries.get?] at there
  | cons e rest ih =>
    by_cases same : e.1 = key
    · simp only [Entries.get?, if_pos same, Option.some.injEq] at there
      subst there same
      simp only [Entries.insert, if_pos, holds, more]
      rw [Bool.and_assoc, Bool.and_assoc, Bool.and_comm asked]
    · simp only [Entries.get?, if_neg same] at there
      simp only [Entries.insert, if_neg same, holds, ih there, Bool.and_assoc]

theorem allHold_append (left right : List Bson) :
    allHold β (left ++ right) = (allHold β left && allHold β right) := by
  induction left with
  | nil => simp [allHold]
  | cons clause rest ih => simp only [List.cons_append, allHold, ih, Bool.and_assoc]

theorem entryHolds_and (clauses : List Bson) :
    entryHolds β "$and" (.array clauses) = allHold β clauses := by
  rw [entryHolds, if_pos rfl]

theorem holds_appendAnd (tidy : Tidy query) (clause : Document) :
    holds β (appendAnd query clause) = (holds β query && holds β clause) := by
  cases there : query.get? "$and" with
  | none =>
    rw [appendAnd, there]
    simp only
    rw [holds_insert_absent there, entryHolds_and]
    simp [allHold, clauseHolds]
  | some value =>
    obtain ⟨clauses, rfl⟩ := tidy.conjunction value there
    rw [appendAnd, there]
    simp only
    refine holds_insert_present there ?_
    rw [entryHolds_and, entryHolds_and, allHold_append]
    simp [allHold, clauseHolds]

theorem holds_single (value : Bson) : holds β [(key, value)] = entryHolds β key value := by
  simp [holds]

theorem holds_addClauses (tidy : Tidy query) (clauses : List Bson) :
    holds β (addClauses query key clauses) =
      (holds β query && entryHolds β key (.array clauses)) := by
  unfold addClauses
  split
  · rename_i existing there
    refine holds_insert_present there ?_
    simp only [entryHolds_and, allHold_append]
  · split
    · rw [holds_appendAnd tidy, holds_single]
    · rename_i absent
      refine holds_insert_absent ?_ _
      rw [Entries.get?_none_iff, ← Entries.contains_iff]
      exact absent

/-! Operators. -/

theorem all_operatorHolds_congr {options others : Option Bson} {operators : Document}
    (same : "$regex" ∈ operators.keys → options = others) :
    operators.all (operatorHolds β field options) =
      operators.all (operatorHolds β field others) := by
  by_cases pattern : "$regex" ∈ operators.keys
  · rw [same pattern]
  · rw [Bool.eq_iff_iff, List.all_eq_true, List.all_eq_true]
    refine forall₂_congr fun e mem => ?_
    obtain ⟨key, operand⟩ := e
    have other : key ≠ "$regex" := by
      rintro rfl
      exact pattern (List.mem_map.mpr ⟨_, mem, rfl⟩)
    simp only [operatorHolds, if_neg other]

/-- Operators under other names add their tests: no pattern loses its options or gets those of
    another. -/
theorem operatorsHold_append {left right : Document} (before : Paired left) (behind : Paired right)
    (apart : ∀ key ∈ right.keys, key ∉ left.keys) :
    operatorsHold β field (left ++ right) =
      (operatorsHold β field left && operatorsHold β field right) := by
  have bare {m : Document} (paired : Paired m) (free : "$regex" ∉ m.keys) :
      m.get? "$options" = none := by
    rw [Entries.get?_none_iff, ← Entries.contains_iff]
    intro options
    exact free (Entries.contains_iff.mp (paired options))
  rw [operatorsHold, List.all_append, Entries.get?_append]
  congr 1
  · refine all_operatorHolds_congr fun pattern => ?_
    have other := bare behind fun inside => apart _ inside pattern
    rw [other, Option.or_none]
  · refine all_operatorHolds_congr fun pattern => ?_
    have other := bare before (apart _ pattern)
    rw [other, Option.none_or]

theorem entryHolds_operators {operators : Document} (named : isOperators operators) :
    entryHolds β field (.document operators) = operatorsHold β field operators := by
  rw [entryHolds, if_pos named]

theorem isOperators_append {existing : Document} (named : isOperators existing)
    (operators : Document) : isOperators (existing ++ operators) := by
  cases existing with
  | nil => simp [isOperators] at named
  | cons e rest => exact named

theorem merge_together {existing operators : Document} (together : Together operators)
    (free : operators.all fun e => !Entries.contains existing e.1) :
    (∀ key ∈ operators.keys, key ∉ existing.keys) ∧
      Entries.merge existing operators = existing ++ operators := by
  have apart : ∀ key ∈ operators.keys, key ∉ existing.keys := by
    intro key mem inside
    obtain ⟨e, there, rfl⟩ := List.mem_map.mp mem
    have other := List.all_eq_true.mp free e there
    rw [Entries.contains_iff.mpr inside] at other
    exact absurd other (by simp)
  exact ⟨apart, Entries.merge_disjoint together.distinct apart⟩

theorem holds_addOperators (tidy : Tidy query) {operators : Document}
    (together : Together operators) :
    holds β (addOperators query field operators) =
      (holds β query && operatorsHold β field operators) := by
  have beside : holds β (appendAnd query [(field, .document operators)]) =
      (holds β query && operatorsHold β field operators) := by
    rw [holds_appendAnd tidy, holds_single, entryHolds_operators together.named]
  unfold addOperators
  split
  · rename_i absent
    rw [holds_insert_absent absent, entryHolds_operators together.named]
  · rename_i existing there
    split
    · rename_i joins
      rw [Bool.and_eq_true] at joins
      obtain ⟨named, free⟩ := joins
      -- They join those on the field: no name is taken, so none is overwritten.
      obtain ⟨apart, merged⟩ := merge_together together free
      refine holds_insert_present there ?_
      rw [merged, entryHolds_operators (isOperators_append named operators),
        entryHolds_operators named]
      exact operatorsHold_append (tidy.paired field existing there named) together.paired apart
    · exact beside
  · exact beside

theorem together_eq (value : Bson) : Together [("$eq", value)] :=
  ⟨rfl, by simp [Entries.keys], by simp +decide [Paired, Entries.contains, Entries.get?]⟩

theorem entryHolds_value {value : Bson} (plain : ¬IdentityMode.isOperatorName field)
    (literal : ¬isOperatorValue value) :
    entryHolds β field value = β (.operator field "$eq" value) := by
  have other : ∀ name, IdentityMode.isOperatorName name → field ≠ name := by
    rintro name named rfl
    exact plain named
  cases value with
  | array clauses =>
    rw [entryHolds, if_neg (other "$and" rfl), if_neg (other "$or" rfl), if_neg (other "$nor" rfl)]
  | document d =>
    rw [entryHolds, if_neg]
    exact literal
  | _ => rfl

theorem holds_addEquality (tidy : Tidy query) {value : Bson}
    (plain : ¬IdentityMode.isOperatorName field) (literal : ¬isOperatorValue value) :
    holds β (addEquality query field value) =
      (holds β query && β (.operator field "$eq" value)) := by
  unfold addEquality
  split
  · rename_i absent
    rw [holds_insert_absent absent, entryHolds_value plain literal]
  · split
    · rw [holds_addOperators tidy (together_eq value)]
      simp +decide [operatorsHold, operatorHolds]
    · rw [holds_appendAnd tidy, holds_single, entryHolds_value plain literal]

/-! Every way to write a condition leaves the query tidy. -/

theorem tidy_nil : Tidy [] :=
  ⟨fun _ there => by simp [Entries.get?] at there, fun _ _ there => by simp [Entries.get?] at there⟩

theorem tidy_insert (tidy : Tidy query) {value : Bson}
    (array : key = "$and" → ∃ clauses, value = .array clauses)
    (paired : ∀ operators, value = .document operators → isOperators operators →
      Paired operators) : Tidy (query.insert key value) := by
  constructor
  · intro found there
    by_cases same : key = "$and"
    · rw [← same, Entries.get?_insert_self, Option.some.injEq] at there
      rw [← there]
      exact array same
    · rw [Entries.get?_insert_ne _ _ same] at there
      exact tidy.conjunction found there
  · intro field operators there
    by_cases same : key = field
    · rw [← same, Entries.get?_insert_self, Option.some.injEq] at there
      exact paired operators there
    · rw [Entries.get?_insert_ne _ _ same] at there
      exact tidy.paired field operators there

theorem tidy_insert_array (tidy : Tidy query) (clauses : List Bson) :
    Tidy (query.insert key (.array clauses)) :=
  tidy_insert tidy (fun _ => ⟨clauses, rfl⟩) (fun _ wrong => by simp at wrong)

theorem tidy_appendAnd (tidy : Tidy query) (clause : Document) : Tidy (appendAnd query clause) := by
  unfold appendAnd
  split <;> exact tidy_insert_array tidy _

theorem tidy_addClauses (tidy : Tidy query) (clauses : List Bson) :
    Tidy (addClauses query key clauses) := by
  unfold addClauses
  split
  · exact tidy_insert_array tidy _
  · split
    · exact tidy_appendAnd tidy _
    · exact tidy_insert_array tidy _

theorem paired_append {left right : Document} (before : Paired left) (behind : Paired right) :
    Paired (left ++ right) := by
  have either (name : String) : (left ++ right).contains name ↔
      left.contains name ∨ right.contains name := by
    simp only [Entries.contains, Entries.get?_append, Option.isSome_or, Bool.or_eq_true]
  unfold Paired
  rw [either, either]
  exact fun options => options.imp before behind

theorem tidy_addOperators (tidy : Tidy query) {operators : Document}
    (together : Together operators) (plain : ¬IdentityMode.isOperatorName field) :
    Tidy (addOperators query field operators) := by
  have other : field = "$and" → ∀ value, ∃ clauses, value = Bson.array clauses := by
    rintro rfl
    exact absurd rfl plain
  unfold addOperators
  split
  · refine tidy_insert tidy (fun same => other same _) ?_
    rintro _ ⟨⟩ _
    exact together.paired
  · rename_i existing there
    split
    · rename_i joins
      rw [Bool.and_eq_true] at joins
      obtain ⟨named, free⟩ := joins
      rw [(merge_together together free).2]
      refine tidy_insert tidy (fun same => other same _) ?_
      rintro _ ⟨⟩ _
      exact paired_append (tidy.paired field existing there named) together.paired
    · exact tidy_appendAnd tidy _
  · exact tidy_appendAnd tidy _

theorem tidy_addEquality (tidy : Tidy query) {value : Bson}
    (plain : ¬IdentityMode.isOperatorName field) (literal : ¬isOperatorValue value) :
    Tidy (addEquality query field value) := by
  unfold addEquality
  split
  · refine tidy_insert tidy ?_ ?_
    · rintro rfl
      exact absurd rfl plain
    · rintro operators rfl named
      exact absurd named literal
  · split
    · exact tidy_addOperators tidy (together_eq value) plain
    · exact tidy_appendAnd tidy _

end Query
end StoreBridge
