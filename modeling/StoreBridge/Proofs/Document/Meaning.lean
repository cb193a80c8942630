import StoreBridge.Proofs.Document.Compilation
import StoreBridge.Proofs.Document.Merging

/-!
The meaning of a filter for the document store, and the truth of the query that it is compiled to.
The two agree under every truth of the tests, in whatever order the conditions come and whichever
of them share a field, as long as no name is taken for an operator and no OR loses a branch.
-/
namespace StoreBridge.Query

namespace Meaning
variable (β : StoredTest → Bool) (mode : IdentityMode)

def ofOperator (field : String) (op : Operator) (value : Value) : Bool :=
  let name := IdentityMode.fieldName field
  match op, value with
  | .between, .array [low, high] =>
    β (.operator name "$gte" (mode.fieldValue field low)) &&
      β (.operator name "$lte" (mode.fieldValue field high))
  | .like, .text pattern | .ilike, .text pattern =>
    β (.pattern name (.string (LikePattern.toRegex pattern)) (some (.string "i")))
  | .regex, .text pattern => β (.pattern name (.string pattern) none)
  | .exists, .bool present => β (.operator name "$exists" (.boolean present))
  | op, value => β (.operator name op.key (mode.fieldValue field value))

mutual

def ofCondition : Condition → Bool
  | .leaf field value => ofOperator β mode field .eq value
  | .operator field op value => ofOperator β mode field op value
  | .and branches => ofAll branches
  | .or branches => ofAny branches
  | .not inner => !ofFilter inner

def ofFilter : List Condition → Bool
  | [] => true
  | condition :: rest => ofCondition condition && ofFilter rest

def ofAll : List (List Condition) → Bool
  | [] => true
  | branch :: rest => ofFilter branch && ofAll rest

def ofAny : List (List Condition) → Bool
  | [] => false
  | branch :: rest => ofFilter branch || ofAny rest

end

end Meaning

/-- Names are names and values are values, and an OR keeps its branches. -/
def Plain (mode : IdentityMode) : Condition → Prop
  | .leaf field value => ¬IdentityMode.isOperatorName field ∧
      ∀ key item rest, value = .object ((key, item) :: rest) → ¬IdentityMode.isOperatorName key
  | .operator field _ _ => ¬IdentityMode.isOperatorName field
  | .or branches => branches ≠ [] ∧ ∀ branch ∈ branches, Query.ofFilter mode branch ≠ .ok []
  | .and _ | .not _ => True

variable {β : StoredTest → Bool} {mode : IdentityMode}

theorem fieldName_plain {field : String} (plain : ¬IdentityMode.isOperatorName field) :
    ¬IdentityMode.isOperatorName (IdentityMode.fieldName field) := by
  unfold IdentityMode.fieldName
  split
  · decide
  · exact plain

theorem merge_head (key : String) (value : Bson) (rest other : Document) :
    ∃ value' rest', Entries.merge ((key, value) :: rest) other = (key, value') :: rest' := by
  induction other generalizing value rest with
  | nil => exact ⟨value, rest, rfl⟩
  | cons e others ih =>
    rw [Entries.merge_cons, Entries.insert]
    split <;> exact ih _ _

theorem storedFields_head (mode : IdentityMode) {key : String}
    (plain : ¬IdentityMode.isOperatorName key) (item : Value) (rest : List (String × Value)) :
    ∃ value, mode.storedFields ((key, item) :: rest) =
      (IdentityMode.fieldName key, value) :: mode.storedFields rest := by
  rw [IdentityMode.storedFields, if_neg plain, IdentityMode.fieldName]
  split <;> exact ⟨_, rfl⟩

theorem stored_literal {identity : Bool} {value : Value}
    (plain : ∀ key item rest, value = .object ((key, item) :: rest) →
      ¬IdentityMode.isOperatorName key) : ¬isOperatorValue (mode.stored identity value) := by
  cases value with
  | object fields =>
    cases fields with
    | nil => simp +decide [IdentityMode.stored, IdentityMode.storedFields, isOperatorValue]
    | cons field rest =>
      obtain ⟨key, item⟩ := field
      have named := plain key item rest rfl
      obtain ⟨first, head⟩ := storedFields_head mode named item rest
      have one : Entries.ofList ((IdentityMode.fieldName key, first) :: mode.storedFields rest) =
          Entries.merge [(IdentityMode.fieldName key, first)] (mode.storedFields rest) := rfl
      obtain ⟨value, others, merged⟩ :=
        merge_head (IdentityMode.fieldName key) first [] (mode.storedFields rest)
      rw [IdentityMode.stored, head, one, merged]
      exact fieldName_plain named
  | text s =>
    rw [IdentityMode.stored]
    unfold IdentityMode.textValue
    split <;> simp [isOperatorValue]
  | int i =>
    rw [IdentityMode.stored, Bson.ofInt64]
    split <;> simp [isOperatorValue]
  | _ => simp [IdentityMode.stored, isOperatorValue]

theorem operatorsOf_spec {field : String} {op : Operator} {value : Value}
    {operators : Document} (built : operatorsOf mode field op value = .ok operators) :
    Together operators ∧
      operatorsHold β (IdentityMode.fieldName field) operators =
        Meaning.ofOperator β mode field op value := by
  have single {key : String} {operand : Bson} (named : IdentityMode.isOperatorName key)
      (pattern : key ≠ "$regex") (test : key ≠ "$options") (same : [(key, operand)] = operators) :
      Together operators ∧ operatorsHold β (IdentityMode.fieldName field) operators =
        β (.operator (IdentityMode.fieldName field) key operand) := by
    subst same
    refine ⟨⟨named, by simp [Entries.keys], ?_⟩, ?_⟩
    · simp [Paired, Entries.contains, Entries.get?, test]
    · simp [operatorsHold, operatorHolds, pattern, test]
  cases op with
  | eq | ne | gt | gte | lt | lte =>
    simp only [operatorsOf, Except.ok.injEq] at built
    exact single (by decide) (by decide) (by decide) built
  | isIn | notIn =>
    cases value with
    | array items =>
      simp only [operatorsOf, Except.ok.injEq] at built
      exact single (by decide) (by decide) (by decide) built
    | _ => simp [operatorsOf, refuse] at built
  | «exists» =>
    cases value with
    | bool present =>
      simp only [operatorsOf, Except.ok.injEq] at built
      exact single (by decide) (by decide) (by decide) built
    | _ => simp [operatorsOf, refuse] at built
  | regex =>
    cases value with
    | text pattern =>
      simp only [operatorsOf, Except.ok.injEq] at built
      subst built
      refine ⟨⟨rfl, by simp [Entries.keys], fun _ => rfl⟩, ?_⟩
      simp [operatorsHold, operatorHolds, Meaning.ofOperator, Entries.get?]
    | _ => simp [operatorsOf, refuse] at built
  | like | ilike =>
    cases value with
    | text pattern =>
      simp only [operatorsOf, Except.ok.injEq] at built
      subst built
      refine ⟨⟨rfl, by simp [Entries.keys], fun _ => rfl⟩, ?_⟩
      simp [operatorsHold, operatorHolds, Meaning.ofOperator, Entries.get?]
    | _ => simp [operatorsOf, refuse] at built
  | between =>
    simp only [operatorsOf] at built
    split at built
    · simp only [Except.ok.injEq] at built
      subst built
      refine ⟨⟨rfl, by simp [Entries.keys], ?_⟩, ?_⟩
      · simp +decide [Paired, Entries.contains, Entries.get?]
      · simp [operatorsHold, operatorHolds, Meaning.ofOperator]
    · simp [refuse] at built

/-! Combinations. A branch that matches every document may be left out of an AND. -/

theorem holds_survivors {branches : List (List Condition)} {documents : List Document}
    (each : List.Forall₂ (fun branch document =>
      holds β document = Meaning.ofFilter β mode branch) branches documents) :
    allHold β ((documents.filter fun document => !document.isEmpty).map .document) =
      Meaning.ofAll β mode branches := by
  induction each with
  | nil => rfl
  | @cons branch document _ _ first _ ih =>
    rw [Meaning.ofAll, ← first]
    cases document with
    | nil => simpa [holds] using ih
    | cons e rest =>
      simp only [List.isEmpty_cons, Bool.not_false, List.filter_cons_of_pos, List.map_cons,
        allHold, clauseHolds, ih]

theorem holds_branches {branches : List (List Condition)} {documents : List Document}
    (each : List.Forall₂ (fun branch document =>
      holds β document = Meaning.ofFilter β mode branch) branches documents) :
    anyHolds β (documents.map .document) = Meaning.ofAny β mode branches := by
  induction each with
  | nil => rfl
  | cons first _ ih =>
    rw [Meaning.ofAny, ← first, List.map_cons, anyHolds, ih]
    rfl

theorem tidy_addBranches {query : Document} (tidy : Tidy query) (key : String)
    (branches : List Document) : Tidy (addBranches query key branches) := by
  unfold addBranches
  dsimp only
  split
  · exact tidy
  · exact tidy_addClauses tidy _

theorem holds_addBranches {query : Document} (tidy : Tidy query) (key : String)
    (documents : List Document) :
    holds β (addBranches query key documents) = (holds β query &&
      ((documents.filter fun document => !document.isEmpty).isEmpty ||
        entryHolds β key (.array
          ((documents.filter fun document => !document.isEmpty).map .document)))) := by
  unfold addBranches
  cases documents.filter fun document => !document.isEmpty with
  | nil => simp
  | cons first rest =>
    simp only [List.isEmpty_cons, Bool.false_eq_true, if_false, Bool.false_or]
    rw [holds_addClauses tidy]

theorem holds_addBranches_and {query : Document} (tidy : Tidy query) (documents : List Document) :
    holds β (addBranches query "$and" documents) = (holds β query &&
      allHold β ((documents.filter fun document => !document.isEmpty).map .document)) := by
  rw [holds_addBranches tidy, entryHolds_and]
  cases documents.filter fun document => !document.isEmpty <;> simp [allHold]

theorem holds_addBranches_or {query : Document} (tidy : Tidy query) {documents : List Document}
    (some : documents ≠ []) (whole : ∀ document ∈ documents, document ≠ []) :
    holds β (addBranches query "$or" documents) =
      (holds β query && anyHolds β (documents.map .document)) := by
  have all : (documents.filter fun document => !document.isEmpty) = documents := by
    rw [List.filter_eq_self]
    intro document mem
    simpa using whole document mem
  rw [holds_addBranches tidy, all, List.isEmpty_eq_false_iff.mpr some, Bool.false_or, entryHolds,
    if_neg (by decide), if_pos rfl]

/-- A filter adds its own truth to that of the query it is written into. -/
theorem addConditions_holds {query result : Document} {filter : List Condition}
    (built : addConditions mode query filter = .ok result) (tidy : Tidy query)
    (plain : ∀ c ∈ Filter.nested filter, Plain mode c) :
    holds β result = (holds β query && Meaning.ofFilter β mode filter) := by
  have branch_holds {branches : List (List Condition)} {documents : List Document}
      (inside : ∀ branch ∈ branches, ∀ c ∈ Filter.nested branch, Plain mode c)
      (each : List.Forall₂ (fun branch document => Tidy [] →
        (∀ c ∈ Filter.nested branch, Plain mode c) →
        holds β document = (holds β [] && Meaning.ofFilter β mode branch)) branches documents) :
      List.Forall₂ (fun branch document => holds β document = Meaning.ofFilter β mode branch)
        branches documents := by
    have both := (List.forall₂_and_left branches documents).mpr ⟨inside, each⟩
    refine both.imp fun branch document pair => ?_
    rw [pair.2 tidy_nil pair.1, holds, Bool.true_and]
  -- Each condition is written into the query of those before it, which stays tidy.
  refine compiled_induct (motive := fun query filter result => Tidy query →
    (∀ c ∈ Filter.nested filter, Plain mode c) →
    holds β result = (holds β query && Meaning.ofFilter β mode filter))
    ?nil ?leaf ?operator ?and ?or ?not built tidy plain
  case nil =>
    intro query _ _
    rw [Meaning.ofFilter, Bool.and_true]
  case leaf =>
    intro query field value rest result ih tidy plain
    rw [Filter.forall_nested_cons, Filter.forall_nested_leaf] at plain
    obtain ⟨⟨named, object⟩, behind⟩ := plain
    have named := fieldName_plain named
    have literal : ¬isOperatorValue (mode.fieldValue field value) := stored_literal object
    rw [ih (tidy_addEquality tidy named literal) behind, holds_addEquality tidy named literal,
      Meaning.ofFilter, Bool.and_assoc]
    rfl
  case operator =>
    intro query field op value operators rest result made ih tidy plain
    rw [Filter.forall_nested_cons, Filter.forall_nested_operator] at plain
    obtain ⟨named, behind⟩ := plain
    obtain ⟨together, same⟩ := operatorsOf_spec (β := β) made
    rw [ih (tidy_addOperators tidy together (fieldName_plain named)) behind,
      holds_addOperators tidy together, same, Meaning.ofFilter, Bool.and_assoc]
    rfl
  case and =>
    intro query branches documents rest result _ each ih tidy plain
    rw [Filter.forall_nested_cons, Filter.forall_nested_and] at plain
    obtain ⟨⟨_, inside⟩, behind⟩ := plain
    rw [ih (tidy_addBranches tidy _ _) behind, holds_addBranches_and tidy,
      holds_survivors (branch_holds inside each), Meaning.ofFilter, Bool.and_assoc]
    rfl
  case or =>
    intro query branches documents rest result compiled each ih tidy plain
    rw [Filter.forall_nested_cons, Filter.forall_nested_or] at plain
    obtain ⟨⟨⟨some, whole⟩, inside⟩, behind⟩ := plain
    have filled : documents ≠ [] := by
      rintro rfl
      cases each
      exact some rfl
    have kept : ∀ document ∈ documents, document ≠ [] := by
      rintro document mem rfl
      obtain ⟨branch, within, made⟩ := Filter.branch_of_compiled compiled mem
      exact whole branch within made
    rw [ih (tidy_addBranches tidy _ _) behind, holds_addBranches_or tidy filled kept,
      holds_branches (branch_holds inside each), Meaning.ofFilter, Bool.and_assoc]
    rfl
  case not =>
    intro query inner document rest result each ih tidy plain
    rw [Filter.forall_nested_cons, Filter.forall_nested_not] at plain
    obtain ⟨⟨_, inside⟩, behind⟩ := plain
    have negated : entryHolds β "$nor" (.array [.document document]) =
        !Meaning.ofFilter β mode inner := by
      rw [entryHolds, if_neg (by decide), if_neg (by decide), if_pos rfl, anyHolds, clauseHolds,
        each tidy_nil inside, holds, anyHolds, Bool.true_and, Bool.or_false]
    rw [ih (tidy_addClauses tidy _) behind, holds_addClauses tidy, negated, Meaning.ofFilter,
      Bool.and_assoc]
    rfl

/-- The query of a filter is as true as the filter. -/
theorem query_truth {filter : Filter} {query : Document} (built : ofFilter mode filter = .ok query)
    (plain : ∀ c ∈ Filter.nested filter, Plain mode c) (β : StoredTest → Bool) :
    holds β query = Meaning.ofFilter β mode filter := by
  have whole := addConditions_holds (β := β) built tidy_nil plain
  rw [whole, holds, Bool.true_and]

/-- A second pattern on a field, and an identity under both of its names. -/
theorem query_truth_shared_fields :
    holds (fun | .pattern .. => true | _ => false)
      [("_id", .document [("$ne", .null), ("$eq", .string "x")]),
        ("n", .document [("$regex", .string "b")]),
        ("$and", .array [.document [("n", .document
          [("$regex", .string "^c.*$"), ("$options", .string "i")])]]),
        ("$or", .array [.document [("n", .string "y")]])] =
    Meaning.ofFilter (fun | .pattern .. => true | _ => false) .raw
      [.operator "id" .ne .null, .leaf "_id" (.text "x"), .operator "n" .regex (.text "b"),
        .operator "n" .like (.text "c%"), .or [[.leaf "n" (.text "y")]]] := by
  have built : ofFilter .raw
      [.operator "id" .ne .null, .leaf "_id" (.text "x"), .operator "n" .regex (.text "b"),
        .operator "n" .like (.text "c%"), .or [[.leaf "n" (.text "y")]]] =
      .ok [("_id", .document [("$ne", .null), ("$eq", .string "x")]),
        ("n", .document [("$regex", .string "b")]),
        ("$and", .array [.document [("n", .document
          [("$regex", .string "^c.*$"), ("$options", .string "i")])]]),
        ("$or", .array [.document [("n", .string "y")]])] := rfl
  have plain : ∀ c ∈ Filter.nested
      [.operator "id" .ne .null, .leaf "_id" (.text "x"), .operator "n" .regex (.text "b"),
        .operator "n" .like (.text "c%"), .or [[.leaf "n" (.text "y")]]], Plain .raw c := by
    simp only [Filter.nested, Condition.nested, Filter.nestedBranches, List.append_nil,
      List.cons_append, List.nil_append, List.forall_mem_cons, List.not_mem_nil, false_implies,
      implies_true, and_true, Plain]
    refine ⟨by decide, ⟨by decide, by simp⟩, by decide, by decide,
      ⟨by simp, ?_⟩, ⟨by decide, by simp⟩⟩
    rintro ⟨⟩
  exact query_truth built plain _

end StoreBridge.Query
