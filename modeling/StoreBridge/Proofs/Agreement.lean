import StoreBridge.Proofs.Document.Meaning
import StoreBridge.Proofs.Sql.Posed

/-!
One filter in PostgreSQL and in the document store. The clause and the query ask the same questions
under the same connectives: both lose exactly the branches that ask for nothing, at every depth.
Nothing is assumed of the combinations here, which may be empty or have empty branches.
-/
namespace StoreBridge

/-- Names are names, and a value that a field shall equal is no set of operators. -/
def Condition.Literal : Condition → Prop
  | .leaf field value => ¬IdentityMode.isOperatorName field ∧
      ∀ key item rest, value = .object ((key, item) :: rest) → ¬IdentityMode.isOperatorName key
  | .operator field _ _ => ¬IdentityMode.isOperatorName field
  | .and _ | .or _ | .not _ => True

def Question.stored (β : StoredTest → Bool) (mode : IdentityMode) (q : Question) : Truth :=
  .ofBool (Query.Meaning.ofOperator β mode q.field q.op q.value)

theorem Question.idle_postgres : Question.idle .postgres = List.isEmpty := by
  funext asked
  unfold Question.idle
  split
  · rfl
  · rename_i q
    have tested : q.isTested .postgres = true := by
      unfold Question.isTested
      split <;> rfl
    simp [tested]
  · rename_i other _
    cases asked with
    | nil => exact absurd rfl other
    | cons => rfl

namespace Query
variable {β : StoredTest → Bool} {mode : IdentityMode} {query result : Document}
  {filter : List Condition}

abbrev asked (filter : List Condition) : List (Formula Question) :=
  Filter.posed List.isEmpty filter

abbrev Says (β : StoredTest → Bool) (mode : IdentityMode) (document : Document)
    (part : Formula Question) : Prop :=
  Truth.ofBool (holds β document) = part.truth (·.stored β mode)

theorem addBranches_eq_nil_iff {key : String} {documents : List Document} :
    addBranches query key documents = [] ↔ query = [] ∧ ∀ document ∈ documents, document = [] := by
  refine ⟨addBranches_eq_nil, ?_⟩
  rintro ⟨rfl, empty⟩
  have none : (documents.filter fun document => !document.isEmpty) = [] := by
    simpa [List.filter_eq_nil_iff] using empty
  simp [addBranches, none]

theorem empty_together {branches : List (List Condition)} {documents : List Document}
    (each : List.Forall₂ (fun branch document => document = [] ↔ asked branch = [])
      branches documents) :
    (∀ document ∈ documents, document = []) ↔ ∀ branch ∈ branches, asked branch = [] := by
  induction each with
  | nil => simp
  | cons first _ ih => rw [List.forall_mem_cons, List.forall_mem_cons, first, ih]

theorem addConditions_eq_nil_iff (built : addConditions mode query filter = .ok result) :
    result = [] ↔ query = [] ∧ asked filter = [] := by
  refine compiled_induct (motive := fun query filter result =>
    result = [] ↔ query = [] ∧ asked filter = [])
    ?nil ?leaf ?operator ?and ?or ?not built
  case nil => exact fun query => (and_iff_left rfl).symm
  case leaf =>
    intro query field value rest result ih
    rw [ih]
    simp [addEquality_ne_nil, Filter.posed, Condition.posed]
  case operator =>
    intro query field op value operators rest result _ ih
    rw [ih]
    simp [addOperators_ne_nil, Filter.posed, Condition.posed]
  case and | or =>
    intro query branches documents rest result _ each ih
    have lost := empty_together (each.imp fun _ _ same => by simpa using same)
    simp only [ih, addBranches_eq_nil_iff, lost, Filter.posed, Condition.posed,
      List.append_eq_nil_iff, Filter.combined_eq_nil, Filter.posedBranches_eq, List.forall_mem_map,
      List.isEmpty_iff, and_assoc]
  case not =>
    intro query inner document rest result _ ih
    rw [ih]
    simp [addClauses_ne_nil, Filter.posed, Condition.posed]

theorem addBranches_truth {key : String} {join : List (Formula Question) → Formula Question}
    (reads : ∀ {documents : List Document} {parts : List (Formula Question)},
      List.Forall₂ (Says β mode) documents parts →
      Truth.ofBool (entryHolds β key (.array (documents.map .document))) =
        (join parts).truth (·.stored β mode))
    (tidy : Tidy query) {branches : List (List Condition)} {documents : List Document}
    (each : List.Forall₂ (fun branch document => (document = [] ↔ asked branch = []) ∧
      Says β mode document (.all (asked branch))) branches documents) :
    Truth.ofBool (holds β (addBranches query key documents)) =
      (Truth.ofBool (holds β query)).and
        ((Formula.all (Filter.combined List.isEmpty join
          (Filter.posedBranches List.isEmpty branches))).truth (·.stored β mode)) := by
  have kept : List.Forall₂ (fun document part => Says β mode document (.all part))
      (documents.filter fun document => !document.isEmpty)
      ((branches.map asked).filter fun part => !part.isEmpty) := by
    have flipped : List.Forall₂ (fun document part => (document = [] ↔ part = []) ∧
        Says β mode document (.all part)) documents (branches.map asked) := by
      rw [List.forall₂_map_right_iff]
      exact each.flip
    have both := List.rel_filter (p := fun document : Document => !document.isEmpty)
      (q := fun part : List (Formula Question) => !part.isEmpty)
      (fun _ _ same => by simpa using not_congr same.1) flipped
    exact both.imp fun _ _ same => same.2
  rw [holds_addBranches tidy, Truth.ofBool_and, Filter.posedBranches_eq, Filter.combined]
  generalize (documents.filter fun document => !document.isEmpty) = left at kept ⊢
  generalize ((branches.map asked).filter fun part => !part.isEmpty) = right at kept ⊢
  cases kept with
  | nil => rfl
  | cons first later =>
    simp only [List.isEmpty_cons, Bool.false_or, Bool.false_eq_true, if_false]
    rw [reads (List.forall₂_map_right_iff.mpr (.cons first later))]
    rfl

theorem allHold_truth {documents : List Document} {parts : List (Formula Question)}
    (each : List.Forall₂ (Says β mode) documents parts) :
    Truth.ofBool (entryHolds β "$and" (.array (documents.map .document))) =
      (Formula.all parts).truth (·.stored β mode) := by
  rw [entryHolds_and]
  induction each with
  | nil => rfl
  | cons first _ ih =>
    rw [List.map_cons, allHold, clauseHolds, Truth.ofBool_and, first, ih, Formula.truth_all_cons]

theorem anyHolds_truth {documents : List Document} {parts : List (Formula Question)}
    (each : List.Forall₂ (Says β mode) documents parts) :
    Truth.ofBool (entryHolds β "$or" (.array (documents.map .document))) =
      (Formula.any parts).truth (·.stored β mode) := by
  rw [entryHolds, if_neg (by decide), if_pos rfl]
  induction each with
  | nil => rfl
  | cons first _ ih =>
    rw [List.map_cons, anyHolds, clauseHolds, Truth.ofBool_or, first, ih, Formula.truth_any_cons]

theorem branches_truth {branches : List (List Condition)} {documents : List Document}
    (compiled : List.Forall₂ (fun branch document => addConditions mode [] branch = .ok document)
      branches documents)
    (inside : ∀ branch ∈ branches, ∀ c ∈ Filter.nested branch, c.Literal)
    (each : List.Forall₂ (fun branch document => Tidy [] →
      (∀ c ∈ Filter.nested branch, c.Literal) →
      Truth.ofBool (holds β document) = (Truth.ofBool (holds β [])).and
        ((Formula.all (asked branch)).truth (·.stored β mode))) branches documents) :
    List.Forall₂ (fun branch document => (document = [] ↔ asked branch = []) ∧
      Says β mode document (.all (asked branch))) branches documents := by
  induction compiled with
  | nil => exact .nil
  | cons made _ ih =>
    cases each with
    | cons first later =>
      rw [List.forall_mem_cons] at inside
      refine .cons ⟨?_, ?_⟩ (ih inside.2 later)
      · simpa using addConditions_eq_nil_iff made
      · exact (first tidy_nil inside.1).trans (Truth.true_and _)

/-- What a filter adds to a query is the truth of what is left of the filter. -/
theorem addConditions_truth (built : addConditions mode query filter = .ok result)
    (tidy : Tidy query) (literal : ∀ c ∈ Filter.nested filter, c.Literal) :
    Truth.ofBool (holds β result) = (Truth.ofBool (holds β query)).and
      ((Formula.all (asked filter)).truth (·.stored β mode)) := by
  -- Each condition is written into the query of those before it, which stays tidy.
  refine compiled_induct (motive := fun query filter result => Tidy query →
    (∀ c ∈ Filter.nested filter, c.Literal) →
    Truth.ofBool (holds β result) = (Truth.ofBool (holds β query)).and
      ((Formula.all (asked filter)).truth (·.stored β mode)))
    ?nil ?leaf ?operator ?and ?or ?not built tidy literal
  case nil => exact fun query _ _ => (Truth.and_true _).symm
  case leaf =>
    intro query field value rest result ih tidy literal
    rw [Filter.forall_nested_cons, Filter.forall_nested_leaf] at literal
    obtain ⟨⟨plain, object⟩, behind⟩ := literal
    have named := fieldName_plain plain
    have whole : ¬isOperatorValue (mode.fieldValue field value) := stored_literal object
    have put : asked (.leaf field value :: rest) = .test ⟨field, .eq, value⟩ :: asked rest := rfl
    rw [ih (tidy_addEquality tidy named whole) behind, holds_addEquality tidy named whole,
      Truth.ofBool_and, Truth.and_assoc, put, Formula.truth_all_cons]
    rfl
  case operator =>
    intro query field op value operators rest result made ih tidy literal
    rw [Filter.forall_nested_cons, Filter.forall_nested_operator] at literal
    obtain ⟨plain, behind⟩ := literal
    obtain ⟨together, same⟩ := operatorsOf_spec (β := β) made
    have put : asked (.operator field op value :: rest) = .test ⟨field, op, value⟩ :: asked rest :=
      rfl
    rw [ih (tidy_addOperators tidy together (fieldName_plain plain)) behind,
      holds_addOperators tidy together, same, Truth.ofBool_and, Truth.and_assoc, put,
      Formula.truth_all_cons]
    rfl
  case and =>
    intro query branches documents rest result compiled each ih tidy literal
    rw [Filter.forall_nested_cons, Filter.forall_nested_and] at literal
    obtain ⟨⟨_, inside⟩, behind⟩ := literal
    rw [ih (tidy_addBranches tidy _ _) behind,
      addBranches_truth allHold_truth tidy (branches_truth compiled inside each),
      Truth.and_assoc, ← Formula.truth_all_append]
    rfl
  case or =>
    intro query branches documents rest result compiled each ih tidy literal
    rw [Filter.forall_nested_cons, Filter.forall_nested_or] at literal
    obtain ⟨⟨_, inside⟩, behind⟩ := literal
    rw [ih (tidy_addBranches tidy _ _) behind,
      addBranches_truth anyHolds_truth tidy (branches_truth compiled inside each),
      Truth.and_assoc, ← Formula.truth_all_append]
    rfl
  case not =>
    intro query inner document rest result each ih tidy literal
    rw [Filter.forall_nested_cons, Filter.forall_nested_not] at literal
    obtain ⟨⟨_, inside⟩, behind⟩ := literal
    have denied : Truth.ofBool (entryHolds β "$nor" (.array [.document document])) =
        ((Formula.all (asked inner)).truth (·.stored β mode)).not := by
      have own := each tidy_nil inside
      rw [entryHolds, if_neg (by decide), if_neg (by decide), if_pos rfl, anyHolds, clauseHolds,
        anyHolds, Bool.or_false, Truth.ofBool_not, own]
      exact congrArg Truth.not (Truth.true_and _)
    have put : asked (.not inner :: rest) = .not (.all (asked inner)) :: asked rest := rfl
    rw [ih (tidy_addClauses tidy _) behind, holds_addClauses tidy, Truth.ofBool_and, denied,
      Truth.and_assoc, put, Formula.truth_all_cons]
    rfl

end Query

/-- A filter that both accept is one formula over its questions, in the text of its clause as in
    its query. -/
theorem clause_agrees_with_query {mode : IdentityMode} {filter : Filter} {clause : Sql.Clause}
    {query : Document} (built : Sql.Clause.ofFilter .postgres filter = .ok clause)
    (made : Query.ofFilter mode filter = .ok query)
    (literal : ∀ c ∈ Filter.nested filter, c.Literal) (start : Nat) :
    ∃ posed, clause.Poses .postgres start filter posed ∧
      ∀ β : StoredTest → Bool,
        posed.truth (·.stored β mode) = Truth.ofBool (Query.holds β query) := by
  refine ⟨_, Sql.Clause.text_poses built start, fun β => ?_⟩
  have whole := Query.addConditions_truth (β := β) made Query.tidy_nil literal
  rw [Question.idle_postgres, whole]
  exact (Truth.true_and _).symm

/-- Empty combinations, a NOT of nothing, and a field under both of its names. -/
theorem clause_agrees_with_query_empty_branches :
    ∃ posed, Sql.Clause.Poses .postgres 4
        [.or [[], [.leaf "id" (.int 7)], [.and [[], [.or []]]]], .not [],
          .operator "_id" .between (.array [.int 1, .int 9]), .or [[.operator "_id" .ne .null]]]
        [.group .or [[.compare "id" .eq (.int 7)]], .not [],
          .between "_id" (.int 1) (.int 9), .group .or [[.null "_id" true]]] posed ∧
      ∀ β : StoredTest → Bool, posed.truth (·.stored β .raw) = Truth.ofBool (Query.holds β
        [("$or", .array [.document [("_id", .int32 7)]]), ("$nor", .array [.document []]),
          ("_id", .document [("$gte", .int32 1), ("$lte", .int32 9)]),
          ("$and", .array [.document [("$or", .array [.document
            [("_id", .document [("$ne", .null)])]])]])]) := by
  have literal : ∀ c ∈ Filter.nested
      [.or [[], [.leaf "id" (.int 7)], [.and [[], [.or []]]]], .not [],
        .operator "_id" .between (.array [.int 1, .int 9]), .or [[.operator "_id" .ne .null]]],
      c.Literal := by
    simp only [Filter.nested, Condition.nested, Filter.nestedBranches, List.append_nil,
      List.cons_append, List.nil_append, List.forall_mem_cons, List.not_mem_nil,
      Condition.Literal, true_and, and_true, false_implies, implies_true]
    refine ⟨⟨by decide, ?_⟩, by decide, by decide⟩
    rintro key item rest ⟨⟩
  have made : Query.ofFilter .raw
      [.or [[], [.leaf "id" (.int 7)], [.and [[], [.or []]]]], .not [],
        .operator "_id" .between (.array [.int 1, .int 9]), .or [[.operator "_id" .ne .null]]] =
      .ok _ := rfl
  exact clause_agrees_with_query rfl made literal 4

end StoreBridge
