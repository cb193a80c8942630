import StoreBridge.Filter.Reader
import StoreBridge.Proofs.Document.Meaning

/-!
Where the tests in a query come from. The store reads a field that is bound to operators as one
test for each of them, and any other field as a test for what it is bound to. The tests of a query
are those of the filter's conditions and no others: operators from conditions with operators, and
equality with the whole value from a value that was given. The one exception is an object whose
first name is that of an operator: it may be bound to its field as it is, and is read as operators.
-/
namespace StoreBridge.Query

structure BoundTest where
  field : String
  operator : String
  operand : Bson
  deriving Repr

namespace BoundTest

def ofOperators (field : String) (operators : Document) : List BoundTest :=
  operators.map fun e => ⟨field, e.1, e.2⟩

mutual

def ofQuery : List (String × Bson) → List BoundTest
  | [] => []
  | (key, value) :: rest => ofEntry key value ++ ofQuery rest

def ofEntry (key : String) : Bson → List BoundTest
  | .array clauses =>
    if key = "$and" ∨ key = "$or" ∨ key = "$nor" then ofClauses clauses
    else [⟨key, "$eq", .array clauses⟩]
  | .document d => if isOperators d then ofOperators key d else [⟨key, "$eq", .document d⟩]
  | value => [⟨key, "$eq", value⟩]

def ofClauses : List Bson → List BoundTest
  | [] => []
  | .document d :: rest => ofQuery d ++ ofClauses rest
  | _ :: rest => ofClauses rest

end

end BoundTest

open BoundTest

/-- The tests that a condition gives by itself, without those inside it. -/
inductive Gives (mode : IdentityMode) : Condition → List BoundTest → Prop where
  | equality (field : String) (value : Value) : Gives mode (.leaf field value)
      [⟨IdentityMode.fieldName field, "$eq", mode.fieldValue field value⟩]
  /-- An object whose first name is that of an operator. -/
  | unwrapped {field key : String} {item : Value} {rest : List (String × Value)}
      {operators : Document} (named : IdentityMode.isOperatorName key)
      (stored : mode.fieldValue field (.object ((key, item) :: rest)) = .document operators) :
      Gives mode (.leaf field (.object ((key, item) :: rest)))
        (ofOperators (IdentityMode.fieldName field) operators)
  | operator {field : String} {op : Operator} {value : Value} {operators : Document}
      (made : operatorsOf mode field op value = .ok operators) :
      Gives mode (.operator field op value) (ofOperators (IdentityMode.fieldName field) operators)
  | and (branches : List (List Condition)) : Gives mode (.and branches) []
  | or (branches : List (List Condition)) : Gives mode (.or branches) []
  | not (inner : List Condition) : Gives mode (.not inner) []

/-- No field has the name of an operator. -/
def FieldsNamed : Condition → Prop
  | .leaf field _ | .operator field _ _ => ¬IdentityMode.isOperatorName field
  | _ => True

/-- What `$and` is bound to can be added to. -/
def Extensible (query : Document) : Prop :=
  ∀ value, query.get? "$and" = some value → ∃ clauses, value = .array clauses

variable {mode : IdentityMode} {query : Document} {key field : String}

/-! Every way to write a condition leaves `$and` bound to an array. -/

theorem extensible_nil : Extensible [] := fun _ there => by simp [Entries.get?] at there

theorem extensible_insert (whole : Extensible query) {value : Bson}
    (array : key = "$and" → ∃ clauses, value = .array clauses) :
    Extensible (query.insert key value) := by
  intro found there
  by_cases same : key = "$and"
  · rw [← same, Entries.get?_insert_self, Option.some.injEq] at there
    rw [← there]
    exact array same
  · rw [Entries.get?_insert_ne _ _ same] at there
    exact whole found there

theorem extensible_insert_array (whole : Extensible query) (clauses : List Bson) :
    Extensible (query.insert key (.array clauses)) :=
  extensible_insert whole fun _ => ⟨clauses, rfl⟩

theorem extensible_insert_field (whole : Extensible query)
    (plain : ¬IdentityMode.isOperatorName field) (value : Bson) :
    Extensible (query.insert field value) := by
  refine extensible_insert whole ?_
  rintro rfl
  exact absurd rfl plain

theorem extensible_appendAnd (whole : Extensible query) (clause : Document) :
    Extensible (appendAnd query clause) := by
  unfold appendAnd
  split <;> exact extensible_insert_array whole _

theorem extensible_addClauses (whole : Extensible query) (clauses : List Bson) :
    Extensible (addClauses query key clauses) := by
  unfold addClauses
  split
  · exact extensible_insert_array whole _
  · split
    · exact extensible_appendAnd whole _
    · exact extensible_insert_array whole _

theorem extensible_addBranches (whole : Extensible query) (branches : List Document) :
    Extensible (addBranches query key branches) := by
  unfold addBranches
  dsimp only
  split
  · exact whole
  · exact extensible_addClauses whole _

theorem extensible_addOperators (whole : Extensible query) (operators : Document)
    (plain : ¬IdentityMode.isOperatorName field) :
    Extensible (addOperators query field operators) := by
  unfold addOperators
  split
  · exact extensible_insert_field whole plain _
  · split
    · exact extensible_insert_field whole plain _
    · exact extensible_appendAnd whole _
  · exact extensible_appendAnd whole _

theorem extensible_addEquality (whole : Extensible query) (value : Bson)
    (plain : ¬IdentityMode.isOperatorName field) :
    Extensible (addEquality query field value) := by
  unfold addEquality
  split
  · exact extensible_insert_field whole plain _
  · split
    · exact extensible_addOperators whole _ plain
    · exact extensible_appendAnd whole _

/-! What each of them adds to the tests. -/

theorem tests_insert_absent (absent : query.get? key = none) (value : Bson) :
    ofQuery (query.insert key value) = ofQuery query ++ ofEntry key value := by
  rw [Entries.insert_absent absent]
  clear absent
  induction query with
  | nil => simp [ofQuery]
  | cons e rest ih => simp only [List.cons_append, ofQuery, ih, List.append_assoc]

theorem tests_insert_present {old value : Bson} {more : List BoundTest}
    (there : query.get? key = some old)
    (grown : ofEntry key value = ofEntry key old ++ more) :
    (ofQuery (query.insert key value)).Perm (ofQuery query ++ more) := by
  induction query with
  | nil => simp [Entries.get?] at there
  | cons e rest ih =>
    by_cases same : e.1 = key
    · simp only [Entries.get?, if_pos same, Option.some.injEq] at there
      subst there same
      simp only [Entries.insert, if_pos, ofQuery, grown, List.append_assoc]
      exact List.perm_append_comm.append_left _
    · simp only [Entries.get?, if_neg same] at there
      simp only [Entries.insert, if_neg same, ofQuery, List.append_assoc]
      exact (ih there).append_left _

theorem tests_clauses_append (left right : List Bson) :
    ofClauses (left ++ right) = ofClauses left ++ ofClauses right := by
  induction left with
  | nil => rfl
  | cons clause rest ih => cases clause <;> simp [ofClauses, ih]

theorem tests_and (clauses : List Bson) : ofEntry "$and" (.array clauses) = ofClauses clauses := by
  rw [ofEntry, if_pos (.inl rfl)]

theorem tests_single (value : Bson) : ofQuery [(key, value)] = ofEntry key value := by
  simp [ofQuery]

theorem tests_appendAnd (whole : Extensible query) (clause : Document) :
    (ofQuery (appendAnd query clause)).Perm (ofQuery query ++ ofQuery clause) := by
  cases there : query.get? "$and" with
  | none =>
    rw [appendAnd, there]
    simp only
    rw [tests_insert_absent there, tests_and]
    simp [ofClauses]
  | some value =>
    obtain ⟨clauses, rfl⟩ := whole value there
    rw [appendAnd, there]
    simp only
    refine tests_insert_present there ?_
    rw [tests_and, tests_and, tests_clauses_append]
    simp [ofClauses]

theorem tests_addClauses (whole : Extensible query) (clauses : List Bson)
    (combination : key = "$and" ∨ key = "$or" ∨ key = "$nor") :
    (ofQuery (addClauses query key clauses)).Perm (ofQuery query ++ ofClauses clauses) := by
  have entry : ofEntry key (.array clauses) = ofClauses clauses := by
    rw [ofEntry, if_pos combination]
  unfold addClauses
  split
  · rename_i existing there
    refine tests_insert_present there ?_
    rw [tests_and, tests_and, tests_clauses_append]
  · split
    · rw [← entry, ← tests_single]
      exact tests_appendAnd whole _
    · rename_i absent
      rw [tests_insert_absent, entry]
      rw [Entries.get?_none_iff, ← Entries.contains_iff]
      exact absent

theorem tests_addBranches (whole : Extensible query) (branches : List Document)
    (combination : key = "$and" ∨ key = "$or" ∨ key = "$nor") :
    (ofQuery (addBranches query key branches)).Perm
      (ofQuery query ++ ofClauses (branches.map .document)) := by
  have survivors : ofClauses ((branches.filter fun branch => !branch.isEmpty).map .document) =
      ofClauses (branches.map .document) := by
    induction branches with
    | nil => rfl
    | cons branch rest ih => cases branch <;> simp [ofClauses, ofQuery, ih]
  rw [← survivors, addBranches]
  cases branches.filter fun branch => !branch.isEmpty with
  | nil => simp [ofClauses]
  | cons first rest => exact tests_addClauses whole _ combination

theorem tests_operators {operators : Document} (named : isOperators operators) :
    ofEntry field (.document operators) = ofOperators field operators := by
  rw [ofEntry, if_pos named]

theorem tests_addOperators (whole : Extensible query) {operators : Document}
    (together : Together operators) :
    (ofQuery (addOperators query field operators)).Perm
      (ofQuery query ++ ofOperators field operators) := by
  have beside : (ofQuery (appendAnd query [(field, .document operators)])).Perm
      (ofQuery query ++ ofOperators field operators) := by
    rw [← tests_operators together.named, ← tests_single]
    exact tests_appendAnd whole _
  unfold addOperators
  split
  · rename_i absent
    rw [tests_insert_absent absent, tests_operators together.named]
  · rename_i existing there
    split
    · rename_i joins
      rw [Bool.and_eq_true] at joins
      obtain ⟨named, free⟩ := joins
      refine tests_insert_present there ?_
      rw [(merge_together together free).2, tests_operators (isOperators_append named operators),
        tests_operators named]
      exact List.map_append
    · exact beside
  · exact beside

theorem tests_addEquality (whole : Extensible query) (value : Bson) :
    (ofQuery (addEquality query field value)).Perm (ofQuery query ++ ofEntry field value) ∨
      (ofQuery (addEquality query field value)).Perm
        (ofQuery query ++ [⟨field, "$eq", value⟩]) := by
  unfold addEquality
  split
  · rename_i absent
    rw [tests_insert_absent absent]
    exact .inl (.refl _)
  · split
    · exact .inr (tests_addOperators whole (together_eq value))
    · rw [← tests_single]
      exact .inl (tests_appendAnd whole _)

theorem tests_value {value : Bson} (plain : ¬IdentityMode.isOperatorName field)
    (literal : ¬isOperatorValue value) : ofEntry field value = [⟨field, "$eq", value⟩] := by
  have other : ∀ name, IdentityMode.isOperatorName name → field ≠ name := by
    rintro name named rfl
    exact plain named
  cases value with
  | array clauses =>
    rw [ofEntry, if_neg]
    rintro (same | same | same)
    · exact other "$and" rfl same
    · exact other "$or" rfl same
    · exact other "$nor" rfl same
  | document d =>
    rw [ofEntry, if_neg]
    exact literal
  | _ => rfl

/-- Only an object whose first name is that of an operator is read as operators. -/
theorem leaf_gives {value : Value} (plain : ¬IdentityMode.isOperatorName field) :
    Gives mode (.leaf field value)
      (ofEntry (IdentityMode.fieldName field) (mode.fieldValue field value)) := by
  by_cases read : isOperatorValue (mode.fieldValue field value)
  · have object : ∃ key item rest, value = .object ((key, item) :: rest) ∧
        IdentityMode.isOperatorName key := by
      by_contra other
      have literal : ¬isOperatorValue (mode.fieldValue field value) :=
        stored_literal fun key item rest same named => other ⟨key, item, rest, same, named⟩
      exact literal read
    obtain ⟨key, item, rest, rfl, named⟩ := object
    cases stored : mode.fieldValue field (.object ((key, item) :: rest)) with
    | document operators =>
      rw [stored] at read
      rw [tests_operators read]
      exact .unwrapped named stored
    | _ => simp [stored, isOperatorValue] at read
  · rw [tests_value (fieldName_plain plain) read]
    exact .equality field value

/-- The tests of `after` are those of `before` and those that the filter gives. -/
def Accounted (mode : IdentityMode) (filter : List Condition) (before after : Document) : Prop :=
  ∃ given, List.Forall₂ (Gives mode) (Filter.nested filter) given ∧
    (ofQuery after).Perm (ofQuery before ++ given.flatten)

theorem accounted_cons {condition : Condition} {rest : List Condition} {next result : Document}
    {front : List (List BoundTest)} (own : List.Forall₂ (Gives mode) condition.nested front)
    (written : (ofQuery next).Perm (ofQuery query ++ front.flatten))
    (later : Accounted mode rest next result) :
    Accounted mode (condition :: rest) query result := by
  obtain ⟨behind, others, same⟩ := later
  refine ⟨front ++ behind, List.rel_append own others, ?_⟩
  rw [List.flatten_append, ← List.append_assoc]
  exact same.trans (written.append_right _)

theorem branches_accounted {branches : List (List Condition)} {documents : List Document}
    (each : List.Forall₂ (fun branch document => Accounted mode branch [] document)
      branches documents) :
    ∃ given, List.Forall₂ (Gives mode) (Filter.nestedBranches branches) given ∧
      (ofClauses (documents.map .document)).Perm given.flatten := by
  induction each with
  | nil => exact ⟨[], .nil, .refl _⟩
  | cons first _ ih =>
    obtain ⟨front, inside, same⟩ := first
    obtain ⟨behind, others, rest⟩ := ih
    refine ⟨front ++ behind, List.rel_append inside others, ?_⟩
    rw [List.flatten_append]
    exact same.append rest

/-- A filter adds the tests of its conditions to those of the query it is written into. -/
theorem addConditions_accounted {result : Document} {filter : List Condition}
    (built : addConditions mode query filter = .ok result) (whole : Extensible query)
    (named : ∀ c ∈ Filter.nested filter, FieldsNamed c) : Accounted mode filter query result := by
  have inside_given {branches : List (List Condition)} {documents : List Document}
      (inside : ∀ branch ∈ branches, ∀ c ∈ Filter.nested branch, FieldsNamed c)
      (each : List.Forall₂ (fun branch document => Extensible [] →
        (∀ c ∈ Filter.nested branch, FieldsNamed c) → Accounted mode branch [] document)
        branches documents) :=
    branches_accounted (((List.forall₂_and_left branches documents).mpr ⟨inside, each⟩).imp
      fun _ _ pair => pair.2 extensible_nil pair.1)
  refine compiled_induct (motive := fun query filter result => Extensible query →
    (∀ c ∈ Filter.nested filter, FieldsNamed c) → Accounted mode filter query result)
    ?nil ?leaf ?operator ?and ?or ?not built whole named
  case nil =>
    intro query _ _
    exact ⟨[], .nil, by simp⟩
  case leaf =>
    intro query field value rest result ih whole named
    rw [Filter.forall_nested_cons, Filter.forall_nested_leaf] at named
    obtain ⟨plain, behind⟩ := named
    have later := ih (extensible_addEquality whole _ (fieldName_plain plain)) behind
    rcases tests_addEquality whole (mode.fieldValue field value) with bound | joined
    · exact accounted_cons (.cons (leaf_gives plain) .nil) (by simpa using bound) later
    · exact accounted_cons (.cons (.equality field value) .nil) (by simpa using joined) later
  case operator =>
    intro query field op value operators rest result made ih whole named
    rw [Filter.forall_nested_cons, Filter.forall_nested_operator] at named
    obtain ⟨plain, behind⟩ := named
    have together := (operatorsOf_spec (β := fun _ => true) made).1
    have written : (ofQuery (addOperators query (IdentityMode.fieldName field) operators)).Perm
        (ofQuery query ++ ofOperators (IdentityMode.fieldName field) operators) :=
      tests_addOperators whole together
    exact accounted_cons (.cons (.operator made) .nil) (by simpa using written)
      (ih (extensible_addOperators whole operators (fieldName_plain plain)) behind)
  case and =>
    intro query branches documents rest result _ each ih whole named
    rw [Filter.forall_nested_cons, Filter.forall_nested_and] at named
    obtain ⟨⟨_, inside⟩, behind⟩ := named
    obtain ⟨given, gives, same⟩ := inside_given inside each
    have written := (tests_addBranches whole documents (.inl rfl)).trans (same.append_left _)
    exact accounted_cons (.cons (.and branches) gives) written
      (ih (extensible_addBranches whole documents) behind)
  case or =>
    intro query branches documents rest result _ each ih whole named
    rw [Filter.forall_nested_cons, Filter.forall_nested_or] at named
    obtain ⟨⟨_, inside⟩, behind⟩ := named
    obtain ⟨given, gives, same⟩ := inside_given inside each
    have written := (tests_addBranches whole documents (.inr (.inl rfl))).trans
      (same.append_left _)
    exact accounted_cons (.cons (.or branches) gives) written
      (ih (extensible_addBranches whole documents) behind)
  case not =>
    intro query inner document rest result each ih whole named
    rw [Filter.forall_nested_cons, Filter.forall_nested_not] at named
    obtain ⟨⟨_, inside⟩, behind⟩ := named
    obtain ⟨given, gives, same⟩ := each extensible_nil inside
    have clause : (ofClauses [.document document]).Perm given.flatten := by
      simpa [ofClauses, ofQuery] using same
    have written := (tests_addClauses whole _ (.inr (.inr rfl))).trans (clause.append_left _)
    exact accounted_cons (.cons (.not inner) gives) written
      (ih (extensible_addClauses whole _) behind)

/-- The tests in a query are those that the conditions of its filter give, each of them once. -/
theorem tests_given {filter : Filter} {query : Document}
    (built : ofFilter mode filter = .ok query)
    (named : ∀ c ∈ Filter.nested filter, FieldsNamed c) :
    ∃ given, List.Forall₂ (Gives mode) (Filter.nested filter) given ∧
      (ofQuery query).Perm given.flatten :=
  addConditions_accounted built extensible_nil named

/-- A value behind an operator joins it, an object with a later operator's name stays whole, and
    one that begins with such a name does not. -/
theorem tests_given_objects :
    ∃ given, List.Forall₂ (Gives .raw) (Filter.nested
      [.operator "a" .ne .null, .leaf "a" (.object [("$gt", .int 5)]),
        .or [[.leaf "b" (.object [("x", .int 1), ("$gt", .int 5)])],
          [.leaf "b" (.object [("$gt", .int 5), ("x", .int 1)])]]]) given ∧
    (ofQuery [("a", .document [("$ne", .null), ("$eq", .document [("$gt", .int32 5)])]),
      ("$or", .array [.document [("b", .document [("x", .int32 1), ("$gt", .int32 5)])],
        .document [("b", .document [("$gt", .int32 5), ("x", .int32 1)])]])]).Perm
      given.flatten := by
  have built : ofFilter .raw [.operator "a" .ne .null, .leaf "a" (.object [("$gt", .int 5)]),
        .or [[.leaf "b" (.object [("x", .int 1), ("$gt", .int 5)])],
          [.leaf "b" (.object [("$gt", .int 5), ("x", .int 1)])]]] =
      .ok [("a", .document [("$ne", .null), ("$eq", .document [("$gt", .int32 5)])]),
        ("$or", .array [.document [("b", .document [("x", .int32 1), ("$gt", .int32 5)])],
          .document [("b", .document [("$gt", .int32 5), ("x", .int32 1)])]])] := rfl
  refine tests_given built ?_
  simp only [Filter.nested, Condition.nested, Filter.nestedBranches, List.append_nil,
    List.cons_append, List.nil_append, List.forall_mem_cons, List.not_mem_nil, false_implies,
    implies_true, and_true, FieldsNamed, true_and]
  decide

/-- A value that was given as data, in JSON and with no operator among the conditions, is read as
    operators: nothing asks the field to equal it. -/
theorem object_read_as_operators :
    Filter.ofJson (.object [("a", .object [("$gt", .integer 5), ("x", .integer 1)])]) =
      .ok [.leaf "a" (.object [("$gt", .int 5), ("x", .int 1)])] ∧
    ∃ query, ofFilter .raw [.leaf "a" (.object [("$gt", .int 5), ("x", .int 1)])] = .ok query ∧
      ofQuery query = [⟨"a", "$gt", .int32 5⟩, ⟨"a", "x", .int32 1⟩] ∧
      ⟨"a", "$eq", IdentityMode.raw.fieldValue "a" (.object [("$gt", .int 5), ("x", .int 1)])⟩ ∉
        ofQuery query := by
  refine ⟨rfl, [("a", .document [("$gt", .int32 5), ("x", .int32 1)])], rfl, rfl, ?_⟩
  have read : ofQuery [("a", .document [("$gt", .int32 5), ("x", .int32 1)])] =
      [⟨"a", "$gt", .int32 5⟩, ⟨"a", "x", .int32 1⟩] := rfl
  simp [read]

end StoreBridge.Query
