import StoreBridge.Proofs.Document.Compilation
import StoreBridge.Proofs.Sql.Acceptance

/-!
Which filters SQL and the document store accept. Both look at the operand of every operator, at
every depth and in branches that they leave out later, and both ask the same shapes; SQL has no
regular expressions. All that fails fails as what cannot be compiled.
-/
namespace StoreBridge

namespace Sql.Clause
variable {d : Dialect} {filter : Filter}

theorem takes_iff {op : Operator} {value : Value} :
    op.takes value ↔ op.Fits value ∧ op ≠ .regex := by
  cases op with
  | eq | ne | gt | gte | lt | lte | regex => simp [Operator.takes, Operator.Fits]
  | isIn | notIn => cases value <;> simp [Operator.takes, Operator.Fits, Value.items?]
  | like | ilike => cases value <;> simp [Operator.takes, Operator.Fits, Value.text?]
  | «exists» => cases value <;> simp [Operator.takes, Operator.Fits, Value.bool?]
  | between =>
    rw [Operator.takes.eq_def]
    split <;> simp_all [Operator.Fits]

theorem ofFilter_ok_iff (sql : d.isSql) :
    (∃ clause, ofFilter d filter = .ok clause) ↔
      ∀ field op value, .operator field op value ∈ Filter.nested filter →
        op.Fits value ∧ op ≠ .regex := by
  rw [← Filter.forall_questions (P := fun op value => op.Fits value ∧ op ≠ .regex)
    fun _ => ⟨trivial, by decide⟩]
  simp only [ofFilter_ok, sql, true_and, ofConditions_ok_iff, takes_iff]

theorem ofOperator_refuses {field : String} {op : Operator} {value : Value} {error : Error}
    (failed : ofOperator d field op value = .error error) :
    ∃ cause, error = .uncompilable cause := by
  cases op with
  | eq | ne => simp only [ofOperator] at failed; split at failed <;> cases failed
  | gt | gte | lt | lte => cases failed
  | isIn | notIn | like | ilike | «exists» => cases value <;> cases failed <;> exact ⟨_, rfl⟩
  | between => simp only [ofOperator] at failed; split at failed <;> cases failed; exact ⟨_, rfl⟩
  | regex => cases failed; exact ⟨_, rfl⟩

theorem ofFilter_refuses {error : Error} (failed : ofFilter d filter = .error error) :
    ∃ cause, error = .uncompilable cause := by
  unfold ofFilter at failed
  split at failed
  · have first := failure?_eq_some.mpr failed
    rw [ofConditions_failure] at first
    obtain ⟨q, _, refused⟩ := List.exists_of_findSome?_eq_some first
    exact ofOperator_refuses (failure?_eq_some.mp refused)
  · cases failed
    exact ⟨_, rfl⟩

end Sql.Clause

namespace Query
variable {mode : IdentityMode} {filter : Filter}

theorem addConditions_cons_failure {later : Option Error} (query : Document)
    (condition : Condition) {rest : List Condition}
    (alike : ∀ query, failure? (addConditions mode query rest) = later) :
    failure? (addConditions mode query (condition :: rest)) =
      (failure? (addCondition mode query condition)).or later := by
  rw [addConditions]
  exact failure?_bind alike

theorem branchesOf_failure {branches : List (List Condition)} {refused : Question → Option Error}
    (each : ∀ branch ∈ branches, ∀ query,
      failure? (addConditions mode query branch) = (Filter.questions branch).findSome? refused) :
    failure? (branchesOf mode branches) = (Filter.branchQuestions branches).findSome? refused := by
  induction branches with
  | nil => rfl
  | cons branch rest ih =>
    rw [List.forall_mem_cons] at each
    rw [branchesOf, Filter.branchQuestions, List.findSome?_append, ← each.1 [], ← ih each.2]
    refine failure?_bind fun first => ?_
    exact failure?_bind_ok fun _ => rfl

theorem addConditions_failure (mode : IdentityMode) (query : Document) (filter : List Condition) :
    failure? (addConditions mode query filter) =
      (Filter.questions filter).findSome? fun q =>
        failure? (operatorsOf mode q.field q.op q.value) := by
  induction filter using Filter.induct generalizing query with
  | nil => rfl
  | leaf field value rest ih =>
    have equality : failure? (operatorsOf mode field .eq value) = none := rfl
    have written : failure? (addCondition mode query (.leaf field value)) = none := rfl
    rw [addConditions_cons_failure query _ ih, Filter.questions, List.findSome?_append, written]
    simp [Condition.questions, equality]
  | operator field op value rest ih =>
    rw [addConditions_cons_failure query _ ih, Filter.questions, List.findSome?_append,
      addCondition, failure?_map]
    simp [Condition.questions]
  | and branches rest each ih | or branches rest each ih =>
    rw [addConditions_cons_failure query _ ih, Filter.questions, List.findSome?_append,
      addCondition, failure?_map, branchesOf_failure each, Condition.questions]
  | not inner rest each ih =>
    rw [addConditions_cons_failure query _ ih, Filter.questions, List.findSome?_append,
      addCondition, failure?_map, each, Condition.questions]

theorem operatorsOf_ok_iff {field : String} {op : Operator} {value : Value} :
    (∃ operators, operatorsOf mode field op value = .ok operators) ↔ op.Fits value := by
  cases op with
  | eq | ne | gt | gte | lt | lte => simp [operatorsOf, Operator.Fits]
  | isIn | notIn | like | ilike | regex | «exists» =>
    cases value <;> simp [operatorsOf, Operator.Fits, refuse]
  | between =>
    simp only [operatorsOf, Operator.Fits]
    split <;> simp_all [refuse]

theorem ofFilter_ok_iff :
    (∃ query, ofFilter mode filter = .ok query) ↔
      ∀ field op value, .operator field op value ∈ Filter.nested filter → op.Fits value := by
  rw [← Filter.forall_questions fun _ => trivial, ← failure?_eq_none, ofFilter,
    addConditions_failure, List.findSome?_eq_none_iff]
  simp only [failure?_eq_none, operatorsOf_ok_iff]

theorem operatorsOf_refuses {field : String} {op : Operator} {value : Value} {error : Error}
    (failed : operatorsOf mode field op value = .error error) :
    ∃ cause, error = .uncompilable cause := by
  cases op with
  | eq | ne | gt | gte | lt | lte => cases failed
  | isIn | notIn | like | ilike | regex | «exists» =>
    cases value <;> cases failed <;> exact ⟨_, rfl⟩
  | between => simp only [operatorsOf] at failed; split at failed <;> cases failed; exact ⟨_, rfl⟩

theorem ofFilter_refuses {error : Error} (failed : ofFilter mode filter = .error error) :
    ∃ cause, error = .uncompilable cause := by
  have first := failure?_eq_some.mpr failed
  rw [ofFilter, addConditions_failure] at first
  obtain ⟨q, _, refused⟩ := List.exists_of_findSome?_eq_some first
  exact operatorsOf_refuses (failure?_eq_some.mp refused)

end Query

/-- A filter is accepted for the shapes of its operands: in SQL, whatever the dialect and the number
    of the first parameter, if every operator inside it has an operand of its shape and none is a
    regular expression; in the document store if every operator has an operand of its shape. -/
theorem compilers_accept (filter : Filter) :
    (∀ (d : Dialect) (index : Nat), d.isSql →
      ((∃ text, (Sql.Clause.ofFilter d filter).map (fun clause => clause.text d index) = .ok text) ↔
        ∀ field op value, .operator field op value ∈ Filter.nested filter →
          op.Fits value ∧ op ≠ .regex)) ∧
    (∀ mode : IdentityMode,
      (∃ query, Query.ofFilter mode filter = .ok query) ↔
        ∀ field op value, .operator field op value ∈ Filter.nested filter → op.Fits value) ∧
    (∀ d mode, (∃ clause, Sql.Clause.ofFilter d filter = .ok clause) →
      ∃ query, Query.ofFilter mode filter = .ok query) ∧
    (∀ d error, Sql.Clause.ofFilter d filter = .error error →
      ∃ cause, error = .uncompilable cause) ∧
    ∀ mode error, Query.ofFilter mode filter = .error error →
      ∃ cause, error = .uncompilable cause := by
  refine ⟨?_, ?_, ?_, ?_, ?_⟩
  · intro d index sql
    rw [← Sql.Clause.ofFilter_ok_iff sql, ← failure?_eq_none, failure?_map, failure?_eq_none]
  · intro mode
    exact Query.ofFilter_ok_iff
  · rintro d mode ⟨clause, built⟩
    have fits := (Sql.Clause.ofFilter_ok_iff (Sql.Clause.ofFilter_ok.mp built).1).mp ⟨_, built⟩
    exact Query.ofFilter_ok_iff.mpr fun field op value mem => (fits field op value mem).1
  · intro d error failed
    exact Sql.Clause.ofFilter_refuses failed
  · intro mode error failed
    exact Query.ofFilter_refuses failed

/-- A regular expression is refused also in a branch beside one that is left out, and an operand
    that is no list also in a group without any other condition. -/
theorem compilers_accept_left_out :
    (¬∃ text, (Sql.Clause.ofFilter .sqlite [.or [[], [.operator "a" .regex (.text "x")]]]).map
      (fun clause => clause.text .sqlite 7) = .ok text) ∧
    (∃ query, Query.ofFilter .raw [.or [[], [.operator "a" .regex (.text "x")]]] = .ok query) ∧
    ¬∃ query, Query.ofFilter .objectId [.and [[], [.operator "a" .notIn .null]]] = .ok query := by
  obtain ⟨sql, document, _⟩ := compilers_accept [.or [[], [.operator "a" .regex (.text "x")]]]
  obtain ⟨_, other, _⟩ := compilers_accept [.and [[], [.operator "a" .notIn .null]]]
  refine ⟨?_, ?_, ?_⟩
  · rw [sql .sqlite 7 rfl]
    intro all
    have inside := all "a" .regex (.text "x")
    exact (inside (by simp [Filter.nested, Condition.nested, Filter.nestedBranches])).2 rfl
  · rw [document .raw]
    intro field op value mem
    obtain ⟨rfl, rfl, rfl⟩ : field = "a" ∧ op = .regex ∧ value = .text "x" := by
      simpa [Filter.nested, Condition.nested, Filter.nestedBranches] using mem
    exact ⟨"x", rfl⟩
  · rw [other .objectId]
    intro all
    have inside := all "a" .notIn .null
    obtain ⟨items, wrong⟩ :=
      inside (by simp [Filter.nested, Condition.nested, Filter.nestedBranches])
    cases wrong

end StoreBridge
