import StoreBridge.Proofs.Filter.Refusals
import StoreBridge.Proofs.Sql.Compilation

/-!
Which filters have a clause: those that ask each question of an operand that its operator takes.
Neither the names of the fields nor the nesting nor the dialect has a say in it. A filter without a
clause is refused for its first question that has none.
-/
namespace StoreBridge

def Operator.takes : Operator → Value → Bool
  | .isIn, value | .notIn, value => value.items?.isSome
  | .like, value | .ilike, value => value.text?.isSome
  | .between, .array [_, _] => true
  | .between, _ => false
  | .exists, value => value.bool?.isSome
  | .regex, _ => false
  | _, _ => true

namespace Sql.Clause
variable {d : Dialect} {filter : List Condition}

theorem ofOperator_ok_iff {field : String} {op : Operator} {value : Value} :
    (∃ p, ofOperator d field op value = .ok p) ↔ op.takes value := by
  cases op with
  | eq | ne => cases value <;> simp [ofOperator, Operator.takes, Value.isNull]
  | gt | gte | lt | lte => simp [ofOperator, Operator.takes]
  | isIn | notIn => cases value <;> simp [ofOperator, Operator.takes, Value.items?, refuse]
  | like | ilike =>
    cases value <;> simp [ofOperator, ofPattern, Operator.takes, Value.text?, refuse]
  | between =>
    simp only [ofOperator]
    split
    · simp [Operator.takes]
    · simp [Operator.takes, refuse]
  | «exists» => cases value <;> simp [ofOperator, Operator.takes, Value.bool?, refuse]
  | regex => simp [ofOperator, Operator.takes, refuse]

theorem ofConditions_cons_failure (condition : Condition) (rest : List Condition) :
    failure? (ofConditions d (condition :: rest)) =
      (failure? (ofCondition d condition)).or (failure? (ofConditions d rest)) := by
  rw [ofConditions]
  refine failure?_bind fun first => ?_
  exact failure?_bind_ok fun _ => rfl

theorem ofBranches_failure {branches : List (List Condition)} {refused : Question → Option Error}
    (each : ∀ branch ∈ branches,
      failure? (ofConditions d branch) = (Filter.questions branch).findSome? refused) :
    failure? (ofBranches d branches) = (Filter.branchQuestions branches).findSome? refused := by
  induction branches with
  | nil => rfl
  | cons branch rest ih =>
    rw [List.forall_mem_cons] at each
    rw [ofBranches, Filter.branchQuestions, List.findSome?_append, ← each.1, ← ih each.2]
    refine failure?_bind fun first => ?_
    exact failure?_bind_ok fun _ => rfl

theorem ofConditions_failure (d : Dialect) (filter : List Condition) :
    failure? (ofConditions d filter) = (Filter.questions filter).findSome? fun q =>
      failure? (ofOperator d q.field q.op q.value) := by
  induction filter using Filter.induct with
  | nil => rfl
  | leaf field value rest ih =>
    have equality : failure? (ofOperator d field .eq value) = none :=
      failure?_eq_none.mpr (ofOperator_ok_iff.mpr rfl)
    have written : failure? (ofCondition d (.leaf field value)) = none := rfl
    rw [ofConditions_cons_failure, Filter.questions, List.findSome?_append, ih, written]
    simp [Condition.questions, equality]
  | operator field op value rest ih =>
    rw [ofConditions_cons_failure, Filter.questions, List.findSome?_append, ih, ofCondition,
      failure?_map]
    simp [Condition.questions]
  | and branches rest each ih | or branches rest each ih =>
    rw [ofConditions_cons_failure, Filter.questions, List.findSome?_append, ih, ofCondition,
      failure?_map, ofBranches_failure each, Condition.questions]
  | not inner rest each ih =>
    rw [ofConditions_cons_failure, Filter.questions, List.findSome?_append, ih, ofCondition,
      failure?_map, each, Condition.questions]

theorem ofConditions_ok_iff :
    (∃ clause, ofConditions d filter = .ok clause) ↔
      ∀ q ∈ Filter.questions filter, q.op.takes q.value := by
  rw [← failure?_eq_none, ofConditions_failure, List.findSome?_eq_none_iff]
  simp only [failure?_eq_none, ofOperator_ok_iff]

theorem ofConditions_ok (taken : ∀ q ∈ Filter.questions filter, q.op.takes q.value) :
    ∃ clause, ofConditions d filter = .ok clause :=
  ofConditions_ok_iff.mpr taken

theorem ofConditions_takes {clause : Clause} (built : ofConditions d filter = .ok clause) :
    ∀ q ∈ Filter.questions filter, q.op.takes q.value :=
  ofConditions_ok_iff.mp ⟨clause, built⟩

/-- A filter that one dialect has a clause for has one in every dialect of SQL, and so has every
    filter that asks the same of other fields. -/
theorem ofFilter_accepts {d₁ d₂ : Dialect} {filter other : Filter} {clause : Clause}
    (built : ofFilter d₁ filter = .ok clause) (sql : d₂.isSql)
    (same : (Filter.questions other).map (fun q => (q.op, q.value)) =
      (Filter.questions filter).map fun q => (q.op, q.value)) :
    ∃ clause, ofFilter d₂ other = .ok clause := by
  have taken := ofConditions_takes (ofFilter_ok.mp built).2
  have others : ∀ q ∈ Filter.questions other, q.op.takes q.value := by
    intro q mem
    have inside : (q.op, q.value) ∈ (Filter.questions filter).map fun q => (q.op, q.value) := by
      rw [← same]
      exact List.mem_map_of_mem mem
    obtain ⟨r, there, pair⟩ := List.mem_map.mp inside
    have own := taken r there
    rw [Prod.mk.injEq] at pair
    rwa [pair.1, pair.2] at own
  obtain ⟨clause, made⟩ := ofConditions_ok (d := d₂) others
  exact ⟨clause, ofFilter_ok.mpr ⟨sql, made⟩⟩

end Sql.Clause
end StoreBridge
