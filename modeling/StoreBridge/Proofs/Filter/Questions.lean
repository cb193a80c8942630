import StoreBridge.Proofs.Filter.Nested
import StoreBridge.Proofs.Formula

/-!
What a filter asks of single fields, and the formula that is left of a filter where combinations
lose branches. Which branches are lost is a parameter: whoever compiles a filter decides it, and
decides it by what is left of the branch itself.
-/
namespace StoreBridge

/-- What a condition asks of one field. -/
structure Question where
  field : String
  op : Operator
  value : Value

mutual

def Condition.questions : Condition → List Question
  | .leaf field value => [⟨field, .eq, value⟩]
  | .operator field op value => [⟨field, op, value⟩]
  | .and branches | .or branches => Filter.branchQuestions branches
  | .not inner => Filter.questions inner

def Filter.questions : List Condition → List Question
  | [] => []
  | condition :: rest => condition.questions ++ Filter.questions rest

def Filter.branchQuestions : List (List Condition) → List Question
  | [] => []
  | branch :: rest => Filter.questions branch ++ Filter.branchQuestions rest

end

/-- What is left of a combination whose branches are conjunctions. Without branches it is left out
    itself. -/
def Filter.combined (loses : List (Formula Question) → Bool)
    (join : List (Formula Question) → Formula Question)
    (branches : List (List (Formula Question))) : List (Formula Question) :=
  let kept := branches.filter fun branch => !loses branch
  if kept.isEmpty then [] else [join (kept.map .all)]

mutual

def Condition.posed (loses : List (Formula Question) → Bool) :
    Condition → List (Formula Question)
  | .leaf field value => [.test ⟨field, .eq, value⟩]
  | .operator field op value => [.test ⟨field, op, value⟩]
  | .and branches => Filter.combined loses .all (Filter.posedBranches loses branches)
  | .or branches => Filter.combined loses .any (Filter.posedBranches loses branches)
  | .not inner => [.not (.all (Filter.posed loses inner))]

/-- The conjuncts that are left of a filter. -/
def Filter.posed (loses : List (Formula Question) → Bool) :
    List Condition → List (Formula Question)
  | [] => []
  | condition :: rest => condition.posed loses ++ Filter.posed loses rest

def Filter.posedBranches (loses : List (Formula Question) → Bool) :
    List (List Condition) → List (List (Formula Question))
  | [] => []
  | branch :: rest => Filter.posed loses branch :: Filter.posedBranches loses rest

end

namespace Filter
variable {loses : List (Formula Question) → Bool} {branches : List (List Condition)}

theorem branchQuestions_eq (branches : List (List Condition)) :
    branchQuestions branches = branches.flatMap questions := by
  induction branches with
  | nil => rfl
  | cons branch rest ih => rw [branchQuestions, List.flatMap_cons, ih]

theorem posedBranches_eq (branches : List (List Condition)) :
    posedBranches loses branches = branches.map (posed loses) := by
  induction branches with
  | nil => rfl
  | cons branch rest ih => rw [posedBranches, List.map_cons, ih]

theorem kept_eq (branches : List (List Condition)) :
    (branches.map (posed loses)).filter (fun branch => !loses branch) =
      (branches.filter fun branch => !loses (posed loses branch)).map (posed loses) := by
  rw [List.filter_map]
  rfl

theorem combined_eq_nil {join : List (Formula Question) → Formula Question}
    {branches : List (List (Formula Question))} :
    combined loses join branches = [] ↔ ∀ branch ∈ branches, loses branch := by
  have none : (branches.filter fun branch => !loses branch) = [] ↔
      ∀ branch ∈ branches, loses branch := by simp [List.filter_eq_nil_iff]
  rw [← none]
  unfold combined
  cases branches.filter fun branch => !loses branch <;> simp

theorem tests_combined {join : List (Formula Question) → Formula Question}
    (joined : ∀ parts, (join parts).tests = parts.flatMap Formula.tests)
    (branches : List (List (Formula Question))) :
    (combined loses join branches).flatMap Formula.tests =
      (branches.filter fun branch => !loses branch).flatMap (·.flatMap Formula.tests) := by
  unfold combined
  cases kept : branches.filter fun branch => !loses branch with
  | nil => rfl
  | cons first rest =>
    simp only [List.isEmpty_cons, Bool.false_eq_true, if_false, List.flatMap_cons,
      List.flatMap_nil, List.append_nil]
    rw [joined, List.flatMap_map, ← List.flatMap_cons]
    simp only [Formula.tests_all]

/-- What is left of a filter asks its questions in their order, but for those that every lost
    branch consists of. -/
theorem tests_posed {counts : Question → Bool}
    (lost : ∀ parts, loses parts → (parts.flatMap Formula.tests).filter counts = [])
    (filter : List Condition) :
    ((posed loses filter).flatMap Formula.tests).filter counts =
      (questions filter).filter counts := by
  have branch_tests {join : List (Formula Question) → Formula Question}
      (joined : ∀ parts, (join parts).tests = parts.flatMap Formula.tests)
      {branches : List (List Condition)}
      (each : ∀ branch ∈ branches, ((posed loses branch).flatMap Formula.tests).filter counts =
        (questions branch).filter counts) :
      ((combined loses join (posedBranches loses branches)).flatMap Formula.tests).filter counts =
        (branchQuestions branches).filter counts := by
    rw [tests_combined joined, posedBranches_eq, branchQuestions_eq]
    induction branches with
    | nil => rfl
    | cons branch rest ih =>
      rw [List.forall_mem_cons] at each
      have later := ih each.2
      rw [List.map_cons, List.flatMap_cons, List.filter_append, ← later, ← each.1]
      cases gone : loses (posed loses branch) with
      | true => simp [gone, lost _ gone]
      | false => simp [gone]
  induction filter using Filter.induct with
  | nil => rfl
  | leaf field value rest ih | operator field op value rest ih =>
    rw [posed, List.flatMap_append, List.filter_append, ih, questions, List.filter_append]
    rfl
  | and branches rest each ih =>
    rw [posed, List.flatMap_append, List.filter_append, ih, questions, List.filter_append,
      Condition.posed, branch_tests Formula.tests_all each]
    rfl
  | or branches rest each ih =>
    rw [posed, List.flatMap_append, List.filter_append, ih, questions, List.filter_append,
      Condition.posed, branch_tests Formula.tests_any each]
    rfl
  | not inner rest each ih =>
    rw [posed, List.flatMap_append, List.filter_append, ih, questions, List.filter_append,
      Condition.posed, List.flatMap_singleton, Formula.tests, Formula.tests_all, each]
    rfl

/-! The truth of what is left. -/

variable {value : Question → Truth}

theorem truth_combined_kept (branches : List (List (Formula Question))) :
    (Formula.all (combined loses .all branches)).truth value =
      (Formula.all ((branches.filter fun branch => !loses branch).map .all)).truth value := by
  unfold combined
  cases branches.filter fun branch => !loses branch <;> rfl

theorem truth_combined_all {branches : List (List (Formula Question))}
    (lost : ∀ branch ∈ branches, loses branch → (Formula.all branch).truth value = .true) :
    (Formula.all (combined loses .all branches)).truth value =
      (Formula.all (branches.map .all)).truth value := by
  rw [truth_combined_kept]
  induction branches with
  | nil => rfl
  | cons branch rest ih =>
    rw [List.forall_mem_cons] at lost
    rw [List.map_cons, Formula.truth_all_cons, ← ih lost.2]
    cases gone : loses branch with
    | true => simp [gone, lost.1 gone]
    | false => simp [gone, Formula.truth_all_cons]

/-- An OR of what is true is true, also where it has lost every branch. -/
theorem truth_combined_any_true {branches : List (List (Formula Question))}
    (each : ∀ branch ∈ branches, (Formula.all branch).truth value = .true) :
    (Formula.all (combined loses .any branches)).truth value = .true := by
  have some_true {parts : List (List (Formula Question))} (some : parts ≠ [])
      (each : ∀ part ∈ parts, (Formula.all part).truth value = .true) :
      (Formula.any (parts.map .all)).truth value = .true := by
    cases parts with
    | nil => exact absurd rfl some
    | cons part rest =>
      rw [List.map_cons, Formula.truth_any_cons, each part (by simp)]
      cases (Formula.any (rest.map .all)).truth value <;> rfl
  unfold combined
  cases kept : branches.filter fun branch => !loses branch with
  | nil => rfl
  | cons first rest =>
    refine some_true (by simp) fun part mem => each part ?_
    rw [← kept] at mem
    exact (List.mem_filter.mp mem).1

end Filter
end StoreBridge
