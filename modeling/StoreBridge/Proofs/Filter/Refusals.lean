import StoreBridge.Error
import StoreBridge.Proofs.Filter.Questions

/-!
Passes over a filter that stop at the first refusal. What such a pass fails with is told by its
questions in their order, and nothing that was built on the way has a say in it.
-/
namespace StoreBridge

def failure? {α : Type} : Except Error α → Option Error
  | .ok _ => none
  | .error error => some error

section
variable {α β : Type} {x : Except Error α}

theorem failure?_eq_none : failure? x = none ↔ ∃ a, x = .ok a := by
  cases x <;> simp [failure?]

theorem failure?_eq_some {error : Error} : failure? x = some error ↔ x = .error error := by
  cases x <;> simp [failure?]

theorem failure?_map (f : α → β) : failure? (x.map f) = failure? x := by
  cases x <;> rfl

theorem failure?_bind {f : α → Except Error β} {later : Option Error}
    (alike : ∀ a, failure? (f a) = later) : failure? (x >>= f) = (failure? x).or later := by
  cases x with
  | error error => rfl
  | ok a => exact alike a

theorem failure?_bind_ok {f : α → Except Error β} (kept : ∀ a, failure? (f a) = none) :
    failure? (x >>= f) = failure? x := by
  rw [failure?_bind kept, Option.or_none]

end

/-- The shape that an operator asks of its operand. -/
def Operator.Fits : Operator → Value → Prop
  | .isIn, value | .notIn, value => ∃ items, value = .array items
  | .like, value | .ilike, value | .regex, value => ∃ pattern, value = .text pattern
  | .between, value => ∃ low high, value = .array [low, high]
  | .exists, value => ∃ present, value = .bool present
  | _, _ => True

/-- What a condition asks by itself, without those inside it. -/
def Condition.own : Condition → List Question
  | .leaf field value => [⟨field, .eq, value⟩]
  | .operator field op value => [⟨field, op, value⟩]
  | _ => []

namespace Filter

theorem questions_nested (filter : List Condition) :
    questions filter = (nested filter).flatMap Condition.own := by
  have inside {branches : List (List Condition)}
      (each : ∀ branch ∈ branches, questions branch = (nested branch).flatMap Condition.own) :
      branchQuestions branches = (nestedBranches branches).flatMap Condition.own := by
    induction branches with
    | nil => rfl
    | cons branch rest ih =>
      rw [List.forall_mem_cons] at each
      rw [branchQuestions, nestedBranches, List.flatMap_append, each.1, ih each.2]
  induction filter using Filter.induct with
  | nil => rfl
  | leaf field value rest ih | operator field op value rest ih =>
    rw [questions, nested, List.flatMap_append, ih]
    rfl
  | and branches rest each ih | or branches rest each ih =>
    rw [questions, nested, List.flatMap_append, ih, Condition.questions, inside each]
    rfl
  | not inner rest each ih =>
    rw [questions, nested, List.flatMap_append, ih, Condition.questions, each]
    rfl

/-- What equality always has, all questions have if every operator inside the filter has it. -/
theorem forall_questions {P : Operator → Value → Prop} {filter : List Condition}
    (leaf : ∀ value, P .eq value) :
    (∀ q ∈ questions filter, P q.op q.value) ↔
      ∀ field op value, .operator field op value ∈ nested filter → P op value := by
  rw [questions_nested, List.forall_mem_flatMap]
  constructor
  · intro all field op value mem
    exact all _ mem ⟨field, op, value⟩ (by simp [Condition.own])
  · intro all condition mem q own
    cases condition with
    | leaf field value =>
      obtain rfl : q = ⟨field, .eq, value⟩ := by simpa [Condition.own] using own
      exact leaf value
    | operator field op value =>
      obtain rfl : q = ⟨field, op, value⟩ := by simpa [Condition.own] using own
      exact all field op value mem
    | and | or | not => simp [Condition.own] at own

end Filter
end StoreBridge
