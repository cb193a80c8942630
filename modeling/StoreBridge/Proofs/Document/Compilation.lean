import Mathlib.Data.List.Forall2
import StoreBridge.Document.Query
import StoreBridge.Proofs.Filter.Nested

/-!
What compiling a filter into a query can do. Conditions are written into one document in their
order, so the induction follows the document from one condition to the next; the branches of a
combination and what stands under a NOT start from an empty document.
-/
namespace StoreBridge.Query

theorem addConditions_split {mode : IdentityMode} {query result : Document}
    {condition : Condition} {rest : List Condition}
    (built : addConditions mode query (condition :: rest) = .ok result) :
    ∃ next, addCondition mode query condition = .ok next ∧
      addConditions mode next rest = .ok result := by
  rw [addConditions] at built
  cases first : addCondition mode query condition with
  | error e => simp [first, Except.bind] at built
  | ok next =>
    simp only [first, Except.bind] at built
    exact ⟨next, rfl, built⟩

theorem branchesOf_compiled {mode : IdentityMode} {branches : List (List Condition)}
    {documents : List Document} (built : branchesOf mode branches = .ok documents) :
    List.Forall₂ (fun branch document => addConditions mode [] branch = .ok document)
      branches documents := by
  induction branches generalizing documents with
  | nil =>
    simp only [branchesOf, Except.ok.injEq] at built
    subst built
    exact .nil
  | cons branch rest ih =>
    rw [branchesOf] at built
    cases first : addConditions mode [] branch with
    | error e => simp [first, bind, Except.bind] at built
    | ok document =>
      cases later : branchesOf mode rest with
      | error e => simp [first, later, bind, Except.bind] at built
      | ok documents =>
        simp only [first, later, bind, Except.bind, Except.ok.injEq] at built
        subst built
        exact .cons first (ih later)

theorem compiled_induct {mode : IdentityMode}
    {motive : Document → List Condition → Document → Prop}
    (nil : ∀ query, motive query [] query)
    (leaf : ∀ query field value rest result,
      motive (addEquality query (IdentityMode.fieldName field) (mode.fieldValue field value)) rest
        result →
      motive query (.leaf field value :: rest) result)
    (operator : ∀ query field op value operators rest result,
      operatorsOf mode field op value = .ok operators →
      motive (addOperators query (IdentityMode.fieldName field) operators) rest result →
      motive query (.operator field op value :: rest) result)
    (and : ∀ query branches documents rest result,
      List.Forall₂ (fun branch document => addConditions mode [] branch = .ok document)
        branches documents →
      List.Forall₂ (motive []) branches documents →
      motive (addBranches query "$and" documents) rest result →
      motive query (.and branches :: rest) result)
    (or : ∀ query branches documents rest result,
      List.Forall₂ (fun branch document => addConditions mode [] branch = .ok document)
        branches documents →
      List.Forall₂ (motive []) branches documents →
      motive (addBranches query "$or" documents) rest result →
      motive query (.or branches :: rest) result)
    (not : ∀ query inner document rest result, motive [] inner document →
      motive (addClauses query "$nor" [.document document]) rest result →
      motive query (.not inner :: rest) result)
    {query result : Document} {filter : List Condition}
    (built : addConditions mode query filter = .ok result) : motive query filter result := by
  have lift {branches : List (List Condition)} {documents : List Document}
      (each : ∀ branch ∈ branches, ∀ {query result},
        addConditions mode query branch = .ok result → motive query branch result)
      (compiled : List.Forall₂ (fun branch document => addConditions mode [] branch = .ok document)
        branches documents) : List.Forall₂ (motive []) branches documents := by
    induction compiled with
    | nil => exact .nil
    | cons first _ ih =>
      exact .cons (each _ (by simp) first) (ih fun branch mem => each branch (by simp [mem]))
  induction filter using Filter.induct generalizing query result with
  | nil =>
    simp only [addConditions, Except.ok.injEq] at built
    subst built
    exact nil query
  | leaf field value rest ih =>
    obtain ⟨next, head, later⟩ := addConditions_split built
    simp only [addCondition, Except.ok.injEq] at head
    subst head
    exact leaf query field value rest result (ih later)
  | operator field op value rest ih =>
    obtain ⟨next, head, later⟩ := addConditions_split built
    rw [addCondition] at head
    cases made : operatorsOf mode field op value with
    | error e => simp [made, Except.map] at head
    | ok operators =>
      simp only [made, Except.map, Except.ok.injEq] at head
      subst head
      exact operator query field op value operators rest result made (ih later)
  | and branches rest each ih =>
    obtain ⟨next, head, later⟩ := addConditions_split built
    rw [addCondition] at head
    cases made : branchesOf mode branches with
    | error e => simp [made, Except.map] at head
    | ok documents =>
      simp only [made, Except.map, Except.ok.injEq] at head
      subst head
      have compiled := branchesOf_compiled made
      exact and query branches documents rest result compiled (lift each compiled) (ih later)
  | or branches rest each ih =>
    obtain ⟨next, head, later⟩ := addConditions_split built
    rw [addCondition] at head
    cases made : branchesOf mode branches with
    | error e => simp [made, Except.map] at head
    | ok documents =>
      simp only [made, Except.map, Except.ok.injEq] at head
      subst head
      have compiled := branchesOf_compiled made
      exact or query branches documents rest result compiled (lift each compiled) (ih later)
  | not inner rest each ih =>
    obtain ⟨next, head, later⟩ := addConditions_split built
    rw [addCondition] at head
    cases made : addConditions mode [] inner with
    | error e => simp [made, Except.map] at head
    | ok document =>
      simp only [made, Except.map, Except.ok.injEq] at head
      subst head
      exact not query inner document rest result (each made) (ih later)

end StoreBridge.Query
