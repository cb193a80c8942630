import Mathlib.Data.List.Forall2
import StoreBridge.Filter.Basic

/-!
The conditions inside a filter, at every depth, and the induction that reaches them all: over the
conditions of the filter, and under each combination over its branches.
-/
namespace StoreBridge

mutual

def Condition.nested : Condition → List Condition
  | .leaf field value => [.leaf field value]
  | .operator field op value => [.operator field op value]
  | .and branches => .and branches :: Filter.nestedBranches branches
  | .or branches => .or branches :: Filter.nestedBranches branches
  | .not inner => .not inner :: Filter.nested inner

def Filter.nested : List Condition → List Condition
  | [] => []
  | condition :: rest => condition.nested ++ Filter.nested rest

def Filter.nestedBranches : List (List Condition) → List Condition
  | [] => []
  | branch :: rest => Filter.nested branch ++ Filter.nestedBranches rest

end

namespace Filter

@[elab_as_elim]
theorem induct {motive : List Condition → Prop} (nil : motive [])
    (leaf : ∀ field value rest, motive rest → motive (.leaf field value :: rest))
    (operator : ∀ field op value rest, motive rest → motive (.operator field op value :: rest))
    (and : ∀ branches rest, (∀ branch ∈ branches, motive branch) → motive rest →
      motive (.and branches :: rest))
    (or : ∀ branches rest, (∀ branch ∈ branches, motive branch) → motive rest →
      motive (.or branches :: rest))
    (not : ∀ inner rest, motive inner → motive rest → motive (.not inner :: rest))
    (filter : List Condition) : motive filter :=
  match filter with
  | [] => nil
  | .leaf field value :: rest =>
    leaf field value rest (induct nil leaf operator and or not rest)
  | .operator field op value :: rest =>
    operator field op value rest (induct nil leaf operator and or not rest)
  | .and branches :: rest =>
    and branches rest (fun branch _ => induct nil leaf operator and or not branch)
      (induct nil leaf operator and or not rest)
  | .or branches :: rest =>
    or branches rest (fun branch _ => induct nil leaf operator and or not branch)
      (induct nil leaf operator and or not rest)
  | .not inner :: rest =>
    not inner rest (induct nil leaf operator and or not inner)
      (induct nil leaf operator and or not rest)
termination_by sizeOf filter
decreasing_by
  all_goals
    try have smaller := List.sizeOf_lt_of_mem ‹_›
    simp only [List.cons.sizeOf_spec, Condition.leaf.sizeOf_spec, Condition.operator.sizeOf_spec,
      Condition.and.sizeOf_spec, Condition.or.sizeOf_spec, Condition.not.sizeOf_spec]
    omega

theorem mem_nestedBranches {condition : Condition} {branches : List (List Condition)} :
    condition ∈ nestedBranches branches ↔ ∃ branch ∈ branches, condition ∈ nested branch := by
  induction branches with
  | nil => simp [nestedBranches]
  | cons branch rest ih => simp [nestedBranches, ih]

/-! What holds of every condition inside a filter, piece by piece. -/

variable {P : Condition → Prop} {branches : List (List Condition)}

theorem forall_nested_cons {condition : Condition} {rest : List Condition} :
    (∀ c ∈ nested (condition :: rest), P c) ↔
      (∀ c ∈ condition.nested, P c) ∧ ∀ c ∈ nested rest, P c := by
  simp only [nested, List.mem_append, or_imp, forall_and]

theorem forall_nestedBranches :
    (∀ c ∈ nestedBranches branches, P c) ↔ ∀ branch ∈ branches, ∀ c ∈ nested branch, P c := by
  constructor
  · intro all branch mem c inside
    exact all c (mem_nestedBranches.mpr ⟨branch, mem, inside⟩)
  · intro all c mem
    obtain ⟨branch, inside, deep⟩ := mem_nestedBranches.mp mem
    exact all branch inside c deep

theorem forall_nested_and :
    (∀ c ∈ (Condition.and branches).nested, P c) ↔
      P (.and branches) ∧ ∀ branch ∈ branches, ∀ c ∈ nested branch, P c := by
  rw [Condition.nested, List.forall_mem_cons, forall_nestedBranches]

theorem forall_nested_or :
    (∀ c ∈ (Condition.or branches).nested, P c) ↔
      P (.or branches) ∧ ∀ branch ∈ branches, ∀ c ∈ nested branch, P c := by
  rw [Condition.nested, List.forall_mem_cons, forall_nestedBranches]

theorem forall_nested_not {inner : List Condition} :
    (∀ c ∈ (Condition.not inner).nested, P c) ↔ P (.not inner) ∧ ∀ c ∈ nested inner, P c := by
  rw [Condition.nested, List.forall_mem_cons]

theorem forall_nested_leaf {field : String} {value : Value} :
    (∀ c ∈ (Condition.leaf field value).nested, P c) ↔ P (.leaf field value) := by
  rw [Condition.nested, List.forall_mem_singleton]

theorem forall_nested_operator {field : String} {op : Operator} {value : Value} :
    (∀ c ∈ (Condition.operator field op value).nested, P c) ↔ P (.operator field op value) := by
  rw [Condition.nested, List.forall_mem_singleton]

theorem branch_of_compiled {Compiled : Type} {makes : List Condition → Compiled → Prop}
    {compiled : List Compiled} (each : List.Forall₂ makes branches compiled) {c : Compiled}
    (mem : c ∈ compiled) : ∃ branch ∈ branches, makes branch c := by
  induction each with
  | nil => simp at mem
  | cons first _ ih =>
    rcases List.mem_cons.mp mem with rfl | mem
    · exact ⟨_, by simp, first⟩
    · obtain ⟨branch, inside, made⟩ := ih mem
      exact ⟨branch, by simp [inside], made⟩

theorem forall_branches {Compiled : Type} {allows : Compiled → Prop}
    {holds : List Condition → Prop} {compiled : List Compiled}
    (each : List.Forall₂ (fun branch c => allows c → holds branch) branches compiled)
    (all : ∀ c ∈ compiled, allows c) : ∀ branch ∈ branches, holds branch := by
  induction each with
  | nil => simp
  | cons first _ ih =>
    rw [List.forall_mem_cons] at all ⊢
    exact ⟨first all.1, ih all.2⟩

end Filter
end StoreBridge
