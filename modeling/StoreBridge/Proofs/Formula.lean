/-!
Propositional formulas over tests, and their truth in three values. A test may be true, false or
unknown; the connectives are those of SQL, for which unknown is whatever it may turn out to be.
-/
namespace StoreBridge

inductive Truth where
  | true | false | unknown
  deriving DecidableEq, Repr

namespace Truth

def ofBool (b : Bool) : Truth := if b then .true else .false

def not : Truth → Truth
  | .true => .false
  | .false => .true
  | .unknown => .unknown

def and : Truth → Truth → Truth
  | .false, _ | _, .false => .false
  | .true, .true => .true
  | _, _ => .unknown

def or : Truth → Truth → Truth
  | .true, _ | _, .true => .true
  | .false, .false => .false
  | _, _ => .unknown

@[simp] theorem true_and (a : Truth) : Truth.true.and a = a := by cases a <;> rfl

@[simp] theorem and_true (a : Truth) : a.and .true = a := by cases a <;> rfl

@[simp] theorem or_false (a : Truth) : a.or .false = a := by cases a <;> rfl

theorem and_assoc (a b c : Truth) : (a.and b).and c = a.and (b.and c) := by
  cases a <;> cases b <;> cases c <;> rfl

theorem ofBool_and (a b : Bool) : ofBool (a && b) = (ofBool a).and (ofBool b) := by
  cases a <;> cases b <;> rfl

theorem ofBool_or (a b : Bool) : ofBool (a || b) = (ofBool a).or (ofBool b) := by
  cases a <;> cases b <;> rfl

theorem ofBool_not (a : Bool) : ofBool (!a) = (ofBool a).not := by cases a <;> rfl

end Truth

inductive Formula (Test : Type) where
  | always (holds : Bool)
  | test (t : Test)
  | and (left right : Formula Test)
  | or (left right : Formula Test)
  | not (inner : Formula Test)
  deriving DecidableEq, Repr

namespace Formula
variable {Test : Type}

def truth (value : Test → Truth) : Formula Test → Truth
  | .always holds => Truth.ofBool holds
  | .test t => value t
  | .and left right => (left.truth value).and (right.truth value)
  | .or left right => (left.truth value).or (right.truth value)
  | .not inner => (inner.truth value).not

/-- A chain of formulas as it is read, from the left; `empty` where there is none. -/
def chain (join : Formula Test → Formula Test → Formula Test) (empty : Formula Test) :
    List (Formula Test) → Formula Test
  | [] => empty
  | [f] => f
  | f :: rest => join f (chain join empty rest)

/-- Without conjuncts it holds. -/
abbrev all : List (Formula Test) → Formula Test := chain .and (.always true)

/-- Without disjuncts it does not hold. -/
abbrev any : List (Formula Test) → Formula Test := chain .or (.always false)

theorem truth_all_cons (value : Test → Truth) (f : Formula Test) (rest : List (Formula Test)) :
    (all (f :: rest)).truth value = (f.truth value).and ((all rest).truth value) := by
  cases rest with
  | nil => simp [chain, truth, Truth.ofBool]
  | cons next rest => rfl

theorem truth_any_cons (value : Test → Truth) (f : Formula Test) (rest : List (Formula Test)) :
    (any (f :: rest)).truth value = (f.truth value).or ((any rest).truth value) := by
  cases rest with
  | nil => simp [chain, truth, Truth.ofBool]
  | cons next rest => rfl

theorem truth_all_append (value : Test → Truth) (before after : List (Formula Test)) :
    (all (before ++ after)).truth value =
      ((all before).truth value).and ((all after).truth value) := by
  induction before with
  | nil => exact (Truth.true_and _).symm
  | cons f rest ih => rw [List.cons_append, truth_all_cons, ih, truth_all_cons, Truth.and_assoc]

theorem truth_all_map_congr {value : Test → Truth} {Part : Type} {left right : Part → Formula Test}
    {parts : List Part}
    (same : ∀ part ∈ parts, (left part).truth value = (right part).truth value) :
    (all (parts.map left)).truth value = (all (parts.map right)).truth value := by
  induction parts with
  | nil => rfl
  | cons part rest ih =>
    rw [List.forall_mem_cons] at same
    rw [List.map_cons, List.map_cons, truth_all_cons, truth_all_cons, same.1, ih same.2]

theorem truth_any_map_congr {value : Test → Truth} {Part : Type} {left right : Part → Formula Test}
    {parts : List Part}
    (same : ∀ part ∈ parts, (left part).truth value = (right part).truth value) :
    (any (parts.map left)).truth value = (any (parts.map right)).truth value := by
  induction parts with
  | nil => rfl
  | cons part rest ih =>
    rw [List.forall_mem_cons] at same
    rw [List.map_cons, List.map_cons, truth_any_cons, truth_any_cons, same.1, ih same.2]

theorem all_eq_test {parts : List (Formula Test)} {t : Test} (single : all parts = .test t) :
    parts = [.test t] := by
  match parts, single with
  | [f], single => rw [show f = .test t from single]

theorem any_eq_test {parts : List (Formula Test)} {t : Test} (single : any parts = .test t) :
    parts = [.test t] := by
  match parts, single with
  | [f], single => rw [show f = .test t from single]

def tests : Formula Test → List Test
  | .always _ => []
  | .test t => [t]
  | .and left right | .or left right => left.tests ++ right.tests
  | .not inner => inner.tests

theorem tests_all (parts : List (Formula Test)) : (all parts).tests = parts.flatMap tests := by
  induction parts with
  | nil => rfl
  | cons f rest ih =>
    cases rest with
    | nil => simp [chain]
    | cons next rest => rw [List.flatMap_cons, ← ih]; rfl

theorem tests_any (parts : List (Formula Test)) : (any parts).tests = parts.flatMap tests := by
  induction parts with
  | nil => rfl
  | cons f rest ih =>
    cases rest with
    | nil => simp [chain]
    | cons next rest => rw [List.flatMap_cons, ← ih]; rfl

def bind {Other : Type} (put : Test → Formula Other) : Formula Test → Formula Other
  | .always holds => .always holds
  | .test t => put t
  | .and left right => .and (left.bind put) (right.bind put)
  | .or left right => .or (left.bind put) (right.bind put)
  | .not inner => .not (inner.bind put)

theorem bind_all {Other : Type} (put : Test → Formula Other) (parts : List (Formula Test)) :
    (all parts).bind put = all (parts.map (bind put)) := by
  induction parts with
  | nil => rfl
  | cons f rest ih =>
    cases rest with
    | nil => rfl
    | cons next rest => exact congrArg (Formula.and (f.bind put)) ih

theorem bind_any {Other : Type} (put : Test → Formula Other) (parts : List (Formula Test)) :
    (any parts).bind put = any (parts.map (bind put)) := by
  induction parts with
  | nil => rfl
  | cons f rest ih =>
    cases rest with
    | nil => rfl
    | cons next rest => exact congrArg (Formula.or (f.bind put)) ih

end Formula
end StoreBridge
