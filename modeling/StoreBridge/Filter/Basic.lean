import StoreBridge.Value

/-!
Filters: lists of conditions that must all hold, in the order in which they were given. A filter
without conditions holds for everything.
-/
namespace StoreBridge

inductive Operator where
  | eq | ne | gt | gte | lt | lte | isIn | notIn | like | ilike | between | exists | regex
  deriving DecidableEq, Repr

namespace Operator

def key : Operator → String
  | .eq => "$eq"
  | .ne => "$ne"
  | .gt => "$gt"
  | .gte => "$gte"
  | .lt => "$lt"
  | .lte => "$lte"
  | .isIn => "$in"
  | .notIn => "$nin"
  | .like => "$like"
  | .ilike => "$ilike"
  | .between => "$between"
  | .exists => "$exists"
  | .regex => "$regex"

def all : List Operator :=
  [.eq, .ne, .gt, .gte, .lt, .lte, .isIn, .notIn, .like, .ilike, .between, .exists, .regex]

def ofKey? (key : String) : Option Operator := all.find? fun op => op.key == key

end Operator

inductive Condition where
  /-- The field equals the value. -/
  | leaf (field : String) (value : Value)
  | operator (field : String) (op : Operator) (value : Value)
  | and (branches : List (List Condition))
  | or (branches : List (List Condition))
  | not (inner : List Condition)
  deriving Inhabited, Repr

abbrev Filter := List Condition

namespace Filter

def equals (field : String) (value : Value) : Filter := [.leaf field value]

/-- The conditions that ask a field to equal a value, outside every combination. -/
def equalityLeaves (f : Filter) : List (String × Value) :=
  f.filterMap fun
    | .leaf field value => some (field, value)
    | .operator field .eq value => some (field, value)
    | _ => none

end Filter

inductive Direction where
  | ascending | descending
  deriving DecidableEq, Repr

namespace Direction

/-- One, and the word for ascending in any letter case, ascend; all else descends. -/
def ofJson : Json → Direction
  | .integer 1 => .ascending
  | .string s => if Text.lower s = "asc" then .ascending else .descending
  | _ => .descending

def keyword : Direction → String
  | .ascending => "ASC"
  | .descending => "DESC"

end Direction

structure FindOptions where
  sort : List (String × Direction) := []
  limit : Option Nat := none
  offset : Option Nat := none
  select : List String := []
  deriving Repr

end StoreBridge
