import StoreBridge.Error
import StoreBridge.Sql.Predicate
import StoreBridge.Storage

/-!
The clause of a filter in a dialect. A group loses the branches that hold for every row, and a
group without branches is left out. What the dialect cannot say is refused.
-/
namespace StoreBridge.Sql.Clause

def ofLeaf (d : Dialect) (field : String) (value : Value) : Predicate :=
  if value.isNull then .null field false else .compare field .eq (d.stored value)

/-- Membership. Where no list can be bound, an empty list is no member's and everything's
    complement. -/
def ofMembers (d : Dialect) (field : String) (negated : Bool) (items : List Value) : Predicate :=
  if d.bindsLists then .inList field negated (d.storedItems items)
  else if items.isEmpty then .always negated
  else .among field negated (items.map d.stored)

/-- A pattern test; only text is a pattern. -/
def ofPattern (d : Dialect) (field : String) (op : Operator) (test : PatternTest) :
    Value → Except Error Predicate
  | .text pattern => .ok (.matching field test (d.stored (.text pattern)))
  | value => refuse (.patternNotText op field value.kind)

def ofOperator (d : Dialect) (field : String) (op : Operator) (value : Value) :
    Except Error Predicate :=
  let comparison (c : Comparison) : Except Error Predicate :=
    .ok (.compare field c (d.stored value))
  match op with
  | .eq => if value.isNull then .ok (.null field false) else comparison .eq
  | .ne => if value.isNull then .ok (.null field true) else comparison .ne
  | .gt => comparison .gt
  | .gte => comparison .gte
  | .lt => comparison .lt
  | .lte => comparison .lte
  | .isIn | .notIn =>
    match value.items? with
    | some items => .ok (ofMembers d field (op == .notIn) items)
    | none => refuse (.operandNotList op field)
  | .like => ofPattern d field op .like value
  | .ilike => ofPattern d field op (if d.hasCaselessLike then .caseless else .lowered) value
  | .between =>
    match value with
    | .array [low, high] => .ok (.between field (d.stored low) (d.stored high))
    | _ => refuse (.boundsNotPair field)
  | .exists =>
    match value.bool? with
    | some present => .ok (.null field present)
    | none => refuse (.flagNotBoolean field)
  | .regex => refuse (.noRegex field d)

/-- A group of the branches that do not hold for every row. -/
def grouped (joiner : Joiner) (branches : List Clause) : List Predicate :=
  let branches := branches.filter fun branch => !matchesAll branch
  if branches.isEmpty then [] else [.group joiner branches]

mutual

def ofCondition (d : Dialect) : Condition → Except Error (List Predicate)
  | .leaf field value => .ok [ofLeaf d field value]
  | .operator field op value => (ofOperator d field op value).map fun p => [p]
  | .and branches => (ofBranches d branches).map (grouped .and)
  | .or branches => (ofBranches d branches).map (grouped .or)
  | .not inner => (ofConditions d inner).map fun clause => [.not clause]

def ofConditions (d : Dialect) : List Condition → Except Error Clause
  | [] => .ok []
  | condition :: rest => do
    let first ← ofCondition d condition
    let rest ← ofConditions d rest
    .ok (first ++ rest)

def ofBranches (d : Dialect) : List (List Condition) → Except Error (List Clause)
  | [] => .ok []
  | branch :: rest => do
    let first ← ofConditions d branch
    let rest ← ofBranches d rest
    .ok (first :: rest)

end

/-- The clause of a filter. The document store has none. -/
def ofFilter (d : Dialect) (f : Filter) : Except Error Clause :=
  if d.isSql then ofConditions d f else refuse (.noWhereClause d)

end StoreBridge.Sql.Clause
