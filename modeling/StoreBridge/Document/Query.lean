import StoreBridge.Document.Identity
import StoreBridge.Document.LikePattern

/-!
Filters as query documents. The entries of a query must all hold. Conditions on one field share an
entry where they can, and what would take an entry's place away moves into `$and`.
-/
namespace StoreBridge

structure DocumentOptions where
  sort : Option Document := none
  limit : Option Nat := none
  skip : Option Nat := none
  projection : Option Document := none
  deriving Repr

namespace Query

/-- Whether the store reads a document under a field as operators. -/
def isOperators (d : Document) : Bool :=
  match d with
  | [] => false
  | (key, _) :: _ => IdentityMode.isOperatorName key

def isOperatorValue : Bson → Bool
  | .document d => isOperators d
  | _ => false

def appendAnd (query clause : Document) : Document :=
  match query.get? "$and" with
  | some (.array clauses) => query.insert "$and" (.array (clauses ++ [.document clause]))
  | _ => query.insert "$and" (.array [.document clause])

def addClauses (query : Document) (key : String) (clauses : List Bson) : Document :=
  match key, query.get? "$and" with
  | "$and", some (.array existing) => query.insert "$and" (.array (existing ++ clauses))
  | _, _ =>
    if query.contains key then appendAnd query [(key, .array clauses)]
    else query.insert key (.array clauses)

/-- Adds operators on a field. They stay together: where one of them is taken, or the field is
    bound to a value, they all move. -/
def addOperators (query : Document) (field : String) (operators : Document) : Document :=
  match query.get? field with
  | none => query.insert field (.document operators)
  | some (.document existing) =>
    if isOperators existing && operators.all fun e => !Entries.contains existing e.1 then
      query.insert field (.document (Entries.merge existing operators))
    else appendAnd query [(field, .document operators)]
  | some _ => appendAnd query [(field, .document operators)]

def addEquality (query : Document) (field : String) (value : Bson) : Document :=
  match query.get? field with
  | none => query.insert field value
  | some existing =>
    if isOperatorValue existing then addOperators query field [("$eq", value)]
    else appendAnd query [(field, value)]

def operatorsOf (mode : IdentityMode) (field : String) (op : Operator) (value : Value) :
    Except Error Document :=
  match op with
  | .eq | .ne | .gt | .gte | .lt | .lte => .ok [(op.key, mode.fieldValue field value)]
  | .isIn | .notIn =>
    match value with
    | .array _ => .ok [(op.key, mode.fieldValue field value)]
    | _ => refuse (.operandNotList op field)
  | .exists =>
    match value with
    | .bool present => .ok [("$exists", .boolean present)]
    | _ => refuse (.flagNotBoolean field)
  | .like | .ilike =>
    match value with
    | .text pattern =>
      .ok [("$regex", .string (LikePattern.toRegex pattern)), ("$options", .string "i")]
    | _ => refuse (.operandNotText op field)
  | .regex =>
    match value with
    | .text pattern => .ok [("$regex", .string pattern)]
    | _ => refuse (.operandNotText op field)
  | .between =>
    match value with
    | .array [low, high] =>
      .ok [("$gte", mode.fieldValue field low), ("$lte", mode.fieldValue field high)]
    | _ => refuse (.rangeNotPair field)

def addBranches (query : Document) (key : String) (branches : List Document) : Document :=
  let branches := branches.filter fun branch => !branch.isEmpty
  if branches.isEmpty then query else addClauses query key (branches.map .document)

mutual

def addCondition (mode : IdentityMode) (query : Document) : Condition → Except Error Document
  | .leaf field value =>
    .ok (addEquality query (IdentityMode.fieldName field) (mode.fieldValue field value))
  | .operator field op value =>
    (operatorsOf mode field op value).map fun operators =>
      addOperators query (IdentityMode.fieldName field) operators
  | .and branches =>
    (branchesOf mode branches).map fun branches => addBranches query "$and" branches
  | .or branches =>
    (branchesOf mode branches).map fun branches => addBranches query "$or" branches
  | .not inner =>
    (addConditions mode [] inner).map fun inner => addClauses query "$nor" [.document inner]

def addConditions (mode : IdentityMode) (query : Document) :
    List Condition → Except Error Document
  | [] => .ok query
  | condition :: rest =>
    (addCondition mode query condition).bind fun query => addConditions mode query rest

def branchesOf (mode : IdentityMode) : List (List Condition) → Except Error (List Document)
  | [] => .ok []
  | branch :: rest => do
    let first ← addConditions mode [] branch
    let rest ← branchesOf mode rest
    .ok (first :: rest)

end

def ofFilter (mode : IdentityMode) (f : Filter) : Except Error Document :=
  addConditions mode [] f

def directionValue : Direction → Bson
  | .ascending => .int32 1
  | .descending => .int32 (-1)

def greatestLimit : Nat := 2 ^ 63 - 1

end Query

/-- A field that is named twice keeps its first place and its last direction. -/
def DocumentOptions.ofOptions (o : FindOptions) : DocumentOptions where
  sort :=
    if o.sort.isEmpty then none
    else some (Entries.ofList (o.sort.map fun e =>
      (IdentityMode.fieldName e.1, Query.directionValue e.2)))
  limit := o.limit.map fun n => min n Query.greatestLimit
  skip := o.offset
  projection :=
    if o.select.isEmpty then none
    else some (Entries.ofList (o.select.map fun field => (IdentityMode.fieldName field, .int32 1)))

end StoreBridge
