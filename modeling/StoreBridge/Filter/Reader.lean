import StoreBridge.Error

/-!
Filters and options as JSON. A name that starts with a dollar sign is a combination of filters or
an operator, and all other names are fields. What the grammar does not know is refused, and the
conditions keep the order of the text.
-/
namespace StoreBridge
namespace Filter

def isReserved (name : String) : Bool := name.toList.head? == some '$'

def isOperators (fields : Entries Json) : Bool :=
  !fields.isEmpty && fields.all fun e => isReserved e.1

def isNested : Json → Bool
  | .object fields => fields.any fun e => isReserved e.1
  | _ => false

def operatorsOfJson (field : String) : List (String × Json) → Except Error (List Condition)
  | [] => .ok []
  | (key, operand) :: rest =>
    match Operator.ofKey? key with
    | none => refuse (.unknownOperator key field)
    | some op =>
      if isNested operand then refuse (.nestedFilter key field)
      else do
        let rest ← operatorsOfJson field rest
        .ok (.operator field op (Value.ofJson operand) :: rest)

/-- The conditions of one field. An object without operators is a value. -/
def fieldOfJson (field : String) (value : Json) : Except Error (List Condition) :=
  match value with
  | .object fields =>
    if isOperators fields then operatorsOfJson field fields
    else .ok [.leaf field (Value.ofJson value)]
  | _ => .ok [.leaf field (Value.ofJson value)]

mutual

def ofJson : Json → Except Error Filter
  | .null => .ok []
  | .object fields => conditionsOfJson fields
  | .bool _ => refuse (.filterNotObject .boolean)
  | .integer _ => refuse (.filterNotObject .number)
  | .float _ => refuse (.filterNotObject .number)
  | .string _ => refuse (.filterNotObject .string)
  | .array _ => refuse (.filterNotObject .array)

def conditionsOfJson : List (String × Json) → Except Error (List Condition)
  | [] => .ok []
  | (key, value) :: rest => do
    let first ← entryOfJson key value
    let rest ← conditionsOfJson rest
    .ok (first ++ rest)

def entryOfJson (key : String) : Json → Except Error (List Condition)
  | .array items =>
    if key = "$and" then (branchesOfJson items).map fun branches => [.and branches]
    else if key = "$or" then (branchesOfJson items).map fun branches => [.or branches]
    else if key = "$not" then refuse .negationNotObject
    else if isReserved key then refuse (.unknownCombinator key)
    else fieldOfJson key (.array items)
  | .object fields =>
    if key = "$not" then (conditionsOfJson fields).map fun inner => [.not inner]
    else if key = "$and" ∨ key = "$or" then refuse (.branchesNotList key)
    else if isReserved key then refuse (.unknownCombinator key)
    else fieldOfJson key (.object fields)
  | value =>
    if key = "$and" ∨ key = "$or" then refuse (.branchesNotList key)
    else if key = "$not" then refuse .negationNotObject
    else if isReserved key then refuse (.unknownCombinator key)
    else fieldOfJson key value

def branchesOfJson : List Json → Except Error (List Filter)
  | [] => .ok []
  | item :: rest => do
    let first ← ofJson item
    let rest ← branchesOfJson rest
    .ok (first :: rest)

end

end Filter

namespace FindOptions

def countOfJson (fields : Entries Json) (key : String) : Except Error (Option Nat) :=
  match fields.get? key with
  | none => .ok none
  | some .null => .ok none
  | some value =>
    match value.toUInt64? with
    | some n => .ok (some n)
    | none => refuse (.countNotNatural key)

def sortOfJson (fields : Entries Json) : Except Error (List (String × Direction)) :=
  match fields.get? "sort" with
  | none => .ok []
  | some (.object sort) => .ok (sort.map fun e => (e.1, Direction.ofJson e.2))
  | some _ => refuse .sortNotObject

def namesOfJson : List Json → Except Error (List String)
  | [] => .ok []
  | .string name :: rest => (namesOfJson rest).map (name :: ·)
  | _ :: _ => refuse .selectEntryNotText

def selectOfJson (fields : Entries Json) : Except Error (List String) :=
  match fields.get? "select" with
  | none => .ok []
  | some (.array names) => namesOfJson names
  | some _ => refuse .selectNotList

/-- Options as JSON. The number of rows to leave out has two names, and `offset` comes first. -/
def ofJson : Json → Except Error FindOptions
  | .null => .ok {}
  | .object fields => do
    let sort ← sortOfJson fields
    let limit ← countOfJson fields "limit"
    let offset ← match ← countOfJson fields "offset" with
      | some n => .ok (some n)
      | none => countOfJson fields "skip"
    let select ← selectOfJson fields
    .ok { sort, limit, offset, select }
  | value => refuse (.optionsNotObject value.kind)

end FindOptions
end StoreBridge
