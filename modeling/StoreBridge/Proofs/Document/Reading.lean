import StoreBridge.Document.Query

/-!
How the store reads a query. Every entry must hold; the combinations are read by their names, a
field bound to operators asks for each of them, and a field bound to anything else asks to equal
it. A pattern and its options are one test. The truth of the tests is left open.
-/
namespace StoreBridge

inductive StoredTest where
  | operator (field key : String) (operand : Bson)
  | pattern (field : String) (regex : Bson) (options : Option Bson)
  deriving Repr

namespace Query
variable (β : StoredTest → Bool)

def operatorHolds (field : String) (options : Option Bson) : String × Bson → Bool
  | (key, operand) =>
    if key = "$regex" then β (.pattern field operand options)
    else if key = "$options" then true
    else β (.operator field key operand)

def operatorsHold (field : String) (operators : Document) : Bool :=
  operators.all (operatorHolds β field (operators.get? "$options"))

mutual

def holds : List (String × Bson) → Bool
  | [] => true
  | (key, value) :: rest => entryHolds key value && holds rest

def entryHolds (key : String) : Bson → Bool
  | .array clauses =>
    if key = "$and" then allHold clauses
    else if key = "$or" then anyHolds clauses
    else if key = "$nor" then !anyHolds clauses
    else β (.operator key "$eq" (.array clauses))
  | .document d =>
    if isOperators d then operatorsHold β key d else β (.operator key "$eq" (.document d))
  | value => β (.operator key "$eq" value)

def allHold : List Bson → Bool
  | [] => true
  | clause :: rest => clauseHolds clause && allHold rest

def anyHolds : List Bson → Bool
  | [] => false
  | clause :: rest => clauseHolds clause || anyHolds rest

/-- Only a document is a clause. -/
def clauseHolds : Bson → Bool
  | .document d => holds d
  | _ => false

end

end Query
end StoreBridge
