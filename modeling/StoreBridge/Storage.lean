import StoreBridge.Backend
import StoreBridge.Value

/-!
Values in the form that a dialect stores. What a dialect has no type for becomes text or a number,
and nothing is escaped, because a value is never a part of a statement's text.
-/
namespace StoreBridge.Dialect

def stored (d : Dialect) : Value → Value
  | .timestamp t => if d.storesTimes then .timestamp t else .text t.iso8601
  | .bool b => if d.storesBooleans then .bool b else .int (if b then 1 else 0)
  | .array items =>
    if d.storesStructures then .array items else .text (Value.array items).jsonText
  | .object fields =>
    if d.storesStructures then .object fields else .text (Value.object fields).jsonText
  | .objectId id => if d.isSql then .text id.text else .objectId id
  | value => value

def storedItems (d : Dialect) (items : List Value) : List Value := items.map d.stored

end StoreBridge.Dialect
