import StoreBridge.Error
import StoreBridge.Schema.Basic

/-!
Table schemas as JSON: an object from column names to column descriptions. A description is an
object, or an array of the same properties in their order. The first property that does not fit
is reported.
-/
namespace StoreBridge
namespace ColumnSpec

def found : Json → Found
  | .null => .null
  | .bool b => .boolean b
  | .integer i => .integer i
  | .float x => .float x
  | .string s => .string s
  | .array _ => .sequence
  | .object _ => .map

/-- The properties of a column, in the order that an array lists them. -/
inductive Property where
  | type | length | required | unique | primaryKey | autoIncrement | default | choices
  deriving DecidableEq, Repr

namespace Property

def key : Property → String
  | .type => "type"
  | .length => "length"
  | .required => "required"
  | .unique => "unique"
  | .primaryKey => "primaryKey"
  | .autoIncrement => "autoIncrement"
  | .default => "default"
  | .choices => "enum"

def all : List Property :=
  [.type, .length, .required, .unique, .primaryKey, .autoIncrement, .default, .choices]

def ofKey? (key : String) : Option Property := all.find? fun p => p.key == key

end Property

def textOfJson : Json → Except ColumnError String
  | .string s => .ok s
  | value => .error (.mismatch (found value) .string)

def flagOfJson : Json → Except ColumnError Bool
  | .bool b => .ok b
  | value => .error (.mismatch (found value) .boolean)

def lengthOfJson : Json → Except ColumnError (Option Nat)
  | .null => .ok none
  | .integer i => if 0 ≤ i ∧ i < 2 ^ 32 then .ok (some i.toNat) else .error (.outOfRange i)
  | value => .error (.mismatch (found value) .length)

def choicesOfJson : Json → Except ColumnError (Option (List Value))
  | .null => .ok none
  | .array items => .ok (some (items.map Value.ofJson))
  | value => .error (.mismatch (found value) .sequence)

def defaultOfJson : Json → Option Value
  | .null => none
  | value => some (Value.ofJson value)

def write (spec : ColumnSpec) (value : Json) : Property → Except ColumnError ColumnSpec
  | .type => (textOfJson value).map fun v => { spec with type := v }
  | .length => (lengthOfJson value).map fun v => { spec with length := v }
  | .required => (flagOfJson value).map fun v => { spec with required := v }
  | .unique => (flagOfJson value).map fun v => { spec with unique := v }
  | .primaryKey => (flagOfJson value).map fun v => { spec with primaryKey := v }
  | .autoIncrement => (flagOfJson value).map fun v => { spec with autoIncrement := v }
  | .default => .ok { spec with default := defaultOfJson value }
  | .choices => (choicesOfJson value).map fun v => { spec with choices := v }

/-- Writes named properties. Names that no property has are passed over. -/
def writeNamed (spec : ColumnSpec) : List (String × Json) → Except ColumnError ColumnSpec
  | [] => .ok spec
  | (key, value) :: rest =>
    match Property.ofKey? key with
    | some property => (spec.write value property).bind fun spec => writeNamed spec rest
    | none => writeNamed spec rest

def writeListed (spec : ColumnSpec) :
    List Property → List Json → Except ColumnError ColumnSpec
  | property :: properties, value :: rest =>
    (spec.write value property).bind fun spec => writeListed spec properties rest
  | _, _ => .ok spec

def ofJson : Json → Except ColumnError ColumnSpec
  | .object fields => do
    let spec ← writeNamed { type := "" } fields
    if Entries.contains fields "type" then .ok spec else .error .missingType
  | .array items => do
    if items.isEmpty then .error .empty
    else
      let spec ← writeListed { type := "" } Property.all items
      if Property.all.length < items.length then .error (.tooLong items.length) else .ok spec
  | value => .error (.mismatch (found value) .column)

end ColumnSpec

namespace TableSchema

def columnsOfJson : List (String × Json) → Except Error (List (String × ColumnSpec))
  | [] => .ok []
  | (name, value) :: rest =>
    match ColumnSpec.ofJson value with
    | .error cause => refuse (.column name cause)
    | .ok spec => (columnsOfJson rest).map ((name, spec) :: ·)

def ofJson : Json → Except Error TableSchema
  | .object fields => (columnsOfJson fields).map fun columns => ⟨columns⟩
  | _ => refuse .schemaNotObject

end TableSchema
end StoreBridge
