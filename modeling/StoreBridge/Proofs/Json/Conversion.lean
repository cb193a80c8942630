import StoreBridge.Proofs.Document.Paths
import StoreBridge.Proofs.Entries

/-!
JSON that becomes a value and JSON again, and values that become JSON and values again. What comes
back is what went in, with the order of names, exactly where no part of it is of a kind that the
other side cannot say: numbers beyond the range of both, and the kinds that JSON writes as others.
-/
namespace StoreBridge
open Branching

theorem map_eq_self_iff {α : Type} {f : α → α} {items : List α} :
    items.map f = items ↔ ∀ item ∈ items, f item = item := by
  simpa using List.map_inj_left (l := items) (f := f) (g := id)

/-- Entries that are converted and written one after another are the entries as they were where no
    name stands twice and each value is converted to itself. -/
theorem Entries.ofList_map_eq_self_iff {α : Type} {f : α → α} {m : Entries α} :
    ofList (m.map fun e => (e.1, f e.2)) = m ↔ (keys m).Nodup ∧ ∀ e ∈ m, f e.2 = e.2 := by
  have named : keys (m.map fun e => (e.1, f e.2)) = keys m := keys_map (fun _ => f) m
  have written (distinct : (keys m).Nodup) :
      ofList (m.map fun e => (e.1, f e.2)) = m.map fun e => (e.1, f e.2) :=
    ofList_distinct (by rwa [named])
  have kept : (m.map fun e => (e.1, f e.2)) = m ↔ ∀ e ∈ m, f e.2 = e.2 := by
    simp [map_eq_self_iff, Prod.ext_iff]
  constructor
  · intro same
    have distinct : (keys m).Nodup := by
      rw [← same]
      exact merge_distinct (m := []) List.nodup_nil _
    exact ⟨distinct, kept.mp ((written distinct).symm.trans same)⟩
  · rintro ⟨distinct, each⟩
    exact (written distinct).trans (kept.mpr each)

instance : Branching Json where
  parts
    | .array items => itemParts items
    | .object fields => entryParts fields
    | _ => []

namespace Json
variable {P : Json → Prop}

theorem sizeOf_parts (j : Json) : ∀ e ∈ parts j, sizeOf e.2 < sizeOf j := by
  intro e mem
  cases j with
  | array items =>
    have smaller := sizeOf_itemParts e mem
    simp only [Json.array.sizeOf_spec]
    omega
  | object fields =>
    have smaller := sizeOf_entryParts e mem
    simp only [Json.object.sizeOf_spec]
    omega
  | _ => simp [parts] at mem

theorem everywhere_array {items : List Json} :
    Everywhere P (.array items) ↔ P (.array items) ∧ ∀ item ∈ items, Everywhere P item :=
  everywhere_iff.trans (and_congr_right fun _ => forall_itemParts)

theorem everywhere_object {fields : List (String × Json)} :
    Everywhere P (.object fields) ↔
      P (.object fields) ∧ ∀ field ∈ fields, Everywhere P field.2 :=
  everywhere_iff.trans (and_congr_right fun _ => forall_entryParts)

/-- Whole numbers fit into 64 bits with a sign. Doubles are finite and no name stands twice, as in
    all JSON. -/
def Kept : Json → Prop
  | .integer i => Digits.inInt64 i
  | .float x => x.isFinite
  | .object fields => (Entries.keys fields).Nodup
  | _ => True

end Json

namespace Value

/-- The value is of a kind that JSON has, and a double is finite. No name stands twice, as in all
    records. -/
def Kept : Value → Prop
  | .float x => x.isFinite
  | .bytes _ | .timestamp _ | .objectId _ => False
  | .object fields => (Entries.keys fields).Nodup
  | _ => True

theorem toJson_integer_iff (i : Int) :
    (ofJson (.integer i)).toJson = .integer i ↔ Json.Kept (.integer i) := by
  rw [ofJson, Json.Kept]
  split
  · rename_i fits
    refine iff_of_true ?_ fits
    simp only [Digits.inInt64, Bool.and_eq_true, decide_eq_true_eq] at fits
    rw [toJson, Int64.toInt_ofInt_of_le fits.1 fits.2]
  · rename_i beyond
    refine iff_of_false ?_ beyond
    rw [toJson]
    split <;> simp

theorem toJson_float_iff (x : Binary64) :
    (ofJson (.float x)).toJson = .float x ↔ Json.Kept (.float x) := by
  rw [ofJson, toJson, Json.Kept]
  split <;> simp_all

theorem toJson_ofJson_object (fields : List (String × Json)) :
    (ofJson (.object fields)).toJson =
      .object (Entries.ofList (fields.map fun e => (e.1, (ofJson e.2).toJson))) := by
  have again := Entries.merge_map toJson [] (fieldsOfJson fields)
  rw [fieldsOfJson_map, List.map_map] at again
  rw [ofJson, toJson, fieldsToJson_map, fieldsOfJson_map]
  exact congrArg Json.object again.symm

theorem toJson_ofJson_iff (j : Json) : (ofJson j).toJson = j ↔ Everywhere Json.Kept j := by
  induction j using Branching.induct Json.sizeOf_parts with
  | step j ih =>
    cases j with
    | array items =>
      have each : ∀ item ∈ items, (ofJson item).toJson = item ↔ Everywhere Json.Kept item :=
        forall_itemParts.mp ih
      rw [Json.everywhere_array, ofJson, itemsOfJson_map, toJson, itemsToJson_map, List.map_map,
        Json.array.injEq, map_eq_self_iff]
      exact (forall₂_congr each).trans (and_iff_right trivial).symm
    | object fields =>
      have each : ∀ field ∈ fields, (ofJson field.2).toJson = field.2 ↔
          Everywhere Json.Kept field.2 :=
        forall_entryParts (P := fun j => (ofJson j).toJson = j ↔ Everywhere Json.Kept j).mp ih
      rw [Json.everywhere_object, toJson_ofJson_object, Json.object.injEq]
      refine (Entries.ofList_map_eq_self_iff (f := fun j => (ofJson j).toJson)).trans ?_
      exact and_congr_right fun _ => forall₂_congr each
    | integer i => exact (toJson_integer_iff i).trans (everywhere_leaf rfl).symm
    | float x => exact (toJson_float_iff x).trans (everywhere_leaf rfl).symm
    | null | bool | string => exact iff_of_true rfl ((everywhere_leaf rfl).mpr trivial)

theorem ofJson_int (i : Int64) : ofJson (toJson (.int i)) = .int i := by
  have fits : Digits.inInt64 i.toInt := by
    simp only [Digits.inInt64, Bool.and_eq_true, decide_eq_true_eq]
    exact ⟨i.le_toInt, i.toInt_lt⟩
  rw [toJson, ofJson, if_pos fits, Int64.ofInt_toInt]

theorem ofJson_float_iff (x : Binary64) :
    ofJson (toJson (.float x)) = .float x ↔ Kept (.float x) := by
  rw [toJson, Kept]
  split <;> simp_all [ofJson]

theorem ofJson_toJson_object (fields : List (String × Value)) :
    ofJson (toJson (.object fields)) =
      .object (Entries.ofList (fields.map fun e => (e.1, ofJson e.2.toJson))) := by
  rw [toJson, fieldsToJson_map, ofJson, fieldsOfJson_map, List.map_map]
  rfl

theorem ofJson_toJson_iff (v : Value) : ofJson v.toJson = v ↔ Everywhere Kept v := by
  induction v using Value.induct with
  | step v ih =>
    cases v with
    | array items =>
      have each : ∀ item ∈ items, ofJson item.toJson = item ↔ Everywhere Kept item :=
        forall_itemParts.mp ih
      rw [everywhere_array, toJson, itemsToJson_map, ofJson, itemsOfJson_map, List.map_map,
        Value.array.injEq, map_eq_self_iff]
      exact (forall₂_congr each).trans (and_iff_right trivial).symm
    | object fields =>
      have each : ∀ field ∈ fields, ofJson field.2.toJson = field.2 ↔
          Everywhere Kept field.2 :=
        forall_entryParts (P := fun v => ofJson v.toJson = v ↔ Everywhere Kept v).mp ih
      rw [everywhere_object, ofJson_toJson_object, Value.object.injEq]
      refine (Entries.ofList_map_eq_self_iff (f := fun v => ofJson v.toJson)).trans ?_
      exact and_congr_right fun _ => forall₂_congr each
    | int i => exact iff_of_true (ofJson_int i) ((everywhere_leaf rfl).mpr trivial)
    | float x => exact (ofJson_float_iff x).trans (everywhere_leaf rfl).symm
    | bytes | timestamp | objectId =>
      exact iff_of_false (by simp [toJson, ofJson]) fun kept => (everywhere_leaf rfl).mp kept
    | null | bool | text => exact iff_of_true rfl ((everywhere_leaf rfl).mpr trivial)

end Value

/-- JSON that becomes a value and values that become JSON come back as they were, with their names
    in order, but for the numbers and the kinds that only one side has. -/
theorem conversions_lossless (j : Json) (v : Value) :
    ((Value.ofJson j).toJson = j ↔ Everywhere Json.Kept j) ∧
      (Value.ofJson v.toJson = v ↔ Everywhere Value.Kept v) :=
  ⟨Value.toJson_ofJson_iff j, Value.ofJson_toJson_iff v⟩

/-- The ends of the range of whole numbers, a zero with a sign, and names that are out of order. -/
theorem conversions_lossless_nested :
    let j : Json := .object [("zeta", .array [.integer (2 ^ 63 - 1), .integer (-2 ^ 63)]),
      ("alpha", .object [("b", .float ⟨0x8000000000000000#64⟩), ("a", .array [])])]
    let v : Value := .object [("zeta", .array [.int Int64.maxValue, .int Int64.minValue]),
      ("alpha", .object [("b", .float ⟨0x8000000000000000#64⟩), ("a", .null)])]
    Everywhere Json.Kept j ∧ (Value.ofJson j).toJson = j ∧
      Everywhere Value.Kept v ∧ Value.ofJson v.toJson = v := by
  intro j v
  have said : Everywhere Json.Kept j := by
    simp [j, Json.everywhere_object, Json.everywhere_array, everywhere_leaf, parts, Json.Kept,
      Entries.keys, Digits.inInt64, Binary64.isFinite, Binary64.exponentField]
  have spoken : Everywhere Value.Kept v := by
    simp [v, Value.everywhere_object, Value.everywhere_array, everywhere_leaf, parts, Value.Kept,
      Entries.keys, Binary64.isFinite, Binary64.exponentField]
  exact ⟨said, (conversions_lossless j v).1.mpr said, spoken,
    (conversions_lossless j v).2.mpr spoken⟩

end StoreBridge
