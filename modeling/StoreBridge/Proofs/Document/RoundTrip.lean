import StoreBridge.Proofs.Document.Boundary
import StoreBridge.Proofs.Text.HexDigits

/-!
Records that go into the store and come back. Identities stand in front, the values that only the
store knows have become text, and text that was read as an identity is written in small letters. All
else is as it was, and a second time nothing changes.
-/
namespace StoreBridge
open Branching

def Record.idFirst (r : Record) : Record :=
  r.filter (fun e => e.1 == recordId) ++ r.filter fun e => !(e.1 == recordId)

namespace Value

def normalisedText (mode : IdentityMode) (identity : Bool) (s : String) : String :=
  if mode = .objectId ∧ identity ∧ ObjectId.isText s then Text.lower s else s

mutual

def normalised (mode : IdentityMode) (identity : Bool) : Value → Value
  | .null => .null
  | .bool b => .bool b
  | .int i => .int i
  | .float x => .float x
  | .text s => .text (normalisedText mode identity s)
  | .bytes b => .bytes b
  | .timestamp t => .text (Instant.clampMillis t.toMillis).iso8601
  | .objectId id => .text id.text
  | .array items => .array (normalisedItems mode identity items)
  | .object fields => .object (Record.idFirst (normalisedFields mode fields))

def normalisedItems (mode : IdentityMode) (identity : Bool) : List Value → List Value
  | [] => []
  | item :: rest => item.normalised mode identity :: normalisedItems mode identity rest

def normalisedFields (mode : IdentityMode) : List (String × Value) → List (String × Value)
  | [] => []
  | (key, value) :: rest =>
    (key, value.normalised mode (key == recordId)) :: normalisedFields mode rest

end

/-- No field has the name of the stored identity or of an operator. -/
abbrev Plain : Value → Prop :=
  Named fun names => ∀ name ∈ names, name ≠ storedId ∧ ¬IdentityMode.isOperatorName name

variable {mode : IdentityMode} {identity : Bool}

theorem normalisedItems_map (items : List Value) :
    normalisedItems mode identity items = items.map (normalised mode identity) := by
  induction items with
  | nil => rfl
  | cons item rest ih => rw [normalisedItems, ih, List.map_cons]

theorem normalisedFields_map (fields : List (String × Value)) :
    normalisedFields mode fields =
      fields.map fun e => (e.1, e.2.normalised mode (e.1 == recordId)) := by
  induction fields with
  | nil => rfl
  | cons field rest ih => rw [normalisedFields, ih, List.map_cons]

theorem keys_normalisedFields (fields : List (String × Value)) :
    Entries.keys (normalisedFields mode fields) = Entries.keys fields := by
  rw [normalisedFields_map, Entries.keys_map fun name => normalised mode (name == recordId)]

end Value

def Record.normalised (mode : IdentityMode) (r : Record) : Record :=
  idFirst (Value.normalisedFields mode r)

namespace Record
variable {r front behind : Record} {identity : Value}

theorem filter_named {name : String} (absent : name ∉ Entries.keys r) :
    r.filter (fun e => e.1 == name) = [] ∧ r.filter (fun e => !(e.1 == name)) = r := by
  constructor
  · rw [List.filter_eq_nil_iff]
    intro e mem
    simpa using Entries.ne_of_absent absent mem
  · rw [List.filter_eq_self]
    intro e mem
    simpa using Entries.ne_of_absent absent mem

theorem filter_beside (noId : recordId ∉ Entries.keys r) (noStored : storedId ∉ Entries.keys r) :
    r.filter (fun e => e.1 != storedId && e.1 != recordId) = r := by
  rw [List.filter_eq_self]
  intro e mem
  simp [Entries.ne_of_absent noStored mem, Entries.ne_of_absent noId mem]

theorem renamed_absent (absent : recordId ∉ Entries.keys r) :
    r.map (fun e => (IdentityMode.fieldName e.1, e.2)) = r := by
  refine (List.map_congr_left fun e mem => ?_).trans (List.map_id r)
  rw [IdentityMode.fieldName, if_neg (Entries.ne_of_absent absent mem)]
  rfl

theorem idFirst_absent (absent : recordId ∉ Entries.keys r) : r.idFirst = r := by
  obtain ⟨none, all⟩ := filter_named absent
  rw [idFirst, none, all, List.nil_append]

theorem idFirst_split (before : recordId ∉ Entries.keys front)
    (after : recordId ∉ Entries.keys behind) :
    idFirst (front ++ (recordId, identity) :: behind) =
      (recordId, identity) :: (front ++ behind) := by
  obtain ⟨noneBefore, allBefore⟩ := filter_named before
  obtain ⟨noneAfter, allAfter⟩ := filter_named after
  simp only [idFirst, List.filter_append, List.filter_cons, noneBefore, allBefore, noneAfter,
    allAfter, beq_self_eq_true, if_true, Bool.not_true, Bool.false_eq_true, if_false,
    List.nil_append, List.cons_append]

theorem idFirst_perm (r : Record) : r.idFirst.Perm r :=
  List.filter_append_perm (fun e : String × Value => e.1 == recordId) r

theorem idFirst_idFirst (r : Record) : r.idFirst.idFirst = r.idFirst := by
  have none : r.filter (fun _ => false) = [] := List.filter_eq_nil_iff.mpr (by simp)
  simp only [idFirst, List.filter_append, List.filter_filter, Bool.and_self, Bool.and_not_self,
    Bool.not_and_self, none, List.append_nil, List.nil_append]

theorem ofStored_renamed (distinct : (Entries.keys r).Nodup) (own : storedId ∉ Entries.keys r) :
    ofStored (r.map fun e => (IdentityMode.fieldName e.1, e.2)) = r.idFirst := by
  cases there : Entries.get? r recordId with
  | none =>
    have absent := Entries.get?_none_iff.mp there
    rw [renamed_absent absent, idFirst_absent absent,
      ofStored_plain (Entries.get?_none_iff.mpr own)]
  | some identity =>
    obtain ⟨front, behind, rfl, before, after⟩ := Entries.split_at distinct there
    rw [Entries.keys, List.map_append, List.map_cons, List.mem_append, List.mem_cons, not_or,
      not_or] at own
    obtain ⟨ownBefore, _, ownAfter⟩ := own
    have renamed : (front ++ (recordId, identity) :: behind).map
        (fun e => (IdentityMode.fieldName e.1, e.2)) = front ++ (storedId, identity) :: behind := by
      rw [List.map_append, List.map_cons, renamed_absent before, renamed_absent after]
      rfl
    have stored : Entries.get? (front ++ (storedId, identity) :: behind) storedId =
        some identity := by
      rw [Entries.get?_append, Entries.get?_none_iff.mpr ownBefore, Option.none_or, Entries.get?,
        if_pos rfl]
    rw [renamed, idFirst_split before after, ofStored_identity stored, List.filter_append,
      filter_beside before ownBefore, List.filter_cons, filter_beside after ownAfter]
    simp

end Record

namespace IdentityMode
variable {mode : IdentityMode}

theorem toValue_textValue (identity : Bool) (s : String) :
    (mode.textValue identity s).toValue = .text (Value.normalisedText mode identity s) := by
  by_cases hex : ObjectId.isText s
  · obtain ⟨id, read, written⟩ := ObjectId.ofText?_isText hex
    cases mode <;> cases identity <;>
      simp [textValue, Value.normalisedText, read, hex, written, Bson.toValue]
  · have read := ObjectId.ofText?_other hex
    cases mode <;> cases identity <;>
      simp [textValue, Value.normalisedText, read, hex, Bson.toValue]

theorem toValue_ofInt64 (i : Int64) : (Bson.ofInt64 i).toValue = .int i := by
  unfold Bson.ofInt64
  split
  · rename_i fits
    rw [Bson.toValue, fits]
  · rfl

theorem storedFields_distinct {fields : List (String × Value)}
    (distinct : (Entries.keys fields).Nodup) (own : storedId ∉ Entries.keys fields) :
    (Entries.keys (mode.storedFields fields)).Nodup := by
  rw [keys_storedFields, List.nodup_iff_pairwise_ne, List.pairwise_map]
  refine distinct.imp_of_mem fun {one other} inside behind apart same => ?_
  have unstored {name : String} (mem : name ∈ Entries.keys fields) : name ≠ storedId :=
    fun named => own (named ▸ mem)
  unfold fieldName at same
  split at same <;> split at same
  · simp_all
  · exact unstored behind same.symm
  · exact unstored inside same
  · exact apart same

/-- The stored form of a value is read as its normal form. -/
theorem toValue_stored (identity : Bool) {v : Value} (distinct : Everywhere Value.Distinct v)
    (plain : Everywhere Value.Plain v) :
    (mode.stored identity v).toValue = v.normalised mode identity := by
  induction v using Value.induct generalizing identity with
  | step v ih =>
    cases v with
    | array items =>
      have each : ∀ item ∈ items, (mode.stored identity item).toValue =
          item.normalised mode identity := by
        refine forall_itemParts.mp fun e mem => ih e mem identity ?_ ?_
        · exact (everywhere_iff.mp distinct).2 e mem
        · exact (everywhere_iff.mp plain).2 e mem
      rw [stored, Bson.toValue, Value.normalised, storedItems_map, Bson.toValues_map,
        Value.normalisedItems_map, List.map_map, Value.array.injEq]
      exact List.map_congr_left each
    | object fields =>
      obtain ⟨names, inside⟩ := Value.everywhere_object.mp distinct
      obtain ⟨own, deeper⟩ := Value.everywhere_object.mp plain
      have each : ∀ field ∈ fields, ∀ identity, (mode.stored identity field.2).toValue =
          field.2.normalised mode identity := by
        intro field mem identity
        exact ih (.field field.1, field.2) (List.mem_map_of_mem mem) identity (inside field mem)
          (deeper field mem)
      have written : (mode.storedFields fields).map (fun e => (e.1, e.2.toValue)) =
          (Value.normalisedFields mode fields).map fun e => (fieldName e.1, e.2) := by
        rw [storedFields_map, Value.normalisedFields_map, List.map_map, List.map_map]
        refine List.map_congr_left fun field mem => ?_
        have literal := (own field.1 (List.mem_map_of_mem mem)).2
        simp only [Function.comp_apply, storedField, if_neg literal, fieldValue,
          each field mem]
      -- No two fields share a stored name, so none is written over another.
      have unstored : storedId ∉ Entries.keys fields := fun mem => (own storedId mem).1 rfl
      rw [stored, Bson.toValue, Entries.ofList_distinct (storedFields_distinct names unstored),
        Bson.toFields_map, written, Record.ofStored_renamed, Value.normalised]
      · rwa [Value.keys_normalisedFields]
      · rwa [Value.keys_normalisedFields]
    | text s => exact toValue_textValue identity s
    | int i => exact toValue_ofInt64 i
    | _ => rfl

end IdentityMode

/-! The normal form is in normal form. -/

namespace Value
variable {mode : IdentityMode} {identity : Bool}

theorem normalisedText_twice (s : String) :
    normalisedText mode identity (normalisedText mode identity s) =
      normalisedText mode identity s := by
  by_cases reads : mode = .objectId ∧ identity ∧ ObjectId.isText s
  · obtain ⟨id, _, written⟩ := ObjectId.ofText?_isText reads.2.2
    have small : normalisedText mode identity s = id.text := by
      rw [normalisedText, if_pos reads, written]
    rw [small, normalisedText, ObjectId.lower_text, ite_self]
  · have same : normalisedText mode identity s = s := if_neg reads
    rw [same, same]

theorem normalisedText_timestamp (t : Instant) :
    normalisedText mode identity t.iso8601 = t.iso8601 := by
  refine if_neg fun reads => ?_
  have zone : 'Z' ∈ t.iso8601.toList := by simp [Instant.iso8601]
  exact absurd ((ObjectId.isText_iff.mp reads.2.2).2 'Z' zone) (by decide)

theorem normalisedText_objectId (id : ObjectId) :
    normalisedText mode identity id.text = id.text := by
  rw [normalisedText, ObjectId.lower_text, ite_self]

theorem normalisedFields_idFirst (r : Record) :
    normalisedFields mode r.idFirst = Record.idFirst (normalisedFields mode r) := by
  simp only [normalisedFields_map, Record.idFirst, List.map_append, List.filter_map,
    Function.comp_def]

theorem normalised_twice (identity : Bool) (v : Value) :
    (v.normalised mode identity).normalised mode identity = v.normalised mode identity := by
  induction v using Value.induct generalizing identity with
  | step v ih =>
    cases v with
    | array items =>
      have each : ∀ item ∈ items, (item.normalised mode identity).normalised mode identity =
          item.normalised mode identity :=
        forall_itemParts.mp fun e mem => ih e mem identity
      simp only [normalised, normalisedItems_map, List.map_map, Value.array.injEq]
      exact List.map_congr_left each
    | object fields =>
      have again : normalisedFields mode (normalisedFields mode fields) =
          normalisedFields mode fields := by
        simp only [normalisedFields_map, List.map_map]
        refine List.map_congr_left fun field mem => ?_
        exact congrArg (Prod.mk field.1)
          (ih (.field field.1, field.2) (List.mem_map_of_mem mem) (field.1 == recordId))
      simp only [normalised]
      rw [normalisedFields_idFirst, again, Record.idFirst_idFirst]
    | text s => simp only [normalised, normalisedText_twice]
    | timestamp t => simp only [normalised, normalisedText_timestamp]
    | objectId id => simp only [normalised, normalisedText_objectId]
    | _ => rfl

theorem named_normalised {P : List String → Prop} (identity : Bool) {v : Value}
    (order : ∀ one other, one.Perm other → P one → P other) (named : Everywhere (Named P) v) :
    Everywhere (Named P) (v.normalised mode identity) := by
  induction v using Value.induct generalizing identity with
  | step v ih =>
    cases v with
    | array items =>
      refine everywhere_array.mpr ⟨trivial, ?_⟩
      rw [normalisedItems_map, List.forall_mem_map]
      exact forall_itemParts.mp fun e mem => ih e mem identity ((everywhere_iff.mp named).2 e mem)
    | object fields =>
      obtain ⟨own, inside⟩ := everywhere_object.mp named
      refine everywhere_object.mpr ⟨?_, fun field mem => ?_⟩
      · refine order _ _ ((Record.idFirst_perm _).map Prod.fst).symm ?_
        change P (Entries.keys (normalisedFields mode fields))
        rwa [keys_normalisedFields]
      · have written := (Record.idFirst_perm _).mem_iff.mp mem
        rw [normalisedFields_map] at written
        obtain ⟨origin, old, rfl⟩ := List.mem_map.mp written
        exact ih (.field origin.1, origin.2) (List.mem_map_of_mem old) _ (inside origin old)
    | _ => exact (everywhere_leaf rfl).mpr trivial

end Value

/-- A record that is stored and read again is its normal form, and stays so. -/
theorem round_trip_normalised (mode : IdentityMode) {record : Record}
    (distinct : Everywhere Value.Distinct (.object record))
    (plain : Everywhere Value.Plain (.object record)) :
    let back r := Record.ofDocument (mode.document r)
    back record = record.normalised mode ∧ back (back record) = back record := by
  intro back
  have once {r : Record} (distinct : Everywhere Value.Distinct (.object r))
      (plain : Everywhere Value.Plain (.object r)) : back r = r.normalised mode :=
    Value.object.inj (IdentityMode.toValue_stored false distinct plain)
  have first := once distinct plain
  refine ⟨first, ?_⟩
  have second : back (record.normalised mode) = record.normalised mode := by
    rw [once]
    · exact Value.object.inj (Value.normalised_twice false (.object record))
    · exact Value.named_normalised false (fun _ _ same => same.nodup_iff.mp) distinct
    · refine Value.named_normalised false (fun _ _ same all name mem => ?_) plain
      exact all name (same.mem_iff.mpr mem)
  rw [first, second]

/-- An identity among data, and data that reads like one. -/
theorem round_trip_nested :
    let record : Record :=
      [("code", .text "0123456789ABCDEF01234567"), ("id", .text "0123456789ABCDEF01234567"),
        ("parts", .array [.object [("made", .timestamp ⟨1, 0⟩), ("id", .objectId ⟨5⟩)]])]
    let once : Record :=
      [("id", .text "0123456789abcdef01234567"), ("code", .text "0123456789ABCDEF01234567"),
        ("parts", .array [.object [("id", .text "000000000000000000000005"),
          ("made", .text "1970-01-01T00:00:01.000Z")]])]
    Everywhere Value.Distinct (.object record) ∧ Everywhere Value.Plain (.object record) ∧
      Record.ofDocument (IdentityMode.objectId.document record) = once ∧
      Record.ofDocument (IdentityMode.objectId.document once) = once := by
  intro record once
  have distinct : Everywhere Value.Distinct (.object record) := by
    simp [record, Value.everywhere_object, Value.everywhere_array, everywhere_leaf, parts,
      Value.Named, Entries.keys]
  have plain : Everywhere Value.Plain (.object record) := by
    simp [record, Value.everywhere_object, Value.everywhere_array, everywhere_leaf, parts,
      Value.Named, Entries.keys, storedId, IdentityMode.isOperatorName]
  have read : ObjectId.isText "0123456789ABCDEF01234567" := by decide
  have small : Text.lower "0123456789ABCDEF01234567" = "0123456789abcdef01234567" := by
    decide +kernel
  have digits : ObjectId.text ⟨5#96⟩ = "000000000000000000000005" := by decide +kernel
  have time : (Instant.clampMillis (Instant.toMillis ⟨1, 0⟩)).iso8601 =
      "1970-01-01T00:00:01.000Z" := by
    decide +kernel
  have normal : record.normalised .objectId = once := by
    simp [record, once, Record.normalised, Value.normalisedFields, Value.normalisedItems,
      Value.normalised, Value.normalisedText, Record.idFirst, recordId, read, small, digits, time]
  obtain ⟨first, second⟩ := round_trip_normalised .objectId distinct plain
  rw [normal] at first
  rw [first] at second
  exact ⟨distinct, plain, first, second⟩

end StoreBridge
