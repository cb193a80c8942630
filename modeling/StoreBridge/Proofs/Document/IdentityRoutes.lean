import StoreBridge.Proofs.Document.Boundary
import StoreBridge.Document.Query

/-!
The routes by which an identity comes to the store: with the record that is stored, in a filter, and
alone, in the query for one document. All take it to the same stored form, but for two cases. A
field `_id` behind the identity takes its place, and a raw identity is put into the query for one
document as it is, with an `id` inside it left where the other routes rename it.
-/
namespace StoreBridge
open Branching

theorem Bson.ofValues_map (values : List Value) : ofValues values = values.map ofValue := by
  induction values with
  | nil => rfl
  | cons value rest ih => rw [ofValues, ih, List.map_cons]

theorem Bson.ofFields_map (fields : List (String × Value)) :
    ofFields fields = fields.map fun e => (e.1, ofValue e.2) := by
  induction fields with
  | nil => rfl
  | cons field rest ih => rw [ofFields, ih, List.map_cons]

/-- No field inside a value is an identity, unless it stands under an operator. -/
def Value.Unnamed (v : Value) : Prop :=
  ∀ path fields, Reaches v path (.object fields) → (∀ step ∈ path, step.IsPlain) →
    recordId ∉ Entries.keys fields

namespace Value
variable {items : List Value} {fields : List (String × Value)}

theorem unnamed_of_leaf {v : Value} (leaf : parts v = []) (other : ∀ fields, v ≠ .object fields) :
    v.Unnamed := by
  intro path fields reached _
  cases reached with
  | here => exact absurd rfl (other fields)
  | step there _ => simp [leaf] at there

theorem unnamed_array : Unnamed (.array items) ↔ ∀ item ∈ items, item.Unnamed := by
  rw [← forall_itemParts]
  constructor
  · intro all e mem path fields reached plain
    obtain ⟨_, _, rfl⟩ := List.mem_map.mp mem
    exact all _ fields (.step mem reached) (List.forall_mem_cons.mpr ⟨trivial, plain⟩)
  · intro each path fields reached plain
    cases reached with
    | step there behind =>
      exact each _ there _ fields behind (List.forall_mem_cons.mp plain).2

theorem unnamed_object :
    Unnamed (.object fields) ↔ recordId ∉ Entries.keys fields ∧
      ∀ field ∈ fields, ¬IdentityMode.isOperatorName field.1 → field.2.Unnamed := by
  constructor
  · intro all
    refine ⟨all [] fields (.here _) (by simp), ?_⟩
    intro field mem literal path inner reached plain
    exact all (.field field.1 :: path) inner (.step (List.mem_map_of_mem mem) reached)
      (List.forall_mem_cons.mpr ⟨literal, plain⟩)
  · rintro ⟨own, each⟩ path inner reached plain
    cases reached with
    | here => exact own
    | step there behind =>
      obtain ⟨field, mem, same⟩ := List.mem_map.mp there
      obtain ⟨rfl, rfl⟩ := Prod.mk.inj same
      obtain ⟨literal, later⟩ := List.forall_mem_cons.mp plain
      exact each field mem literal _ inner behind later

end Value

namespace IdentityMode
variable {mode : IdentityMode} {x : Value}

theorem storedFields_plain {fields : List (String × Value)}
    (absent : recordId ∉ Entries.keys fields) :
    mode.storedFields fields = fields.map fun e => (e.1, (mode.storedField e).2) := by
  rw [storedFields_map]
  refine List.map_congr_left fun field mem => Prod.ext ?_ rfl
  rw [storedField_name, fieldName, if_neg (Entries.ne_of_absent absent mem)]

theorem ofValue_eq_stored_iff (identity : Bool) {v : Value}
    (distinct : Everywhere Value.Distinct v) :
    Bson.ofValue v = stored .raw identity v ↔ v.Unnamed := by
  induction v using Value.induct generalizing identity with
  | step v ih =>
    cases v with
    | array items =>
      have each : ∀ item ∈ items,
          (Bson.ofValue item = stored .raw identity item ↔ item.Unnamed) :=
        forall_itemParts.mp fun e mem => ih e mem identity ((everywhere_iff.mp distinct).2 e mem)
      rw [Bson.ofValue, stored, Bson.array.injEq, Bson.ofValues_map, storedItems_map,
        List.map_inj_left, Value.unnamed_array]
      exact forall₂_congr each
    | object fields =>
      obtain ⟨names, inside⟩ := Value.everywhere_object.mp distinct
      have asIs : Entries.keys (Bson.ofFields fields) = Entries.keys fields := by
        rw [Bson.ofFields_map, Entries.keys_map fun _ => Bson.ofValue]
      rw [Bson.ofValue, Entries.ofList_distinct (asIs ▸ names), Value.unnamed_object]
      -- An `id` is among the names of the one document and not of the other.
      by_cases named : recordId ∈ Entries.keys fields
      · refine iff_of_false (fun same => ?_) fun plain => plain.1 named
        exact recordId_not_mem_stored ⟨identity, .object fields, same.symm⟩ (asIs ▸ named)
      · have apart : (Entries.keys (storedFields .raw fields)).Nodup := by
          rwa [storedFields_plain named,
            Entries.keys_map fun name value => (storedField .raw (name, value)).2]
        have each : ∀ field ∈ fields,
            ((field.1, Bson.ofValue field.2) = storedField .raw field ↔
              (¬isOperatorName field.1 → field.2.Unnamed)) := by
          intro field mem
          have value := ih (.field field.1, field.2) (List.mem_map_of_mem mem)
            (field.1 == recordId) (inside field mem)
          have other := Entries.ne_of_absent named mem
          by_cases literal : isOperatorName field.1
          · simp [storedField, literal]
          · rw [storedField, if_neg literal, fieldName, if_neg other, fieldValue, Prod.mk.injEq,
              and_iff_right rfl]
            exact value.trans (imp_iff_right literal).symm
        rw [stored, Entries.ofList_distinct apart, storedFields_map, Bson.ofFields_map,
          Bson.document.injEq, List.map_inj_left, and_iff_right named]
        exact forall₂_congr each
    | _ => exact iff_of_true rfl (Value.unnamed_of_leaf rfl (by simp))

theorem storedField_identity : mode.storedField (recordId, x) = (storedId, mode.stored true x) := by
  have literal : ¬isOperatorName recordId := by decide
  rw [storedField, if_neg literal, fieldName, if_pos rfl, fieldValue, beq_self_eq_true]

theorem document_identity {front behind : Record}
    (distinct : (Entries.keys behind).Nodup) (absent : recordId ∉ Entries.keys behind) :
    (mode.document (front ++ (recordId, x) :: behind)).get? storedId =
      ((behind.get? storedId).map (mode.stored false)).or (some (mode.stored true x)) := by
  have written : mode.document (front ++ (recordId, x) :: behind) =
      Entries.merge ((mode.document front).insert storedId (mode.stored true x))
        (mode.storedFields behind) := by
    simp only [document, Entries.ofList, Entries.merge, storedFields_map, List.map_append,
      List.foldl_append, List.map_cons, List.foldl_cons, storedField_identity]
  have names : (Entries.keys (mode.storedFields behind)).Nodup := by
    rwa [storedFields_plain absent,
      Entries.keys_map fun name value => (mode.storedField (name, value)).2]
  have last : Entries.get? (mode.storedFields behind) storedId =
      (behind.get? storedId).map (mode.stored false) := by
    have literal : ¬isOperatorName storedId := by decide
    have form : (fun value => (mode.storedField (storedId, value)).2) = mode.stored false := by
      funext value
      rw [storedField, if_neg literal]
      rfl
    rw [storedFields_plain absent,
      Entries.get?_map fun name value => (mode.storedField (name, value)).2, form]
  rw [written, Entries.get?_merge names, last, Entries.get?_insert_self]

end IdentityMode

/-- The identity of a stored record, what a filter asks of the identity, and the query for one
    document: the same stored form, unless a field behind the identity has its stored name, or the
    identity is raw and has identities inside. -/
theorem identity_routes_agree (mode : IdentityMode) (front behind : Record) {x : Value}
    (distinct : Everywhere Value.Distinct (.object (front ++ (recordId, x) :: behind)))
    (present : x.isNull = false) :
    (mode.document (front ++ (recordId, x) :: behind)).get? storedId =
        ((behind.get? storedId).map (mode.stored false)).or (some (mode.stored true x)) ∧
      Query.ofFilter mode (.equals recordId x) = .ok [(storedId, mode.stored true x)] ∧
      (mode.query x = .ok [(storedId, mode.stored true x)] ↔ mode = .raw → x.Unnamed) := by
  obtain ⟨names, inside⟩ := Value.everywhere_object.mp distinct
  obtain ⟨_, absent, later⟩ := Entries.distinct_around names
  refine ⟨IdentityMode.document_identity later absent, rfl, ?_⟩
  have own := inside (recordId, x) (List.mem_append_right _ List.mem_cons_self)
  cases mode with
  | objectId => simp [IdentityMode.query, present]
  | raw =>
    rw [← IdentityMode.ofValue_eq_stored_iff true own]
    simp [IdentityMode.query, present]

/-- A list of generated and of other identities. -/
theorem identity_routes_agree_list :
    let x : Value := .array [.text "0123456789ABCDEF01234567", .object [("id", .int 7)]]
    let stored : Bson :=
      .array [.objectId ⟨0x0123456789ABCDEF01234567⟩, .document [("_id", .int32 7)]]
    let record : Record := [("name", .text "Ann"), ("id", x), ("age", .int 4)]
    Everywhere Value.Distinct (.object record) ∧ x.isNull = false ∧
      (IdentityMode.objectId.document record).get? "_id" = some stored ∧
      Query.ofFilter .objectId (.equals "id" x) = .ok [("_id", stored)] ∧
      IdentityMode.objectId.query x = .ok [("_id", stored)] := by
  intro x stored record
  have distinct : Everywhere Value.Distinct (.object record) := by
    simp [record, x, Value.everywhere_object, Value.everywhere_array, everywhere_leaf, parts,
      Value.Named, Entries.keys]
  have form : IdentityMode.stored .objectId true x = stored := by rfl
  obtain ⟨inserted, filtered, found⟩ := identity_routes_agree .objectId [("name", .text "Ann")]
    [("age", .int 4)] distinct rfl
  rw [form] at inserted filtered found
  exact ⟨distinct, rfl, inserted, filtered, found.mpr (by simp)⟩

/-- A raw identity that has an identity inside is stored, and asked for, under one form, and looked
    up under another. -/
theorem raw_identity_missed :
    let x : Value := .object [("id", .int 7)]
    x.isNull = false ∧
      ¬∃ stored, (IdentityMode.raw.document [(recordId, x)]).get? storedId = some stored ∧
        Query.ofFilter .raw (.equals recordId x) = .ok [(storedId, stored)] ∧
        IdentityMode.raw.query x = .ok [(storedId, stored)] := by
  refine ⟨rfl, ?_⟩
  rintro ⟨stored, inserted, _, found⟩
  have renamed : Bson.document [("_id", .int32 7)] = stored := Option.some.inj inserted
  have kept : Except.ok [("_id", Bson.document [("id", .int32 7)])] =
    Except.ok [("_id", stored)] := found
  simp [← renamed] at kept

end StoreBridge
