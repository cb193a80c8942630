import StoreBridge.Adapter.Document
import StoreBridge.Proofs.Adapter.SingleRow
import StoreBridge.Proofs.Document.IdentityRoutes
import StoreBridge.Proofs.Document.RoundTrip

/-!
What an insert returns, beside the document that the store has made of its record. The identity is
the stored one, as records hold it, and finds the document again unless it was generated and the
mode takes text as it is. The other fields are those of the given record, and not those that are
read back, so the two differ wherever a value comes back in another form.
-/
namespace StoreBridge
open Branching

/-- What a store makes of a document that it is given: its fields in their order, under its own
    identity, or under a generated one where it has none. Where the identity stands among the
    fields is up to the store. -/
structure Document.Kept (given stored : Document) (id : Bson) : Prop where
  named : stored.get? storedId = some id
  own : ∀ identity, given.get? storedId = some identity → id = identity
  generated : given.get? storedId = none → ∃ made, id = .objectId made
  fields : Entries.without stored storedId = Entries.without given storedId

namespace IdentityMode
variable (mode : IdentityMode) {record : Record}

def shown (field : String × Value) : Value :=
  (mode.storedField field).2.toValue

theorem shown_plain {field : String × Value} (other : field.1 ≠ recordId)
    (literal : ¬isOperatorName field.1) (distinct : Everywhere Value.Distinct field.2)
    (plain : Everywhere Value.Plain field.2) :
    mode.shown field = field.2.normalised mode false := by
  rw [shown, storedField, if_neg literal, fieldValue, beq_eq_false_iff_ne.mpr other]
  exact toValue_stored false distinct plain

theorem document_without (distinct : (Entries.keys record).Nodup) :
    Entries.without (mode.document record) storedId =
      ((Entries.without record recordId).without storedId).map fun e =>
        (e.1, (mode.storedField e).2) := by
  have names (e : String × Value) : ((mode.storedField e).1 != storedId) =
      (e.1 != storedId && e.1 != recordId) := by
    rw [storedField_name, fieldName]
    by_cases identity : e.1 = recordId
    · simp [identity]
    · simp [identity]
  have pairs : Entries.without (mode.storedFields record) storedId =
      ((Entries.without record recordId).without storedId).map fun e =>
        (e.1, (mode.storedField e).2) := by
    rw [storedFields_map, Entries.without, List.filter_map]
    simp only [Function.comp_def, names, Entries.without, List.filter_filter]
    refine List.map_congr_left fun e mem => Prod.ext ?_ rfl
    have other : e.1 ≠ recordId := by
      have kept := (List.mem_filter.mp mem).2
      simp only [Bool.and_eq_true, bne_iff_ne] at kept
      exact kept.2
    rw [storedField_name, fieldName, if_neg other]
  have apart : (Entries.keys (Entries.without (mode.storedFields record) storedId)).Nodup := by
    rw [pairs, Entries.keys_map fun name value => (mode.storedField (name, value)).2]
    exact distinct.sublist ((List.filter_sublist.trans List.filter_sublist).map _)
  rw [document, Entries.ofList, Entries.without_merge]
  change Entries.ofList _ = _
  rw [Entries.ofList_distinct apart, pairs]

theorem document_storedId (distinct : (Entries.keys record).Nodup)
    (own : storedId ∉ Entries.keys record) :
    (mode.document record).get? storedId = (record.get? recordId).map (mode.stored true) := by
  cases there : record.get? recordId with
  | none =>
    have absent := Entries.get?_none_iff.mp there
    rw [document, Entries.ofList_distinct (storedFields_distinct distinct own),
      storedFields_plain absent,
      Entries.get?_map fun name value => (mode.storedField (name, value)).2,
      Entries.get?_none_iff.mpr own]
    rfl
  | some identity =>
    obtain ⟨front, behind, rfl, _, absent⟩ := Entries.split_at distinct there
    obtain ⟨_, _, later⟩ := Entries.distinct_around distinct
    have after : Entries.get? behind storedId = none := by
      rw [Entries.get?_none_iff]
      intro mem
      rw [Entries.keys, List.map_append, List.map_cons] at own
      exact own (List.mem_append_right _ (List.mem_cons_of_mem _ mem))
    rw [document_identity later absent, after]
    rfl

end IdentityMode

namespace Record
variable {mode : IdentityMode} {record : Record} {stored : Document} {id : Bson}

theorem ofDocument_kept (distinct : (Entries.keys record).Nodup)
    (kept : Document.Kept (mode.document record) stored id) :
    ofDocument stored = (recordId, id.toValue) ::
      ((Entries.without record recordId).without storedId).map fun e => (e.1, mode.shown e) := by
  have read : Entries.get? (Bson.toFields stored) storedId = some id.toValue := by
    rw [Bson.toFields_map, Entries.get?_map fun _ => Bson.toValue, kept.named, Option.map_some]
  have beside : (Bson.toFields stored).filter (fun e => e.1 != storedId && e.1 != recordId) =
      ((Entries.without stored storedId).without recordId).map fun e => (e.1, e.2.toValue) := by
    rw [Bson.toFields_map, List.filter_map, Entries.without, Entries.without, List.filter_filter]
    simp only [Function.comp_def, Bool.and_comm]
  have unnamed : recordId ∉ Entries.keys (Entries.without stored storedId) := by
    rw [kept.fields, mode.document_without distinct,
      Entries.keys_map fun name value => (mode.storedField (name, value)).2]
    intro mem
    obtain ⟨e, inside, named⟩ := List.mem_map.mp mem
    have other := (List.mem_filter.mp (List.mem_filter.mp inside).1).2
    simp [named] at other
  rw [ofDocument, ofStored_identity read, beside, Entries.without_absent unnamed, kept.fields,
    mode.document_without distinct, List.map_map]
  rfl

end Record

namespace DocumentAdapter
open Plan
variable {σ : Type} {a : DocumentAdapter} {place : Place} {collection : String}
  {record : Record} {stored : Document} {id : Bson}
  {answer : (r : Request DocumentCall) → σ → Except Error r.call.Reply × σ} {state after : σ}

theorem insert_run
    (replied : answer ⟨place, .insertOne collection (a.mode.document record)⟩ state =
      (.ok id, after)) :
    (a.insert place collection record).run answer state = (.ok (inserted record id), after) := by
  rw [insert, run_bind, call, run_call, replied]
  rfl

theorem findById_run {key : Value} {query : Document} {rest : List Document}
    (built : a.mode.query key = .ok query)
    (replied : answer ⟨place, .find collection query first⟩ state =
      (.ok (stored :: rest), after)) :
    (a.findById place collection key).run answer state =
      (.ok (some (Record.ofDocument stored)), after) := by
  rw [findById, run_bind, run_lift, built]
  simp only [findDocuments, call, run_bind, run_call, replied]
  rfl

theorem inserted_fields (record : Record) (id : Bson) :
    inserted record id = (recordId, id.toValue) :: Entries.without record recordId := rfl

theorem inserted_eq_iff (distinct : (Entries.keys record).Nodup)
    (kept : Document.Kept (a.mode.document record) stored id) :
    inserted record id = Record.ofDocument stored ↔ storedId ∉ Entries.keys record ∧
      ∀ field ∈ record, field.1 ≠ recordId → a.mode.shown field = field.2 := by
  rw [Record.ofDocument_kept distinct kept, inserted_fields, List.cons.injEq, and_iff_right rfl]
  have beside (field : String × Value) : field ∈ Entries.without record recordId ↔
      field ∈ record ∧ field.1 ≠ recordId := by
    simp [Entries.without]
  constructor
  · intro same
    have own : storedId ∉ Entries.keys (Entries.without record recordId) := by
      rw [same, Entries.keys_map fun name value => a.mode.shown (name, value)]
      exact Entries.not_mem_without
    rw [Entries.without_absent own] at same
    constructor
    · intro mem
      obtain ⟨field, inside, named⟩ := List.mem_map.mp mem
      have other : field.1 ≠ recordId := by rw [named]; decide
      exact own (named ▸ List.mem_map_of_mem ((beside field).mpr ⟨inside, other⟩))
    · intro field mem other
      have pointwise := List.map_inj_left.mp ((List.map_id _).trans same).symm
      exact congrArg Prod.snd (pointwise field ((beside field).mpr ⟨mem, other⟩))
  · rintro ⟨own, each⟩
    have absent : storedId ∉ Entries.keys (Entries.without record recordId) := by
      intro mem
      obtain ⟨field, inside, named⟩ := List.mem_map.mp mem
      exact own (named ▸ List.mem_map_of_mem ((beside field).mp inside).1)
    rw [Entries.without_absent absent]
    refine ((List.map_congr_left fun field mem => ?_).trans (List.map_id _)).symm
    obtain ⟨inside, other⟩ := (beside field).mp mem
    exact Prod.ext rfl (each field inside other)

end DocumentAdapter

namespace IdentityMode
variable (mode : IdentityMode) {record : Record} {stored : Document} {id : Bson}

theorem query_text (s : String) :
    mode.query (.text s) = .ok [(storedId, mode.textValue true s)] := by
  cases mode <;> rfl

theorem query_int (i : Int64) : mode.query (.int i) = .ok [(storedId, .ofInt64 i)] := by
  cases mode <;> rfl

theorem textValue_cases (s : String) :
    (∃ made, mode.textValue true s = .objectId made) ∨ mode.textValue true s = .string s := by
  unfold textValue
  split
  · exact .inl ⟨_, rfl⟩
  · exact .inr rfl

theorem kept_forms (distinct : (Entries.keys record).Nodup) (own : storedId ∉ Entries.keys record)
    (identity : ∀ x, record.get? recordId = some x → x.kind ∈ [.string, .integer, .objectId])
    (kept : Document.Kept (mode.document record) stored id) :
    (∃ made, id = .objectId made) ∨ (∃ i, id = .ofInt64 i) ∨
      ∃ s, id = .string s ∧ mode.textValue true s = .string s := by
  have given := mode.document_storedId distinct own
  cases there : record.get? recordId with
  | none =>
    rw [there] at given
    exact .inl (kept.generated given)
  | some x =>
    rw [there] at given
    have same := kept.own _ given
    have kind := identity x there
    cases x with
    | objectId made => exact .inl ⟨made, same⟩
    | int i => exact .inr (.inl ⟨i, same⟩)
    | text s =>
      rcases mode.textValue_cases s with ⟨made, read⟩ | asText
      · exact .inl ⟨made, same.trans read⟩
      · exact .inr (.inr ⟨s, same.trans asText, asText⟩)
    | _ => simp [Value.kind] at kind

end IdentityMode

def DocumentCall.echo (id : Bson) (d : Document) :
    (r : Request DocumentCall) → Nat → Except Error r.call.Reply × Nat
  | ⟨_, .insertOne _ _⟩, calls => (.ok id, calls + 1)
  | ⟨_, .find _ _ _⟩, calls => (.ok [d], calls + 1)
  | _, calls => (.error .notConnected, calls + 1)

section
variable {σ : Type} (a : DocumentAdapter) (place : Place) (collection : String)
  {record : Record} {stored : Document} {id : Bson}
  {answer : (r : Request DocumentCall) → σ → Except Error r.call.Reply × σ} {state after : σ}

/-- The identity that an insert returns asks for the stored one, but where the store has generated
    it and text is taken as it is: there it asks for the text. -/
theorem inserted_identity_asked (distinct : (Entries.keys record).Nodup)
    (own : storedId ∉ Entries.keys record)
    (identity : ∀ x, record.get? recordId = some x → x.kind ∈ [.string, .integer, .objectId])
    (kept : Document.Kept (a.mode.document record) stored id)
    (replied : answer ⟨place, .insertOne collection (a.mode.document record)⟩ state =
      (.ok id, after)) :
    ∃ returned key, (a.insert place collection record).run answer state = (.ok returned, after) ∧
      returned.get? recordId = some key ∧
      ((a.mode = .raw → ∀ made, id ≠ .objectId made) →
        a.mode.query key = .ok [(storedId, id)]) ∧
      ∀ made, a.mode = .raw → id = .objectId made →
        a.mode.query key = .ok [(storedId, .string made.text)] := by
  have first : Entries.get? (DocumentAdapter.inserted record id) recordId = some id.toValue := by
    rw [DocumentAdapter.inserted_fields, Entries.get?, if_pos rfl]
  refine ⟨_, _, DocumentAdapter.insert_run replied, first, ?_⟩
  rcases a.mode.kept_forms distinct own identity kept with ⟨made, rfl⟩ | ⟨i, rfl⟩ |
    ⟨s, rfl, asText⟩
  · rw [Bson.toValue, IdentityMode.query_text]
    cases mode : a.mode with
    | objectId =>
      have read : IdentityMode.textValue .objectId true made.text = .objectId made := by
        simp [IdentityMode.textValue, ObjectId.ofText?_text]
      simp [read]
    | raw =>
      constructor
      · intro other
        exact absurd rfl (other rfl made)
      · rintro _ _ ⟨⟩
        rfl
  · rw [IdentityMode.toValue_ofInt64, IdentityMode.query_int]
    refine ⟨fun _ => rfl, fun made _ same => ?_⟩
    unfold Bson.ofInt64 at same
    split at same <;> simp at same
  · rw [Bson.toValue, IdentityMode.query_text, asText]
    exact ⟨fun _ => rfl, fun made _ same => by simp at same⟩

/-- Capitals in the given identity, which is stored in front. -/
theorem inserted_identity_asked_capitals :
    let record : Record := [("name", .text "Ann"), ("id", .text "0123456789ABCDEF01234567")]
    let id : Bson := .objectId ⟨0x0123456789ABCDEF01234567⟩
    let stored : Document := [("_id", id), ("name", .string "Ann")]
    (Entries.keys record).Nodup ∧ storedId ∉ Entries.keys record ∧
      (∀ x, record.get? recordId = some x → x.kind ∈ [.string, .integer, .objectId]) ∧
      Document.Kept (IdentityMode.objectId.document record) stored id ∧
      ∃ returned key, ((DocumentAdapter.mk .objectId).insert .own "users" record).run
          (DocumentCall.echo id stored) 0 = (.ok returned, 1) ∧
        returned.get? recordId = some key ∧
        IdentityMode.objectId.query key = .ok [("_id", id)] := by
  intro record id stored
  have distinct : (Entries.keys record).Nodup := by decide
  have own : storedId ∉ Entries.keys record := by decide
  have identity : ∀ x, record.get? recordId = some x →
      x.kind ∈ [.string, .integer, .objectId] := by
    rintro _ ⟨⟩
    decide
  have given : IdentityMode.objectId.document record = [("name", .string "Ann"), ("_id", id)] := by
    rfl
  have kept : Document.Kept (IdentityMode.objectId.document record) stored id := by
    rw [given]
    constructor
    · rfl
    · rintro _ ⟨⟩
      rfl
    · rintro ⟨⟩
    · rfl
  have replied : DocumentCall.echo id stored
      ⟨.own, .insertOne "users" (IdentityMode.objectId.document record)⟩ 0 = (.ok id, 1) := rfl
  obtain ⟨returned, key, ran, first, asked, _⟩ := inserted_identity_asked
    (DocumentAdapter.mk .objectId) .own "users" distinct own identity kept replied
  exact ⟨distinct, own, identity, kept, returned, key, ran, first, asked (by simp)⟩

/-- A generated identity comes back as text, and in the raw mode the text asks for text. -/
theorem generated_raw_identity_missed :
    let record : Record := [("name", .text "Ann")]
    let id : Bson := .objectId ⟨5⟩
    let stored : Document := [("_id", id), ("name", .string "Ann")]
    (Entries.keys record).Nodup ∧ storedId ∉ Entries.keys record ∧
      record.get? recordId = none ∧
      Document.Kept (IdentityMode.raw.document record) stored id ∧
      ∃ returned key, ((DocumentAdapter.mk .raw).insert .own "users" record).run
          (DocumentCall.echo id stored) 0 = (.ok returned, 1) ∧
        returned.get? recordId = some key ∧ IdentityMode.raw.query key ≠ .ok [("_id", id)] := by
  intro record id stored
  refine ⟨by decide, by decide, rfl, ⟨rfl, ?_, fun _ => ⟨⟨5⟩, rfl⟩, rfl⟩, _, _, rfl, rfl, ?_⟩
  · rintro _ ⟨⟩
  · simp [IdentityMode.query, Bson.toValue, Bson.ofValue, Value.isNull, id]

/-- What an insert returns is the record of the document that the store keeps, which is what a
    look-up of it returns, just where no field has the stored name and all fields beside the
    identity come back as they were. Without operators and stored names inside, those are the
    values in normal form. -/
theorem inserted_as_stored_iff (distinct : (Entries.keys record).Nodup)
    (kept : Document.Kept (a.mode.document record) stored id)
    (replied : answer ⟨place, .insertOne collection (a.mode.document record)⟩ state =
      (.ok id, after)) :
    ∃ returned, (a.insert place collection record).run answer state = (.ok returned, after) ∧
      (∀ key query rest later last, a.mode.query key = .ok query →
        answer ⟨place, .find collection query DocumentAdapter.first⟩ later =
          (.ok (stored :: rest), last) →
        (a.findById place collection key).run answer later =
          (.ok (some (Record.ofDocument stored)), last)) ∧
      (returned = Record.ofDocument stored ↔ storedId ∉ Entries.keys record ∧
        ∀ field ∈ record, field.1 ≠ recordId → a.mode.shown field = field.2) ∧
      (Everywhere Value.Distinct (.object record) → Everywhere Value.Plain (.object record) →
        (returned = Record.ofDocument stored ↔
          ∀ field ∈ record, field.1 ≠ recordId → field.2.normalised a.mode false = field.2)) := by
  have compared := DocumentAdapter.inserted_eq_iff distinct kept
  refine ⟨_, DocumentAdapter.insert_run replied, ?_, compared, ?_⟩
  · intro key query rest later last built found
    exact DocumentAdapter.findById_run built found
  · intro everywhere plain
    obtain ⟨names, inside⟩ := Value.everywhere_object.mp everywhere
    obtain ⟨own, deeper⟩ := Value.everywhere_object.mp plain
    have unstored : storedId ∉ Entries.keys record := fun mem => (own storedId mem).1 rfl
    rw [compared, and_iff_right unstored]
    refine forall₃_congr fun field mem other => ?_
    have literal := (own field.1 (List.mem_map_of_mem mem)).2
    rw [a.mode.shown_plain other literal (inside field mem) (deeper field mem)]

end

/-- The identity comes to the front in both. -/
theorem inserted_as_stored_iff_front :
    let record : Record :=
      [("name", .text "Ann"), ("id", .text "0123456789ABCDEF01234567"), ("marks", .array [.int 3])]
    let id : Bson := .objectId ⟨0x0123456789ABCDEF01234567⟩
    let stored : Document :=
      [("_id", id), ("name", .string "Ann"), ("marks", .array [.int32 3])]
    (Entries.keys record).Nodup ∧ Document.Kept (IdentityMode.objectId.document record) stored id ∧
      ∃ returned, ((DocumentAdapter.mk .objectId).insert .own "users" record).run
          (DocumentCall.echo id stored) 0 = (.ok returned, 1) ∧
        returned = Record.ofDocument stored ∧
        ((DocumentAdapter.mk .objectId).findById .own "users"
          (.text "0123456789abcdef01234567")).run
          (DocumentCall.echo id stored) 1 = (.ok (some returned), 2) := by
  intro record id stored
  have distinct : (Entries.keys record).Nodup := by decide
  have given : IdentityMode.objectId.document record =
      [("name", .string "Ann"), ("_id", id), ("marks", .array [.int32 3])] := by
    rfl
  have kept : Document.Kept (IdentityMode.objectId.document record) stored id := by
    rw [given]
    constructor
    · rfl
    · rintro _ ⟨⟩
      rfl
    · rintro ⟨⟩
    · rfl
  have replied : DocumentCall.echo id stored
      ⟨.own, .insertOne "users" (IdentityMode.objectId.document record)⟩ 0 = (.ok id, 1) := rfl
  obtain ⟨returned, ran, found, same, _⟩ := inserted_as_stored_iff
    (DocumentAdapter.mk .objectId) .own "users" distinct kept replied
  have agree : returned = Record.ofDocument stored := by
    refine same.mpr ⟨by decide, ?_⟩
    simp [record, IdentityMode.shown, IdentityMode.storedField, IdentityMode.isOperatorName,
      IdentityMode.fieldValue, IdentityMode.stored, IdentityMode.storedItems, recordId,
      IdentityMode.textValue, Bson.toValue, Bson.toValues, Bson.ofInt64]
  have read := found (.text "0123456789abcdef01234567") [("_id", id)] [] 1 2 rfl rfl
  exact ⟨distinct, kept, returned, ran, agree, agree ▸ read⟩

/-- A field with the stored name comes back beside the identity, and a time as a time. -/
theorem inserted_keeps_stored_name :
    let record : Record := [("_id", .text "a"), ("at", .timestamp ⟨1, 0⟩)]
    let id : Bson := .string "a"
    let stored : Document := [("_id", id), ("at", .dateTime 1000)]
    Document.Kept (IdentityMode.raw.document record) stored id ∧
      ∃ returned, ((DocumentAdapter.mk .raw).insert .own "users" record).run
          (DocumentCall.echo id stored) 0 = (.ok returned, 1) ∧
        returned ≠ Record.ofDocument stored ∧ storedId ∈ Entries.keys returned := by
  intro record id stored
  refine ⟨⟨rfl, ?_, by rintro ⟨⟩, rfl⟩, _, rfl, ?_, by decide⟩
  · rintro _ ⟨⟩
    rfl
  · intro same
    have count := congrArg List.length same
    exact absurd count (by decide)

end StoreBridge
