import StoreBridge.Proofs.Document.Merging
import StoreBridge.Proofs.Document.Paths

/-!
The border between records and documents, at every depth. What comes out of the store has no stored
identity, and each record in it has the identity of its own document in front. What goes into the
store has no `id`, but for what stands under an operator, which goes in as it is.
-/
namespace StoreBridge
open Branching

/-! The conversions, one item and one entry at a time. -/

theorem Bson.toValues_map (items : List Bson) : toValues items = items.map toValue := by
  induction items with
  | nil => rfl
  | cons item rest ih => rw [toValues, ih, List.map_cons]

theorem Bson.toFields_map (fields : List (String × Bson)) :
    toFields fields = fields.map fun e => (e.1, e.2.toValue) := by
  induction fields with
  | nil => rfl
  | cons field rest ih => rw [toFields, ih, List.map_cons]

namespace IdentityMode
variable (mode : IdentityMode)

def storedField (field : String × Value) : String × Bson :=
  if isOperatorName field.1 then (field.1, Bson.ofValue field.2)
  else (fieldName field.1, mode.fieldValue field.1 field.2)

theorem storedItems_map (identity : Bool) (items : List Value) :
    mode.storedItems identity items = items.map (mode.stored identity) := by
  induction items with
  | nil => rfl
  | cons item rest ih => rw [storedItems, ih, List.map_cons]

theorem storedFields_map (fields : List (String × Value)) :
    mode.storedFields fields = fields.map mode.storedField := by
  induction fields with
  | nil => rfl
  | cons field rest ih =>
    obtain ⟨key, value⟩ := field
    rw [storedFields, ih, List.map_cons, storedField, fieldName, fieldValue]
    by_cases named : key = recordId
    · simp [named]
    · simp [named, beq_eq_false_iff_ne.mpr named]

theorem storedField_name (field : String × Value) :
    (mode.storedField field).1 = fieldName field.1 := by
  unfold storedField
  split
  · rename_i operator
    have other : field.1 ≠ recordId := by
      intro same
      rw [same] at operator
      exact absurd operator (by decide)
    rw [fieldName, if_neg other]
  · rfl

theorem keys_storedFields (fields : List (String × Value)) :
    Entries.keys (mode.storedFields fields) = (Entries.keys fields).map fieldName := by
  rw [storedFields_map, Entries.keys, Entries.keys, List.map_map, List.map_map]
  exact List.map_congr_left fun field _ => mode.storedField_name field

theorem fieldName_ne_recordId (field : String) : fieldName field ≠ recordId := by
  unfold fieldName
  split
  · decide
  · assumption

end IdentityMode

/-! Out of the store. -/

def shownName (name : String) : String := if name = storedId then recordId else name

def PathStep.shown : PathStep → PathStep
  | .field name => .field (shownName name)
  | step => step

namespace Record
variable {fields : Entries Value}

theorem ofStored_identity {identity : Value} (there : fields.get? storedId = some identity) :
    ofStored fields =
      (recordId, identity) :: fields.filter fun e => e.1 != storedId && e.1 != recordId := by
  rw [ofStored, there]

theorem ofStored_plain (absent : fields.get? storedId = none) : ofStored fields = fields := by
  rw [ofStored, absent]

theorem mem_ofStored {e : String × Value} (mem : e ∈ ofStored fields) :
    ∃ field ∈ fields, (shownName field.1, field.2) = e := by
  cases there : fields.get? storedId with
  | none =>
    rw [ofStored_plain there] at mem
    have other := Entries.ne_of_absent (Entries.get?_none_iff.mp there) mem
    exact ⟨e, mem, by rw [shownName, if_neg other]⟩
  | some identity =>
    rw [ofStored_identity there, List.mem_cons] at mem
    rcases mem with rfl | inside
    · exact ⟨(storedId, identity), Entries.mem_of_get? there, rfl⟩
    · simp only [List.mem_filter, Bool.and_eq_true, bne_iff_ne, ne_eq] at inside
      obtain ⟨kept, other, _⟩ := inside
      exact ⟨e, kept, by rw [shownName, if_neg other]⟩

theorem storedId_not_mem_ofStored : storedId ∉ Entries.keys (ofStored fields) := by
  intro mem
  obtain ⟨e, inside, named⟩ := List.mem_map.mp mem
  obtain ⟨field, _, rfl⟩ := mem_ofStored inside
  change shownName field.1 = storedId at named
  unfold shownName at named
  split at named
  · exact absurd named (by decide)
  · contradiction

theorem ofStored_distinct (distinct : (Entries.keys fields).Nodup) :
    (Entries.keys (ofStored fields)).Nodup := by
  cases there : fields.get? storedId with
  | none => rwa [ofStored_plain there]
  | some identity =>
    rw [ofStored_identity there, Entries.keys, List.map_cons, List.nodup_cons]
    constructor
    · simp
    · exact distinct.sublist (List.filter_sublist.map _)

theorem ofDocument_identity {d : Document} {identity : Bson}
    (there : d.get? storedId = some identity) :
    (ofDocument d).head? = some (recordId, identity.toValue) := by
  have shown : Entries.get? (Bson.toFields d) storedId = some identity.toValue := by
    rw [Bson.toFields_map, Entries.get?_map fun _ => Bson.toValue, there, Option.map_some]
  rw [ofDocument, ofStored_identity shown, List.head?_cons]

end Record

theorem Bson.toValue_parts (b : Bson) :
    ∀ e ∈ parts b.toValue, ∃ origin ∈ parts b, origin.1.shown = e.1 ∧ origin.2.toValue = e.2 := by
  intro e mem
  cases b with
  | array items =>
    change e ∈ itemParts (toValues items) at mem
    rw [toValues_map, itemParts_map] at mem
    obtain ⟨origin, inside, rfl⟩ := List.mem_map.mp mem
    refine ⟨origin, inside, ?_, rfl⟩
    obtain ⟨_, _, rfl⟩ := List.mem_map.mp inside
    rfl
  | document fields =>
    change e ∈ entryParts (Record.ofStored (toFields fields)) at mem
    obtain ⟨_, inside, rfl⟩ := List.mem_map.mp mem
    obtain ⟨_, shown, rfl⟩ := Record.mem_ofStored inside
    rw [toFields_map] at shown
    obtain ⟨field, origin, rfl⟩ := List.mem_map.mp shown
    exact ⟨(.field field.1, field.2), List.mem_map_of_mem origin, rfl, rfl⟩
  | _ => simp [toValue, parts] at mem

theorem Bson.toValue_object {b : Bson} {record : Record} (read : b.toValue = .object record) :
    ∃ d, b = .document d ∧ record = Record.ofDocument d := by
  cases b with
  | document d =>
    rw [toValue, Value.object.injEq] at read
    exact ⟨d, rfl, read.symm⟩
  | _ => simp [toValue] at read

/-- What stands in a record is read from what stands in its document, along the same path but for
    the names of identities. -/
theorem Record.ofDocument_reached {d : Document} {path : List PathStep} {part : Value}
    (reached : Reaches (Value.object (ofDocument d)) path part) :
    ∃ source origin, Reaches (Bson.document d) source origin ∧
      source.map PathStep.shown = path ∧ origin.toValue = part :=
  Reaches.traced (x := Bson.document d) Bson.toValue_parts reached

/-! Into the store. -/

/-- A step that does not lead below an operator. -/
def PathStep.IsPlain : PathStep → Prop
  | .item _ => True
  | .field name => ¬IdentityMode.isOperatorName name

namespace IdentityMode
variable {mode : IdentityMode}

def IsStored (mode : IdentityMode) (b : Bson) : Prop := ∃ identity v, mode.stored identity v = b

theorem stored_parts {b : Bson} {e : PathStep × Bson} (stored : mode.IsStored b)
    (mem : e ∈ parts b) (plain : e.1.IsPlain) : mode.IsStored e.2 := by
  obtain ⟨identity, v, rfl⟩ := stored
  cases v with
  | array items =>
    change e ∈ itemParts (mode.storedItems identity items) at mem
    rw [storedItems_map, itemParts_map] at mem
    obtain ⟨item, _, rfl⟩ := List.mem_map.mp mem
    exact ⟨identity, item.2, rfl⟩
  | object fields =>
    change e ∈ entryParts (Entries.ofList (mode.storedFields fields)) at mem
    obtain ⟨_, inside, rfl⟩ := List.mem_map.mp mem
    have written := Entries.mem_ofList inside
    rw [storedFields_map] at written
    obtain ⟨field, _, rfl⟩ := List.mem_map.mp written
    change ¬isOperatorName (mode.storedField field).1 at plain
    unfold storedField at plain ⊢
    split at plain
    · contradiction
    · rename_i other
      rw [if_neg other]
      exact ⟨_, field.2, rfl⟩
  | text s =>
    rw [stored] at mem
    unfold textValue at mem
    split at mem <;> simp [parts] at mem
  | int i =>
    rw [stored, Bson.ofInt64] at mem
    split at mem <;> simp [parts] at mem
  | _ => simp [stored, parts] at mem

theorem recordId_not_mem_stored {d : Document} (stored : mode.IsStored (.document d)) :
    recordId ∉ Entries.keys d := by
  obtain ⟨identity, v, same⟩ := stored
  cases v with
  | object fields =>
    rw [IdentityMode.stored, Bson.document.injEq] at same
    subst same
    intro mem
    obtain ⟨e, inside, named⟩ := List.mem_map.mp mem
    have written := Entries.mem_ofList inside
    rw [storedFields_map] at written
    obtain ⟨field, _, rfl⟩ := List.mem_map.mp written
    rw [storedField_name] at named
    exact fieldName_ne_recordId _ named
  | text s =>
    rw [IdentityMode.stored] at same
    unfold textValue at same
    split at same <;> simp at same
  | int i =>
    rw [IdentityMode.stored, Bson.ofInt64] at same
    split at same <;> simp at same
  | _ => simp [IdentityMode.stored] at same

theorem stored_unnamed {b : Bson} {path : List PathStep} {d : Document} (stored : mode.IsStored b)
    (reached : Reaches b path (.document d)) (plain : ∀ step ∈ path, step.IsPlain) :
    recordId ∉ Entries.keys d :=
  recordId_not_mem_stored (reached.keeps (fun _ _ => stored_parts) stored plain)

end IdentityMode

/-- A record that is read holds no stored identity and none of the store's own values, each name
    once, and the identity of its document in front. A document that is written has no `id` outside
    of operators. -/
theorem identity_boundary {d : Document} (distinct : Everywhere Bson.Distinct (.document d)) :
    (∀ path part, Reaches (Value.object (Record.ofDocument d)) path part →
      (∀ id, part ≠ .objectId id) ∧ (∀ t, part ≠ .timestamp t) ∧
      ∀ record, part = .object record →
        storedId ∉ Entries.keys record ∧ (Entries.keys record).Nodup ∧
        ∃ source origin, Reaches (Bson.document d) source (.document origin) ∧
          source.map PathStep.shown = path ∧ record = Record.ofDocument origin ∧
          ∀ identity, Entries.get? origin storedId = some identity →
            record.head? = some (recordId, identity.toValue)) ∧
    ∀ (mode : IdentityMode) (record : Record) path part,
      Reaches (Bson.document (mode.document record)) path (.document part) →
      (∀ step ∈ path, step.IsPlain) → recordId ∉ Entries.keys part := by
  constructor
  · intro path part reached
    -- What is in the record was read from a place in the document, so its origin tells what it is.
    obtain ⟨source, origin, behind, walked, rfl⟩ := Record.ofDocument_reached reached
    refine ⟨?_, ?_, ?_⟩
    · intro id
      cases origin <;> simp [Bson.toValue]
    · intro t
      cases origin <;> simp [Bson.toValue]
    · intro record same
      obtain ⟨inner, rfl, rfl⟩ := Bson.toValue_object same
      have names : (Entries.keys (Bson.toFields inner)).Nodup := by
        have own : (Entries.keys inner).Nodup := distinct source _ behind
        rwa [Bson.toFields_map, Entries.keys_map fun _ => Bson.toValue]
      exact ⟨Record.storedId_not_mem_ofStored, Record.ofStored_distinct names, source, inner,
        behind, walked, rfl, fun _ => Record.ofDocument_identity⟩
  · intro mode record path part reached plain
    exact IdentityMode.stored_unnamed ⟨false, .object record, rfl⟩ reached plain

/-- An `id` beside the identity, at the top and below it. -/
theorem identity_boundary_shadowed :
    let d : Document :=
      [("id", .string "own"),
        ("refs", .array [.document [("id", .int32 3), ("_id", .objectId ⟨5⟩)]]), ("_id", .int32 7)]
    let inner : Record := [("id", .text "000000000000000000000005")]
    Everywhere Bson.Distinct (.document d) ∧
      Reaches (Value.object (Record.ofDocument d)) [.field "refs", .item 0] (.object inner) ∧
      storedId ∉ Entries.keys inner ∧ (Entries.keys inner).Nodup ∧
      (Record.ofDocument d).head? = some (recordId, .int 7) ∧
      recordId ∉ Entries.keys (IdentityMode.raw.document (Record.ofDocument d)) := by
  intro d inner
  have distinct : Everywhere Bson.Distinct (.document d) := by
    simp [d, Bson.everywhere_document, Bson.everywhere_array, everywhere_leaf, parts,
      Bson.Distinct, Entries.keys]
  have read : Record.ofDocument d = [("id", .int 7), ("refs", .array [.object inner])] := by rfl
  have reached :
      Reaches (Value.object (Record.ofDocument d)) [.field "refs", .item 0] (.object inner) := by
    rw [read]
    exact .step (List.mem_cons_of_mem _ List.mem_cons_self) (.step List.mem_cons_self (.here _))
  obtain ⟨outbound, inbound⟩ := identity_boundary distinct
  obtain ⟨plain, once, _⟩ := (outbound _ _ reached).2.2 inner rfl
  refine ⟨distinct, reached, plain, once, by rw [read]; rfl, ?_⟩
  exact inbound .raw (Record.ofDocument d) [] _ (.here _) (by simp)

end StoreBridge
