import Mathlib.Data.List.Nodup
import StoreBridge.Proofs.Acceptance
import StoreBridge.Proofs.Adapter.Inserting
import StoreBridge.Proofs.Adapter.Upserting
import StoreBridge.Proofs.Document.Meaning

/-!
What an upsert inserts is what its filter asks for. A filter of equalities goes into the inserted
document through the record, and into the query through the compiler, and the two ways lead to the
same stored names and the same stored values. So the query has the document that was inserted when
it had none.
-/
namespace StoreBridge

def Condition.IsEquality : Condition → Prop
  | .leaf _ _ => True
  | .operator _ op _ => op = .eq
  | .and _ | .or _ | .not _ => False

/-- A filter that gives one value to each of some stored fields, with names that are names and
    values that are values. -/
structure Filter.Assigns (f : Filter) : Prop where
  equalities : ∀ c ∈ f, c.IsEquality
  apart : (f.equalityLeaves.map fun e => IdentityMode.fieldName e.1).Nodup
  named : ∀ e ∈ f.equalityLeaves, ¬IdentityMode.isOperatorName (IdentityMode.fieldName e.1)
  literal : ∀ field key item rest, .leaf field (.object ((key, item) :: rest)) ∈ f →
    ¬IdentityMode.isOperatorName key

/-- What a store makes of a document that it keeps: the same fields, in whatever order, under the
    identity of the document where it has one. -/
structure Document.Retained (given stored : Document) : Prop where
  fields : ∀ name, name ≠ storedId → stored.get? name = given.get? name
  identity : ∀ id, given.get? storedId = some id → stored.get? storedId = some id

/-- Of the equalities, those with a document's own fields are true and no others. What other tests
    say of the document is left open. -/
def Document.Equates (d : Document) (β : StoredTest → Bool) : Prop :=
  ∀ field operand, β (.operator field "$eq" operand) = true ↔ d.get? field = some operand

theorem Document.Retained.get? {given stored : Document} (kept : Retained given stored)
    {name : String} {value : Bson} (there : given.get? name = some value) :
    stored.get? name = some value := by
  by_cases identity : name = storedId
  · subst identity
    exact kept.identity value there
  · rw [kept.fields name identity, there]

theorem IdentityMode.plain_of_fieldName {field : String}
    (plain : ¬isOperatorName (fieldName field)) : ¬isOperatorName field := by
  unfold fieldName at plain
  split at plain
  · rename_i identity
    rw [identity]
    decide
  · exact plain

namespace Filter
variable {f : Filter} {record : Record} {mode : IdentityMode}

theorem nested_equalities (equalities : ∀ c ∈ f, c.IsEquality) : nested f = f := by
  induction f with
  | nil => rfl
  | cons c rest ih =>
    rw [List.forall_mem_cons] at equalities
    rw [nested, ih equalities.2]
    cases c with
    | leaf field value | operator field op value => rfl
    | and branches | or branches | not inner => exact equalities.1.elim

theorem Assigns.plain (assigns : f.Assigns) : ∀ c ∈ nested f, Query.Plain mode c := by
  intro c mem
  rw [nested_equalities assigns.equalities] at mem
  cases c with
  | leaf field value =>
    have asked : (field, value) ∈ f.equalityLeaves := List.mem_filterMap.mpr ⟨_, mem, rfl⟩
    refine ⟨IdentityMode.plain_of_fieldName (assigns.named (field, value) asked), ?_⟩
    rintro key item rest rfl
    exact assigns.literal field key item rest mem
  | operator field op value =>
    have equal : op = .eq := assigns.equalities _ mem
    subst equal
    have asked : (field, value) ∈ f.equalityLeaves := List.mem_filterMap.mpr ⟨_, mem, rfl⟩
    exact IdentityMode.plain_of_fieldName (assigns.named (field, value) asked)
  | and branches | or branches | not inner => exact (assigns.equalities _ mem).elim

theorem Assigns.accepted (assigns : f.Assigns) : ∃ query, Query.ofFilter mode f = .ok query := by
  refine Query.ofFilter_ok_iff.mpr fun field op value mem => ?_
  rw [nested_equalities assigns.equalities] at mem
  have equal : op = .eq := assigns.equalities _ mem
  subst equal
  trivial

theorem ofFilter_equalities {β : StoredTest → Bool} (equalities : ∀ c ∈ f, c.IsEquality)
    (each : ∀ e ∈ f.equalityLeaves,
      β (.operator (IdentityMode.fieldName e.1) "$eq" (mode.fieldValue e.1 e.2)) = true) :
    Query.Meaning.ofFilter β mode f = true := by
  induction f with
  | nil => rfl
  | cons c rest ih =>
    rw [List.forall_mem_cons] at equalities
    obtain ⟨one, others⟩ := equalities
    have asked {field : String} {value : Value}
        (leaves : equalityLeaves (c :: rest) = (field, value) :: equalityLeaves rest) :
        Query.Meaning.ofOperator β mode field .eq value = true ∧
          Query.Meaning.ofFilter β mode rest = true := by
      rw [leaves, List.forall_mem_cons] at each
      exact ⟨each.1, ih others each.2⟩
    rw [Query.Meaning.ofFilter, Bool.and_eq_true]
    cases c with
    | leaf field value => exact asked rfl
    | operator field op value =>
      have equal : op = .eq := one
      subst equal
      exact asked rfl
    | and branches | or branches | not inner => exact one.elim

theorem Assigns.document_get? (assigns : f.Assigns)
    (beside : ∀ e ∈ record, ∀ c ∈ f.equalityLeaves,
      IdentityMode.fieldName e.1 ≠ IdentityMode.fieldName c.1)
    {field : String} {value : Value} (asked : (field, value) ∈ f.equalityLeaves) :
    (mode.document (f.seed record)).get? (IdentityMode.fieldName field) =
      some (mode.fieldValue field value) := by
  have single : ∀ e ∈ f.equalityLeaves,
      IdentityMode.fieldName e.1 = IdentityMode.fieldName field → e = (field, value) :=
    fun e mem same => List.inj_on_of_nodup_map assigns.apart mem asked same
  have seeded : (f.seed record).get? field = some value := by
    refine Entries.get?_merge_of ?_ (.inl (Entries.get?_merge_of ?_ (.inr asked)))
    · intro e mem same
      exact absurd (congrArg IdentityMode.fieldName same) (beside e mem _ asked)
    · intro e mem same
      exact congrArg Prod.snd (single e mem (congrArg IdentityMode.fieldName same))
  have stored : mode.storedField (field, value) =
      (IdentityMode.fieldName field, mode.fieldValue field value) :=
    if_neg (IdentityMode.plain_of_fieldName (assigns.named (field, value) asked))
  rw [IdentityMode.document, mode.storedFields_map]
  refine Entries.get?_merge_of ?_ (.inr ?_)
  · intro e mem same
    obtain ⟨whole, inside, rfl⟩ := List.mem_map.mp mem
    rw [mode.storedField_name] at same
    rcases Entries.mem_merge inside with old | new
    · rw [single whole (Entries.mem_ofList old) same, stored]
    · exact absurd same (beside whole new _ asked)
  · rw [← stored]
    exact List.mem_map_of_mem (Entries.mem_of_get? seeded)

end Filter

namespace DocumentAdapter
open Plan
variable {a : DocumentAdapter} {place : Place} {collection : String} {filter : Filter}
  {record : Record}

theorem upsert_given :
    (a.upsert place collection filter record).Only fun c => c.Inserts →
      c = .insertOne collection (a.mode.document (filter.seed record)) := by
  have quiet : (a.updateOne place collection filter record).Only fun c => c.Inserts →
      c = .insertOne collection (a.mode.document (filter.seed record)) :=
    fun log outcome trace e mem inserts => absurd inserts (updateOne_only log outcome trace e mem)
  refine quiet.bind fun updated => ?_
  cases updated with
  | some found => exact only_done found
  | none => exact (only_call place fun _ => rfl).bind fun id => only_done _

section Runs
variable {σ : Type} {answer : (r : Request DocumentCall) → σ → Except Error r.call.Reply × σ}
  {state after : σ}

theorem insert_exchanges (record : Record) (state : σ) :
    (a.insert place collection record).exchanges answer state =
      [⟨⟨place, .insertOne collection (a.mode.document record)⟩,
        (answer ⟨place, .insertOne collection (a.mode.document record)⟩ state).1⟩] := by
  unfold insert call Plan.call
  change exchanges answer (.ask _ _) state = _
  rw [exchanges]
  rcases answer ⟨place, .insertOne collection (a.mode.document record)⟩ state with
    ⟨error | id, later⟩ <;> rfl

theorem upsert_missed {query update : Document}
    (built : Query.ofFilter a.mode filter = .ok query)
    (change : a.setDocument collection record = .ok update)
    (missed : answer ⟨place, .find collection query first⟩ state = (.ok [], after)) :
    let given := a.mode.document (filter.seed record)
    (a.upsert place collection filter record).exchanges answer state =
      [⟨⟨place, .find collection query first⟩, .ok []⟩,
        ⟨⟨place, .insertOne collection given⟩,
          (answer ⟨place, .insertOne collection given⟩ after).1⟩] := by
  intro given
  simp only [upsert, updateOne, updateFirst, built, change]
  change exchanges answer (.ask ⟨place, .find collection query first⟩ _) state = _
  rw [exchanges, missed]
  exact congrArg _ (insert_exchanges _ after)

end Runs

end DocumentAdapter

/-- An upsert by a filter of equalities inserts one document only, at once where nothing is found,
    and a store that keeps it keeps a document of which the query of the filter holds. -/
theorem upsert_finds_inserted {σ : Type} (a : DocumentAdapter) (place : Place)
    (collection : String) {filter : Filter} {record : Record} (assigns : filter.Assigns)
    (beside : ∀ e ∈ record, ∀ c ∈ filter.equalityLeaves,
      IdentityMode.fieldName e.1 ≠ IdentityMode.fieldName c.1)
    (answer : (r : Request DocumentCall) → σ → Except Error r.call.Reply × σ) (state : σ) :
    let log := (a.upsert place collection filter record).exchanges answer state
    let given := a.mode.document (filter.seed record)
    ∃ query, Query.ofFilter a.mode filter = .ok query ∧
      (∀ e ∈ log, e.request.call.Inserts → e.request.call = .insertOne collection given) ∧
      (∀ update after, a.setDocument collection record = .ok update →
        answer ⟨place, .find collection query DocumentAdapter.first⟩ state = (.ok [], after) →
        log = [⟨⟨place, .find collection query DocumentAdapter.first⟩, .ok []⟩,
          ⟨⟨place, .insertOne collection given⟩,
            (answer ⟨place, .insertOne collection given⟩ after).1⟩]) ∧
      ∀ stored, Document.Retained given stored → ∀ β, Document.Equates stored β →
        Query.holds β query = true := by
  intro log given
  obtain ⟨query, built⟩ : ∃ query, Query.ofFilter a.mode filter = .ok query := assigns.accepted
  refine ⟨query, built, ?inserts, ?missed, ?finds⟩
  case inserts =>
    intro e mem inserts
    have trace := Plan.exchanges_trace answer (a.upsert place collection filter record) state
    exact DocumentAdapter.upsert_given log _ trace e mem inserts
  case missed =>
    intro update after change missed
    exact DocumentAdapter.upsert_missed built change missed
  case finds =>
    intro stored kept β equates
    have written := Query.addConditions_holds (β := β) built Query.tidy_nil assigns.plain
    rw [written, Query.holds, Bool.true_and]
    refine Filter.ofFilter_equalities assigns.equalities fun e asked => ?_
    exact (equates _ _).mpr (kept.get? (assigns.document_get? beside asked))

open Classical in
/-- An identity as text, which becomes one of the store's, and an object with an identity and an
    operator's name inside, in a store that puts the identity in front. -/
theorem upsert_finds_inserted_identity :
    let id : Bson := .objectId ⟨0x0123456789ABCDEF01234567⟩
    let filter : Filter :=
      [.operator "n" .eq (.object [("id", .text "0123456789abcdef01234567"), ("$size", .int 2)]),
        .leaf "id" (.text "0123456789abcdef01234567")]
    let stored : Document := [("_id", id),
      ("n", .document [("_id", id), ("$size", .int32 2)]), ("name", .string "Ann")]
    let answer (r : Request DocumentCall) (calls : Nat) : Except Error r.call.Reply × Nat :=
      match r with
      | ⟨_, .find _ _ _⟩ => (.ok [], calls + 1)
      | ⟨_, .insertOne _ _⟩ => (.ok id, calls + 1)
      | _ => (.error (.driver "not primary"), calls + 1)
    let log := ((DocumentAdapter.mk .objectId).upsert .own "users" filter
      [("name", .text "Ann")]).exchanges answer 0
    ∃ query given, Query.ofFilter .objectId filter = .ok query ∧
      (∃ lookup insert, log = [lookup, insert] ∧
        insert.request.call = .insertOne "users" given) ∧
      Document.Retained given stored ∧
      Query.holds (fun
        | .operator field "$eq" operand => decide (Entries.get? stored field = some operand)
        | _ => false) query = true := by
  intro id filter stored answer log
  have assigns : filter.Assigns := by
    constructor
    · simp [filter, Condition.IsEquality]
    · decide
    · decide
    · rintro field key item rest mem
      simp [filter] at mem
  have beside : ∀ e ∈ ([("name", .text "Ann")] : Record), ∀ c ∈ filter.equalityLeaves,
      IdentityMode.fieldName e.1 ≠ IdentityMode.fieldName c.1 := by decide
  obtain ⟨query, built, _, missed, finds⟩ :=
    upsert_finds_inserted (DocumentAdapter.mk .objectId) .own "users" assigns beside answer 0
  have kept : Document.Retained (IdentityMode.objectId.document
      (filter.seed [("name", .text "Ann")])) stored := by
    have given : IdentityMode.objectId.document (filter.seed [("name", .text "Ann")]) =
        [("n", .document [("_id", id), ("$size", .int32 2)]), ("_id", id),
          ("name", .string "Ann")] := by rfl
    rw [given]
    constructor
    · intro name other
      have apart : "_id" ≠ name := Ne.symm other
      simp only [stored, Entries.get?, if_neg apart]
    · rintro _ ⟨⟩
      rfl
  refine ⟨query, _, built, ⟨_, _, missed _ 1 rfl rfl, rfl⟩, kept, finds stored kept _ ?_⟩
  intro field operand
  exact decide_eq_true_iff

end StoreBridge
