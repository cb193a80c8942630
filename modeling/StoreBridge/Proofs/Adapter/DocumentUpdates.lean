import StoreBridge.Proofs.Adapter.Failures
import StoreBridge.Proofs.Adapter.Inserting

/-!
What an update sends to the document store. It sets the stored fields of its changes but for the
identity, whatever names the changes give to it, and is refused where no field is left. An update of
one document is addressed by the identity of the document that was found, and by that the document
is read again.
-/
namespace StoreBridge

def RowOperation.unkeyed : RowOperation → Bool
  | .updateById id _ => id.isNull
  | _ => false

namespace DocumentAdapter
open Plan
variable {a : DocumentAdapter} {place : Place} {collection : String} {query : Document}
  {changes : Record}

abbrev Log := List (Exchange DocumentCall DocumentCall.Reply)

def written (a : DocumentAdapter) (changes : Record) : Document :=
  (a.mode.document changes).without storedId

theorem setDocument_eq :
    a.setDocument collection changes =
      if a.written changes = [] then refuse (.nothingToSet collection)
      else .ok [("$set", .document (a.written changes))] := by
  have distinct : (Entries.keys (a.mode.document changes)).Nodup :=
    Entries.merge_distinct (by simp [Entries.keys]) _
  rw [setDocument, Entries.erase_eq_without distinct]
  simp only [List.isEmpty_iff]
  rfl

/-- The exchanges of an update of the first document of a query, and what comes of them. -/
inductive UpdatesFirst (place : Place) (collection : String) (query fields : Document) :
    Log → Except Error (Option Record) → Prop where
  | unanswered (error : Error) :
      UpdatesFirst place collection query fields
        [⟨⟨place, .find collection query first⟩, .error error⟩] (.error error)
  /-- Nothing is found, or a document without an identity. -/
  | unnamed {found : List Document} (unnamed : (found.head?.bind fun d => d.get? storedId) = none) :
      UpdatesFirst place collection query fields
        [⟨⟨place, .find collection query first⟩, .ok found⟩] (.ok none)
  | refused {found : List Document} {id : Bson}
      (named : (found.head?.bind fun d => d.get? storedId) = some id) (error : Error) :
      UpdatesFirst place collection query fields
        [⟨⟨place, .find collection query first⟩, .ok found⟩,
          ⟨⟨place, .updateOne collection [(storedId, id)] [("$set", .document fields)]⟩,
            .error error⟩] (.error error)
  | reread {found : List Document} {id : Bson}
      (named : (found.head?.bind fun d => d.get? storedId) = some id) (count : Nat)
      (again : Except Error (List Document)) :
      UpdatesFirst place collection query fields
        [⟨⟨place, .find collection query first⟩, .ok found⟩,
          ⟨⟨place, .updateOne collection [(storedId, id)] [("$set", .document fields)]⟩, .ok count⟩,
          ⟨⟨place, .find collection [(storedId, id)] first⟩, again⟩]
        (again.map fun documents => documents.head?.map Record.ofDocument)

theorem updateOne_built {filter : Filter} (built : Query.ofFilter a.mode filter = .ok query) :
    a.updateOne place collection filter changes =
      a.updateFirst place collection query changes := by
  rw [updateOne, built]
  rfl

theorem updateFirst_empty (empty : a.written changes = []) :
    a.updateFirst place collection query changes =
      .fail (.uncompilable (.nothingToSet collection)) := by
  rw [updateFirst, setDocument_eq, if_pos empty]
  rfl

theorem updateFirst_trace {log : Log} {outcome : Except Error (Option Record)}
    (fields : a.written changes ≠ [])
    (trace : (a.updateFirst place collection query changes).Trace log outcome) :
    UpdatesFirst place collection query (a.written changes) log outcome := by
  have built : a.setDocument collection changes =
      .ok [("$set", .document (a.written changes))] := by
    rw [setDocument_eq, if_neg fields]
  unfold updateFirst findDocuments call at trace
  rw [built] at trace
  rcases trace_bind.mp trace with ⟨_, failed, _⟩ | ⟨_, _, _, written, looking, rfl⟩
  · cases failed
  obtain ⟨rfl, same⟩ := trace_lift.mp written
  cases same
  rcases trace_bind.mp looking with ⟨error, failed, rfl⟩ | ⟨found, _, _, looked, later, rfl⟩
  · rw [trace_call.mp failed]
    exact .unanswered error
  obtain rfl := trace_call.mp looked
  cases named : found.head?.bind fun d => d.get? storedId with
  | none =>
    rw [named] at later
    obtain ⟨rfl, rfl⟩ := trace_done.mp later
    exact .unnamed named
  | some id =>
    rw [named] at later
    rcases trace_bind.mp later with ⟨error, failed, rfl⟩ | ⟨count, _, _, sent, reading, rfl⟩
    · rw [trace_call.mp failed]
      exact .refused named error
    obtain rfl := trace_call.mp sent
    rcases trace_bind.mp reading with ⟨error, failed, rfl⟩ | ⟨again, _, _, read, returned, rfl⟩
    · rw [trace_call.mp failed]
      exact .reread named count (.error error)
    obtain rfl := trace_call.mp read
    obtain ⟨rfl, rfl⟩ := trace_done.mp returned
    exact .reread named count (.ok again)

def lookup? (a : DocumentAdapter) : RowOperation → Option (Except Error Document)
  | .updateOne filter _ | .upsert filter _ => some (Query.ofFilter a.mode filter)
  | .updateById id _ => some (a.mode.query id)
  | _ => none

theorem setDocument_written {update : Document}
    (built : a.setDocument collection changes = .ok update) :
    a.written changes ≠ [] ∧ update = [("$set", .document (a.written changes))] := by
  rw [setDocument_eq] at built
  by_cases empty : a.written changes = []
  · rw [if_pos empty] at built
    cases built
  · rw [if_neg empty] at built
    exact ⟨empty, (Except.ok.inj built).symm⟩

theorem query_keyed {id : Value} (keyed : ¬id.isNull) : ∃ query, a.mode.query id = .ok query := by
  unfold IdentityMode.query
  rw [if_neg keyed]
  cases a.mode <;> exact ⟨_, rfl⟩

theorem rows_unkeyed {operation : RowOperation} (missing : operation.unkeyed) :
    a.rows place collection operation = .fail .missingIdentity := by
  cases operation with
  | updateById id fields =>
    have refused : a.mode.query id = .error .missingIdentity := by
      unfold IdentityMode.query
      exact if_pos missing
    rw [rows, updateById, refused]
    rfl
  | _ => cases missing

theorem rows_empty {operation : RowOperation} (keyed : ¬operation.unkeyed)
    (changing : operation.changes? = some changes) (empty : a.written changes = []) :
    ∃ cause, a.rows place collection operation = .fail (.uncompilable cause) := by
  have refused (filter : Filter) :
      ∃ cause, a.updateOne place collection filter changes = .fail (.uncompilable cause) := by
    cases built : Query.ofFilter a.mode filter with
    | ok query =>
      refine ⟨.nothingToSet collection, ?_⟩
      rw [updateOne_built built, updateFirst_empty empty]
    | error error =>
      obtain ⟨cause, rfl⟩ := Query.ofFilter_refuses built
      refine ⟨cause, ?_⟩
      rw [updateOne, built]
      rfl
  cases operation with
  | update filter fields =>
    cases changing
    cases built : Query.ofFilter a.mode filter with
    | ok query =>
      refine ⟨.nothingToSet collection, ?_⟩
      rw [rows, update, built, setDocument_eq, if_pos empty]
      rfl
    | error error =>
      obtain ⟨cause, rfl⟩ := Query.ofFilter_refuses built
      refine ⟨cause, ?_⟩
      rw [rows, update, built]
      rfl
  | updateOne filter fields =>
    cases changing
    obtain ⟨cause, same⟩ := refused filter
    refine ⟨cause, ?_⟩
    rw [rows, same]
    rfl
  | upsert filter fields =>
    cases changing
    obtain ⟨cause, same⟩ := refused filter
    refine ⟨cause, ?_⟩
    rw [rows, upsert, same]
    rfl
  | updateById id fields =>
    cases changing
    obtain ⟨query, built⟩ := query_keyed (a := a) keyed
    refine ⟨.nothingToSet collection, ?_⟩
    rw [rows, updateById, built]
    exact congrArg (RowResult.found <$> ·) (updateFirst_empty empty)
  | insert _ | insertMany _ | find _ _ | findOne _ | findById _ | delete _ | deleteOne _
  | deleteById _ | count _ | contains _ => simp [RowOperation.changes?] at changing

theorem insert_only (record : Record) :
    (a.insert place collection record).Only DocumentCall.Inserts :=
  (only_call place trivial).bind fun id => only_done (inserted record id)

theorem rows_unsought {operation : RowOperation} {error : Error}
    (looks : a.lookup? operation = some (.error error)) :
    a.rows place collection operation = .fail error := by
  cases operation with
  | updateOne filter fields | upsert filter fields =>
    have failed := Option.some.inj looks
    simp only [rows, upsert, updateOne, failed]
    rfl
  | updateById id fields =>
    have failed := Option.some.inj looks
    simp only [rows, updateById, failed]
    rfl
  | insert _ | insertMany _ | find _ _ | findOne _ | findById _ | update _ _ | delete _
  | deleteOne _ | deleteById _ | count _ | contains _ => simp [lookup?] at looks

/-- An operation on one document changes the first that its look-up finds. Only an upsert goes on
    from there, with an insert where its update came to no document. -/
theorem rows_updatesFirst {operation : RowOperation} {log : Log} {outcome : Except Error RowResult}
    (changing : operation.changes? = some changes) (looks : a.lookup? operation = some (.ok query))
    (fields : a.written changes ≠ [])
    (trace : (a.rows place collection operation).Trace log outcome) :
    ∃ front behind result, log = front ++ behind ∧
      UpdatesFirst place collection query (a.written changes) front result ∧
      (behind ≠ [] → result = .ok none ∧ ∃ filter, operation = .upsert filter changes) ∧
      ∀ e ∈ behind, e.request.call.Inserts := by
  have alone {plan : DocumentPlan (Option Record)}
      (updates : plan = a.updateFirst place collection query changes)
      (trace : (RowResult.found <$> plan).Trace log outcome) :
      ∃ result, UpdatesFirst place collection query (a.written changes) log result := by
    obtain ⟨result, first⟩ := trace_map trace
    exact ⟨result, updateFirst_trace fields (updates ▸ first)⟩
  cases operation with
  | updateOne filter _ =>
    cases changing
    obtain ⟨result, first⟩ := alone (updateOne_built (Option.some.inj looks)) trace
    exact ⟨log, [], result, (List.append_nil _).symm, first, by simp, by simp⟩
  | updateById id _ =>
    cases changing
    have built : a.mode.query id = .ok query := Option.some.inj looks
    obtain ⟨result, first⟩ := alone (by rw [updateById, built]; rfl) trace
    exact ⟨log, [], result, (List.append_nil _).symm, first, by simp, by simp⟩
  | upsert filter _ =>
    cases changing
    obtain ⟨_, whole⟩ := trace_map trace
    rw [upsert, updateOne_built (Option.some.inj looks)] at whole
    rcases trace_bind.mp whole with ⟨error, failed, _⟩ | ⟨result, front, behind, first, later, rfl⟩
    · exact ⟨log, [], .error error, (List.append_nil _).symm, updateFirst_trace fields failed,
        by simp, by simp⟩
    · refine ⟨front, behind, .ok result, rfl, updateFirst_trace fields first, ?_⟩
      cases result with
      | some record =>
        obtain ⟨rfl, _⟩ := trace_done.mp later
        simp
      | none =>
        refine ⟨fun _ => ⟨rfl, filter, rfl⟩, ?_⟩
        exact insert_only _ _ _ later
  | insert _ | insertMany _ | find _ _ | findOne _ | findById _ | update _ _ | delete _
  | deleteOne _ | deleteById _ | count _ | contains _ => simp [lookup?] at looks

end DocumentAdapter

/-- Every update sets the stored fields of the changes but for the identity, and there are some.
    Changes without such a field are refused before any call, as is a look-up that cannot be asked.
    An operation on one document finds it, changes it by its identity and reads it again, and only
    an upsert makes another call behind that, an insert. -/
theorem updates_spare_identity {σ : Type} (a : DocumentAdapter) (place : Place)
    (collection : String) (operation : RowOperation)
    (answer : (r : Request DocumentCall) → σ → Except Error r.call.Reply × σ) (state : σ) :
    let plan := a.rows place collection operation
    let log := plan.exchanges answer state
    let outcome := (plan.run answer state).1
    (∀ e ∈ log, ∀ update, e.request.call.update? = some update →
      ∃ changes, operation.changes? = some changes ∧
        update = [("$set", .document (a.written changes))] ∧ a.written changes ≠ [] ∧
        storedId ∉ Entries.keys (a.written changes)) ∧
    ∀ changes, operation.changes? = some changes →
      (a.written changes = [] → log = [] ∧
        if operation.unkeyed then outcome = .error .missingIdentity
        else ∃ cause, outcome = .error (.uncompilable cause)) ∧
      (∀ error, a.lookup? operation = some (.error error) → log = [] ∧ outcome = .error error) ∧
      ∀ query, a.lookup? operation = some (.ok query) → a.written changes ≠ [] →
        ∃ front behind result, log = front ++ behind ∧
          DocumentAdapter.UpdatesFirst place collection query (a.written changes) front result ∧
          (behind ≠ [] → result = .ok none ∧ ∃ filter, operation = .upsert filter changes) ∧
          ∀ e ∈ behind, e.request.call.Inserts := by
  intro plan log outcome
  have trace : plan.Trace log outcome := Plan.exchanges_trace answer plan state
  refine ⟨?updates, fun changes changing => ⟨?empty, ?unsought, ?first⟩⟩
  case updates =>
    intro e mem update writes
    have stops : plan.Stops (a.Writes collection operation) := DocumentAdapter.rows_stops operation
    obtain ⟨changes, changing, built⟩ := stops.only _ _ trace e mem update writes
    obtain ⟨some, same⟩ := DocumentAdapter.setDocument_written built
    exact ⟨changes, changing, same, some, Entries.not_mem_without⟩
  case empty =>
    intro empty
    split
    case isTrue missing =>
      have refused : plan = .fail .missingIdentity := DocumentAdapter.rows_unkeyed missing
      simp only [log, outcome, refused]
      exact ⟨rfl, rfl⟩
    case isFalse keyed =>
      obtain ⟨cause, refused⟩ : ∃ cause, plan = .fail (.uncompilable cause) :=
        DocumentAdapter.rows_empty keyed changing empty
      simp only [log, outcome, refused]
      exact ⟨rfl, cause, rfl⟩
  case unsought =>
    intro error looks
    have refused : plan = .fail error := DocumentAdapter.rows_unsought looks
    simp only [log, outcome, refused]
    exact ⟨rfl, rfl⟩
  case first =>
    intro query looks some
    exact DocumentAdapter.rows_updatesFirst changing looks some trace

/-- A record with both names of an identity is written without either into the first of two
    documents; with nothing else in it, it is refused. -/
theorem updates_spare_identity_two_names :
    let answer (r : Request DocumentCall) (calls : Nat) : Except Error r.call.Reply × Nat :=
      match r with
      | ⟨_, .find _ _ _⟩ => (.ok [[("_id", .int32 1)], [("_id", .int32 2)]], calls + 1)
      | ⟨_, .updateOne _ _ _⟩ => (.ok 1, calls + 1)
      | _ => (.error (.driver "not primary"), calls + 1)
    let a : DocumentAdapter := ⟨.objectId⟩
    let identity : Record := [("id", .text "7"), ("_id", .null)]
    let filter : Filter := .equals "name" (.text "Ann")
    let upsert := a.rows .own "users" (.upsert filter (identity ++ [("name", .text "Bob")]))
    let bare := a.rows .own "users" (.updateOne filter identity)
    let unkeyed := a.rows .own "users" (.updateById .null identity)
    let log := upsert.exchanges answer 0
    log.length = 3 ∧
    (∀ e ∈ log, ∀ update, e.request.call.update? = some update →
      update = [("$set", .document [("name", .string "Bob")])]) ∧
    (∃ query front behind result, log = front ++ behind ∧
      DocumentAdapter.UpdatesFirst .own "users" query [("name", .string "Bob")] front result) ∧
    (bare.exchanges answer 0 = [] ∧ ∃ cause, (bare.run answer 0).1 = .error (.uncompilable cause)) ∧
    unkeyed.exchanges answer 0 = [] ∧ (unkeyed.run answer 0).1 = .error .missingIdentity := by
  intro answer a identity filter upsert bare unkeyed log
  obtain ⟨sets, changing⟩ := updates_spare_identity a .own "users"
    (.upsert filter (identity ++ [("name", .text "Bob")])) answer 0
  obtain ⟨_, refusing⟩ :=
    updates_spare_identity a .own "users" (.updateOne filter identity) answer 0
  obtain ⟨_, missing⟩ :=
    updates_spare_identity a .own "users" (.updateById .null identity) answer 0
  refine ⟨rfl, ?sent, ?first, (refusing _ rfl).1 rfl, (missing _ rfl).1 rfl⟩
  case sent =>
    intro e mem update writes
    obtain ⟨changes, same, built, _⟩ := sets e mem update writes
    cases same
    exact built
  case first =>
    obtain ⟨front, behind, result, split, first, _⟩ := (changing _ rfl).2.2 _ rfl (by decide)
    exact ⟨_, front, behind, result, split, first⟩

end StoreBridge
