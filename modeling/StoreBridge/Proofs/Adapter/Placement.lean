import StoreBridge.Adapter.Document
import StoreBridge.Adapter.Sql

/-!
Where the calls of an operation go. An operation on rows is given one place, and each call that it
makes goes there, whatever was answered before: look-ups, changes and what is read back. An
operation on a table is given none and stays outside of every transaction.
-/
namespace StoreBridge

namespace Plan
variable {C : Type} {Reply : C → Type} {α β σ : Type} {place : Place}

/-- Every request that a plan can come to has one place. -/
inductive Stays (place : Place) : Plan C Reply α → Prop where
  | done (result : α) : Stays place (.done result)
  | fail (error : Error) : Stays place (.fail error)
  | ask {request : Request C} {next : Except Error (Reply request.call) → Plan C Reply α}
      (here : request.place = place) (later : ∀ answer, Stays place (next answer)) :
      Stays place (.ask request next)

theorem Stays.bind {plan : Plan C Reply α} {next : α → Plan C Reply β} (first : plan.Stays place)
    (later : ∀ result, (next result).Stays place) : (plan >>= next).Stays place := by
  induction first with
  | done result => exact later result
  | fail error => exact .fail error
  | ask here _ ih => exact .ask here ih

theorem Stays.map {plan : Plan C Reply α} (first : plan.Stays place) (f : α → β) :
    (f <$> plan).Stays place :=
  first.bind fun result => .done (f result)

theorem Stays.attempt {plan : Plan C Reply α} (first : plan.Stays place) :
    plan.attempt.Stays place := by
  induction first with
  | done result => exact .done (some result)
  | fail error => exact .done none
  | ask here _ ih => exact .ask here ih

theorem stays_lift (result : Except Error α) : (lift result : Plan C Reply α).Stays place := by
  cases result with
  | ok result => exact .done result
  | error error => exact .fail error

theorem stays_call (place : Place) (c : C) :
    (call place c : Plan C Reply (Reply c)).Stays place := by
  refine .ask rfl fun answer => ?_
  cases answer with
  | ok reply => exact .done reply
  | error error => exact .fail error

theorem stays_each {plan : α → Plan C Reply β} (each : ∀ item, (plan item).Stays place)
    (items : List α) : (Plan.each plan items).Stays place := by
  induction items with
  | nil => exact .done []
  | cons item rest ih =>
    exact (each item).bind fun first => ih.bind fun rest => .done (first :: rest)

def logged (answer : (r : Request C) → σ → Except Error (Reply r.call) × σ) (r : Request C)
    (state : σ × List (Request C)) : Except Error (Reply r.call) × (σ × List (Request C)) :=
  let (reply, next) := answer r state.1
  (reply, next, state.2 ++ [r])

def requests (plan : Plan C Reply α)
    (answer : (r : Request C) → σ → Except Error (Reply r.call) × σ) (state : σ) :
    List (Request C) :=
  (plan.run (logged answer) (state, [])).2.2

theorem Stays.requests {plan : Plan C Reply α} (stays : plan.Stays place)
    (answer : (r : Request C) → σ → Except Error (Reply r.call) × σ) (state : σ) :
    ∀ r ∈ plan.requests answer state, r.place = place := by
  -- The log of the calls before grows by one call that stays in its place.
  have run_log (plan : Plan C Reply α) (stays : plan.Stays place) (state : σ)
      (log : List (Request C)) (before : ∀ r ∈ log, r.place = place) :
      ∀ r ∈ (plan.run (logged answer) (state, log)).2.2, r.place = place := by
    induction stays generalizing state log with
    | done result => exact before
    | fail error => exact before
    | ask here _ ih =>
      rw [run]
      refine ih _ _ _ fun r mem => ?_
      rcases List.mem_append.mp mem with old | new
      · exact before r old
      · rw [List.mem_singleton.mp new]
        exact here
  exact run_log plan stays state [] (by simp)

end Plan

namespace SqlAdapter
open Plan
variable (a : SqlAdapter) (place : Place) (table : String)

theorem find_stays (filter : Filter) (options : FindOptions) :
    (a.find place table filter options).Stays place :=
  (stays_lift _).bind fun _ => stays_call place _

theorem findOne_stays (filter : Filter) : (a.findOne place table filter).Stays place :=
  (a.find_stays place table filter .first).bind fun rows => .done rows.head?

theorem outcome_stays (s : Sql.Statement) : (a.outcome place s).Stays place := by
  unfold outcome
  cases a.backend.insertStrategy with
  | returning | outputClause =>
    exact (stays_call place _).bind fun rows => .done (InsertOutcome.rows rows)
  | lastInsertId | generatedId => exact (stays_call place _).bind fun _ => .done _

theorem insert_stays (record : Record) : (a.insert place table record).Stays place := by
  refine (a.outcome_stays place _).bind fun outcome => ?_
  cases Reconciliation.ofOutcome outcome record (a.primaryKeys table) with
  | settled record => exact .done record
  | lookUp field value fallback =>
    exact (a.findOne_stays place table _).attempt.bind fun row => .done _

theorem findById_stays (id : Value) : (a.findById place table id).Stays place :=
  (stays_lift _).bind fun filter => a.findOne_stays place table filter

theorem update_stays (filter : Filter) (changes : Record) :
    (a.update place table filter changes).Stays place :=
  (stays_lift _).bind fun _ => (stays_call place _).bind fun done => .done done.affected

theorem updateOne_stays (filter : Filter) (changes : Record) :
    (a.updateOne place table filter changes).Stays place := by
  refine (a.findOne_stays place table filter).bind fun found => ?_
  cases found with
  | none => exact .done none
  | some row =>
    refine (stays_lift _).bind fun (field, value) => ?_
    exact (a.update_stays place table _ changes).bind fun _ => a.findOne_stays place table _

theorem updateById_stays (id : Value) (changes : Record) :
    (a.updateById place table id changes).Stays place :=
  (stays_lift _).bind fun filter => a.updateOne_stays place table filter changes

theorem delete_stays (filter : Filter) : (a.delete place table filter).Stays place :=
  (stays_lift _).bind fun _ => (stays_call place _).bind fun done => .done done.affected

theorem deleteOne_stays (filter : Filter) : (a.deleteOne place table filter).Stays place := by
  refine (a.findOne_stays place table filter).bind fun found => ?_
  cases found with
  | none => exact .done false
  | some row =>
    refine (stays_lift _).bind fun (field, value) => ?_
    exact (a.delete_stays place table _).bind fun count => .done (decide (0 < count))

theorem deleteById_stays (id : Value) : (a.deleteById place table id).Stays place :=
  (stays_lift _).bind fun filter =>
    (a.delete_stays place table filter).bind fun count => .done (decide (0 < count))

theorem count_stays (filter : Filter) : (a.count place table filter).Stays place :=
  (stays_lift _).bind fun _ => (stays_call place _).bind fun rows => .done (countOfRows rows)

theorem contains_stays (filter : Filter) : (a.contains place table filter).Stays place :=
  (a.findOne_stays place table filter).bind fun row => .done row.isSome

theorem upsert_stays (filter : Filter) (record : Record) :
    (a.upsert place table filter record).Stays place := by
  refine (a.updateOne_stays place table filter record).bind fun updated => ?_
  cases updated with
  | some row => exact .done row
  | none => exact a.insert_stays place table (filter.seed record)

theorem rows_stays (operation : RowOperation) : (a.rows place table operation).Stays place := by
  cases operation with
  | insert record => exact (a.insert_stays place table record).map _
  | insertMany records => exact (stays_each (a.insert_stays place table) records).map _
  | find filter options => exact (a.find_stays place table filter options).map _
  | findOne filter => exact (a.findOne_stays place table filter).map _
  | findById id => exact (a.findById_stays place table id).map _
  | update filter changes => exact (a.update_stays place table filter changes).map _
  | updateOne filter changes => exact (a.updateOne_stays place table filter changes).map _
  | updateById id changes => exact (a.updateById_stays place table id changes).map _
  | delete filter => exact (a.delete_stays place table filter).map _
  | deleteOne filter => exact (a.deleteOne_stays place table filter).map _
  | deleteById id => exact (a.deleteById_stays place table id).map _
  | count filter => exact (a.count_stays place table filter).map _
  | contains filter => exact (a.contains_stays place table filter).map _
  | upsert filter record => exact (a.upsert_stays place table filter record).map _

theorem define_stays (operation : TableOperation) : (a.define table operation).Stays .own :=
  (stays_lift _).bind fun _ => (stays_call .own _).bind fun _ => .done _

end SqlAdapter

namespace DocumentAdapter
open Plan
variable (a : DocumentAdapter) (place : Place) (collection : String)

theorem insert_stays (record : Record) : (a.insert place collection record).Stays place :=
  (stays_call place _).bind fun id => .done (inserted record id)

theorem insertMany_stays (records : List Record) :
    (a.insertMany place collection records).Stays place := by
  unfold insertMany
  split
  · exact .done []
  · exact (stays_call place _).bind fun ids => .done (List.zipWith inserted records ids)

theorem find_stays (filter : Filter) (options : FindOptions) :
    (a.find place collection filter options).Stays place :=
  (stays_lift _).bind fun _ =>
    (stays_call place _).bind fun documents => .done (documents.map Record.ofDocument)

theorem findOne_stays (filter : Filter) : (a.findOne place collection filter).Stays place :=
  (a.find_stays place collection filter .first).bind fun records => .done records.head?

theorem findById_stays (id : Value) : (a.findById place collection id).Stays place :=
  (stays_lift _).bind fun _ =>
    (stays_call place _).bind fun documents => .done (documents.head?.map Record.ofDocument)

theorem update_stays (filter : Filter) (changes : Record) :
    (a.update place collection filter changes).Stays place :=
  (stays_lift _).bind fun query => (stays_lift _).bind fun update =>
    stays_call place (DocumentCall.updateMany collection query update)

theorem updateFirst_stays (query : Document) (changes : Record) :
    (a.updateFirst place collection query changes).Stays place := by
  refine (stays_lift _).bind fun update => (stays_call place _).bind fun found => ?_
  cases found.head?.bind fun d => d.get? storedId with
  | none => exact .done none
  | some id =>
    exact (stays_call place _).bind fun _ =>
      (stays_call place _).bind fun updated => .done (updated.head?.map Record.ofDocument)

theorem updateOne_stays (filter : Filter) (changes : Record) :
    (a.updateOne place collection filter changes).Stays place :=
  (stays_lift _).bind fun query => a.updateFirst_stays place collection query changes

theorem updateById_stays (id : Value) (changes : Record) :
    (a.updateById place collection id changes).Stays place :=
  (stays_lift _).bind fun query => a.updateFirst_stays place collection query changes

theorem delete_stays (filter : Filter) : (a.delete place collection filter).Stays place :=
  (stays_lift _).bind fun query => stays_call place (DocumentCall.deleteMany collection query)

theorem deleteFirst_stays (query : Document) : (deleteFirst place collection query).Stays place :=
  (stays_call place _).bind fun _ => .done _

theorem deleteOne_stays (filter : Filter) : (a.deleteOne place collection filter).Stays place :=
  (stays_lift _).bind fun query => deleteFirst_stays place collection query

theorem deleteById_stays (id : Value) : (a.deleteById place collection id).Stays place :=
  (stays_lift _).bind fun query => deleteFirst_stays place collection query

theorem count_stays (filter : Filter) : (a.count place collection filter).Stays place :=
  (stays_lift _).bind fun query => stays_call place (DocumentCall.count collection query)

theorem contains_stays (filter : Filter) : (a.contains place collection filter).Stays place :=
  (a.findOne_stays place collection filter).bind fun record => .done record.isSome

theorem upsert_stays (filter : Filter) (record : Record) :
    (a.upsert place collection filter record).Stays place := by
  refine (a.updateOne_stays place collection filter record).bind fun updated => ?_
  cases updated with
  | some record => exact .done record
  | none => exact a.insert_stays place collection (filter.seed record)

theorem rows_stays (operation : RowOperation) :
    (a.rows place collection operation).Stays place := by
  cases operation with
  | insert record => exact (a.insert_stays place collection record).map _
  | insertMany records => exact (a.insertMany_stays place collection records).map _
  | find filter options => exact (a.find_stays place collection filter options).map _
  | findOne filter => exact (a.findOne_stays place collection filter).map _
  | findById id => exact (a.findById_stays place collection id).map _
  | update filter changes => exact (a.update_stays place collection filter changes).map _
  | updateOne filter changes => exact (a.updateOne_stays place collection filter changes).map _
  | updateById id changes => exact (a.updateById_stays place collection id changes).map _
  | delete filter => exact (a.delete_stays place collection filter).map _
  | deleteOne filter => exact (a.deleteOne_stays place collection filter).map _
  | deleteById id => exact (a.deleteById_stays place collection id).map _
  | count filter => exact (a.count_stays place collection filter).map _
  | contains filter => exact (a.contains_stays place collection filter).map _
  | upsert filter record => exact (a.upsert_stays place collection filter record).map _

theorem aggregate_stays (pipeline : List Document) :
    (aggregate place collection pipeline).Stays place :=
  (stays_call place _).bind fun documents => .done (documents.map Record.ofDocument)

theorem define_stays (operation : TableOperation) : (define collection operation).Stays .own := by
  have all (calls : List DocumentCall) : (callAll calls).Stays .own := by
    induction calls with
    | nil => exact .done ()
    | cons c rest ih => exact (stays_call .own c).bind fun _ => ih
  exact (stays_lift _).bind all

end DocumentAdapter

/-- An operation on rows makes all of its calls in the place that it was given, and an operation on
    a table makes all of its calls outside of every transaction. -/
theorem calls_stay_in_place {σ : Type} (place : Place) (table : String) (state : σ) :
    (∀ (a : SqlAdapter) operation answer,
      ∀ r ∈ (a.rows place table operation).requests answer state, r.place = place) ∧
    (∀ (a : SqlAdapter) operation answer,
      ∀ r ∈ (a.define table operation).requests answer state, r.place = .own) ∧
    (∀ (a : DocumentAdapter) operation answer,
      ∀ r ∈ (a.rows place table operation).requests answer state, r.place = place) ∧
    (∀ pipeline answer,
      ∀ r ∈ (DocumentAdapter.aggregate place table pipeline).requests answer state,
        r.place = place) ∧
    (∀ operation answer,
      ∀ r ∈ (DocumentAdapter.define table operation).requests answer state, r.place = .own) := by
  refine ⟨?_, ?_, ?_, ?_, ?_⟩
  · intro a operation answer
    exact (a.rows_stays place table operation).requests answer state
  · intro a operation answer
    exact (a.define_stays table operation).requests answer state
  · intro a operation answer
    exact (a.rows_stays place table operation).requests answer state
  · intro pipeline answer
    exact (DocumentAdapter.aggregate_stays place table pipeline).requests answer state
  · intro operation answer
    exact (DocumentAdapter.define_stays table operation).requests answer state

end StoreBridge
