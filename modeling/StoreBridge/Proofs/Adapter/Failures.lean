import StoreBridge.Proofs.Acceptance
import StoreBridge.Proofs.Adapter.Upserting

/-!
What a failing call does to an operation. The operation is over, and the error is what it comes to.
One call is spared, the look-up by which an insert reads its row back: its failure is worth as much
as a look-up that finds nothing. A filter that cannot be compiled is refused before any call.
-/
namespace StoreBridge

/-- The filter of the caller, where an operation has one. -/
def RowOperation.filter? : RowOperation → Option Filter
  | .find filter _ | .findOne filter | .update filter _ | .updateOne filter _ | .delete filter
  | .deleteOne filter | .count filter | .contains filter | .upsert filter _ => some filter
  | .insert _ | .insertMany _ | .findById _ | .updateById _ _ | .deleteById _ => none

def RowOperation.changes? : RowOperation → Option Record
  | .update _ changes | .updateOne _ changes | .updateById _ changes | .upsert _ changes =>
    some changes
  | _ => none

namespace Plan
variable {C : Type} {Reply : C → Type} {α β : Type} {P : C → Prop}

/-- Each call is such a call, and ends the plan with its error when it fails. -/
inductive Stops (P : C → Prop) : Plan C Reply α → Prop where
  | done (result : α) : Stops P (.done result)
  | fail (error : Error) : Stops P (.fail error)
  | ask {request : Request C} {next : Except Error (Reply request.call) → Plan C Reply α}
      (such : P request.call) (stop : ∀ error, next (.error error) = .fail error)
      (later : ∀ reply, Stops P (next (.ok reply))) : Stops P (.ask request next)

theorem Stops.bind {plan : Plan C Reply α} {next : α → Plan C Reply β} (first : plan.Stops P)
    (later : ∀ result, (next result).Stops P) : (plan >>= next).Stops P := by
  induction first with
  | done result => exact later result
  | fail error => exact .fail error
  | ask such stop _ ih =>
    refine .ask such (fun error => ?_) ih
    rw [stop error]
    rfl

theorem Stops.map {plan : Plan C Reply α} (first : plan.Stops P) (f : α → β) :
    (f <$> plan).Stops P :=
  first.bind fun result => .done (f result)

theorem stops_lift {result : Except Error α} {next : α → Plan C Reply β}
    (later : ∀ value, result = .ok value → (next value).Stops P) :
    (lift result >>= next).Stops P := by
  cases result with
  | ok value => exact later value rfl
  | error error => exact .fail error

theorem stops_call (place : Place) {c : C} (such : P c) :
    (call place c : Plan C Reply (Reply c)).Stops P :=
  .ask such (fun _ => rfl) fun reply => .done reply

theorem Stops.only {plan : Plan C Reply α} (stops : plan.Stops P) : plan.Only P := by
  induction stops with
  | done result => exact only_done result
  | fail error =>
    intro log outcome trace
    obtain ⟨rfl, _⟩ := trace_fail.mp trace
    simp
  | ask such stop _ ih =>
    intro log outcome trace e mem
    cases trace with
    | ask answer later =>
      rcases List.mem_cons.mp mem with rfl | behind
      · exact such
      · cases answer with
        | ok reply => exact ih reply _ _ later e behind
        | error error =>
          rw [stop, trace_fail] at later
          simp [later.1] at behind

theorem Stops.failed {plan : Plan C Reply α} {before behind : List (Exchange C Reply)}
    {e : Exchange C Reply} {error : Error} {outcome : Except Error α} (stops : plan.Stops P)
    (trace : plan.Trace (before ++ e :: behind) outcome) (failed : e.answer = .error error) :
    behind = [] ∧ outcome = .error error := by
  induction stops generalizing before with
  | done result => simp [trace_done] at trace
  | fail error => simp [trace_fail] at trace
  | ask such stop _ ih =>
    cases before with
    | nil =>
      rw [List.nil_append] at trace
      cases trace with
      | ask answer later =>
        obtain rfl : answer = .error error := failed
        rwa [stop, trace_fail] at later
    | cons first rest =>
      cases trace with
      | ask answer later =>
        cases answer with
        | ok reply => exact ih reply later
        | error error => simp [stop, trace_fail] at later

/-- Where a call fails it is the last one, and its error is the outcome. -/
def FailsLast (log : List (Exchange C Reply)) (outcome : Except Error α) : Prop :=
  ∀ before e behind error, log = before ++ e :: behind → e.answer = .error error →
    behind = [] ∧ outcome = .error error

theorem Stops.failsLast {σ : Type} {plan : Plan C Reply α} (stops : plan.Stops P)
    (answer : (r : Request C) → σ → Except Error (Reply r.call) × σ) (state : σ) :
    FailsLast (plan.exchanges answer state) (plan.run answer state).1 := by
  intro before e behind error split failed
  have trace := exchanges_trace answer plan state
  rw [split] at trace
  exact stops.failed trace failed

end Plan

namespace Sql.Statement
open Token
variable {table : String} {filter : Filter} {d : Dialect} {s : Statement}

theorem countRows_verb (built : countRows table filter d = .ok s) : s.verb = some "SELECT" := by
  obtain ⟨clause, _, rfl⟩ := countRows_built built
  obtain ⟨rest, same⟩ := spaced_head (.word "SELECT") []
    [.word "COUNT" :: inParens [.symbol "*"], [.word "AS"], [.name "count"], [.word "FROM"],
      Token.table table ++ clause.whereTokens]
  rw [verb, same]

theorem delete_verb (built : delete table filter d = .ok s) : s.verb = some "DELETE" := by
  obtain ⟨clause, _, rfl⟩ := delete_built built
  obtain ⟨rest, same⟩ := spaced_head (.word "DELETE") [.space, .word "FROM"]
    [Token.table table ++ clause.whereTokens]
  exact congrArg (fun tokens => verb ⟨d, tokens⟩) same

end Sql.Statement

namespace SqlAdapter
open Plan Sql
variable {a : SqlAdapter} {place : Place} {table : String} {α β : Type}

abbrev Log := List (Exchange SqlCall SqlCall.Reply)

def InsertedLast (start : Prop) (log : Log) : Prop :=
  (log.getLast?.map fun e => e.request.call.Inserts).getD start

theorem insertedLast_cons (start : Prop) (e : Exchange SqlCall SqlCall.Reply) (log : Log) :
    InsertedLast start (e :: log) ↔ InsertedLast e.request.call.Inserts log := by
  rw [InsertedLast, InsertedLast, List.getLast?_cons]
  cases log.getLast? <;> rfl

/-- What comes right behind an insert, and is no insert itself, reads the row back. -/
def ReadsBack (before : Log) (e : Exchange SqlCall SqlCall.Reply) : Prop :=
  InsertedLast False before ∧ ¬e.request.call.Inserts

/-- Each call that fails ends the plan with its error, but for what is read back by a key. There a
    failure is as good as no row. `fresh` says whether an insert was the last call before. -/
inductive Heeds (a : SqlAdapter) (table : String) : Prop → SqlPlan α → Prop where
  | done {fresh : Prop} (result : α) : Heeds a table fresh (.done result)
  | fail {fresh : Prop} (error : Error) : Heeds a table fresh (.fail error)
  | stop {fresh : Prop} {request : Request SqlCall}
      {next : Except Error request.call.Reply → SqlPlan α}
      (other : fresh → request.call.Inserts) (stop : ∀ error, next (.error error) = .fail error)
      (later : ∀ reply, Heeds a table request.call.Inserts (next (.ok reply))) :
      Heeds a table fresh (.ask request next)
  | spare {fresh : Prop} {place : Place} {s : Statement} {field : String} {value : Value}
      {next : Except Error (List Record) → SqlPlan α} (behind : fresh)
      (asked : Statement.select table (.equals field value) .first a.dialect = .ok s)
      (spared : ∀ error, next (.error error) = next (.ok []))
      (later : ∀ rows, Heeds a table False (next (.ok rows))) :
      Heeds a table fresh (.ask ⟨place, .query s⟩ next)

theorem Heeds.bind {fresh : Prop} {plan : SqlPlan α} {next : α → SqlPlan β}
    (first : Heeds a table fresh plan) (later : ∀ result fresh, Heeds a table fresh (next result)) :
    Heeds a table fresh (plan >>= next) := by
  induction first with
  | done result => exact later result _
  | fail error => exact .fail error
  | stop other stop _ ih =>
    refine .stop other (fun error => ?_) ih
    rw [stop error]
    rfl
  | spare behind asked spared _ ih =>
    refine .spare behind asked (fun error => ?_) ih
    rw [spared error]

theorem heeds_of_stops {plan : SqlPlan α} (stops : plan.Stops fun c => ¬c.Inserts) {fresh : Prop}
    (other : ¬fresh) : Heeds a table fresh plan := by
  induction stops generalizing fresh with
  | done result => exact .done result
  | fail error => exact .fail error
  | ask such stop _ ih => exact .stop (absurd · other) stop fun reply => ih reply such

/-- A look-up by a key that failed. From there a plan goes on in the ways, and to the results, that
    it would have had if no row had been found. -/
def Spared (a : SqlAdapter) (table : String) (plan : SqlPlan α) (before : Log)
    (e : Exchange SqlCall SqlCall.Reply) : Prop :=
  ∃ place s field value error, e = ⟨⟨place, .query s⟩, .error error⟩ ∧
    Statement.select table (.equals field value) .first a.dialect = .ok s ∧
    ∀ later outcome, plan.Trace (before ++ e :: later) outcome ↔
      plan.Trace (before ++ ⟨⟨place, .query s⟩, .ok []⟩ :: later) outcome

theorem Spared.behind {request : Request SqlCall} {answer : Except Error request.call.Reply}
    {next : Except Error request.call.Reply → SqlPlan α} {before : Log}
    {e : Exchange SqlCall SqlCall.Reply} (spared : Spared a table (next answer) before e) :
    Spared a table (.ask request next) (⟨request, answer⟩ :: before) e := by
  obtain ⟨place, s, field, value, error, same, asked, alike⟩ := spared
  refine ⟨place, s, field, value, error, same, asked, fun later outcome => ?_⟩
  rw [List.cons_append, List.cons_append, trace_ask, trace_ask]
  exact alike later outcome

theorem Heeds.failed {plan : SqlPlan α} {fresh : Prop} {before behind : Log}
    {e : Exchange SqlCall SqlCall.Reply} {error : Error} {outcome : Except Error α}
    (heeds : Heeds a table fresh plan) (trace : plan.Trace (before ++ e :: behind) outcome)
    (failed : e.answer = .error error) :
    (¬(InsertedLast fresh before ∧ ¬e.request.call.Inserts) →
      behind = [] ∧ outcome = .error error) ∧
    (InsertedLast fresh before ∧ ¬e.request.call.Inserts → Spared a table plan before e) := by
  induction heeds generalizing before with
  | done result => simp [trace_done] at trace
  | fail error => simp [trace_fail] at trace
  | @stop fresh request next other stop _ ih =>
    cases before with
    | nil =>
      rw [List.nil_append] at trace
      cases trace with
      | ask answer later =>
        obtain rfl : answer = .error error := failed
        rw [stop, trace_fail] at later
        exact ⟨fun _ => later, fun ⟨inserted, bare⟩ => absurd (other inserted) bare⟩
    | cons first rest =>
      cases trace with
      | ask answer later =>
        cases answer with
        | ok reply =>
          obtain ⟨last, spared⟩ := ih reply later
          rw [insertedLast_cons]
          exact ⟨last, fun readBack => (spared readBack).behind⟩
        | error error => simp [stop, trace_fail] at later
  | @spare fresh place s field value next behind asked same _ ih =>
    cases before with
    | nil =>
      rw [List.nil_append] at trace
      cases trace with
      | ask answer later =>
        obtain rfl : answer = .error error := failed
        have quiet : ¬(SqlCall.query s).Inserts := by
          simp [SqlCall.Inserts, SqlCall.statement, Statement.select_verb asked]
        refine ⟨fun other => absurd ⟨behind, quiet⟩ other, fun _ => ?_⟩
        refine ⟨place, s, field, value, error, rfl, asked, fun later outcome => ?_⟩
        rw [List.nil_append, List.nil_append, trace_ask, trace_ask, same error]
    | cons first rest =>
      have quiet : ¬(SqlCall.query s).Inserts := by
        simp [SqlCall.Inserts, SqlCall.statement, Statement.select_verb asked]
      cases trace with
      | ask answer later =>
        have found : ∃ rows, next answer = next (.ok rows) := by
          cases answer with
          | ok rows => exact ⟨rows, rfl⟩
          | error error => exact ⟨[], same error⟩
        obtain ⟨rows, alike⟩ := found
        rw [alike] at later
        obtain ⟨last, spared⟩ := ih rows later
        rw [insertedLast_cons, iff_false_intro quiet]
        exact ⟨last, fun readBack => Spared.behind (alike ▸ spared readBack)⟩

/-! The operations. What inserts nothing stops at every failure. -/

theorem find_stops (filter : Filter) (options : FindOptions) :
    (a.find place table filter options).Stops fun c => ¬c.Inserts := by
  refine stops_lift fun s built => stops_call place ?_
  simp [SqlCall.Inserts, SqlCall.statement, Statement.select_verb built]

theorem findOne_stops (filter : Filter) :
    (a.findOne place table filter).Stops fun c => ¬c.Inserts :=
  (find_stops filter .first).bind fun rows => .done rows.head?

theorem findById_stops (id : Value) :
    (a.findById place table id).Stops fun c => ¬c.Inserts :=
  stops_lift fun filter _ => findOne_stops filter

theorem update_stops (filter : Filter) (changes : Record) :
    (a.update place table filter changes).Stops fun c => ¬c.Inserts := by
  refine stops_lift fun s built => (stops_call place ?_).bind fun done => .done done.affected
  simp [SqlCall.Inserts, SqlCall.statement, Statement.update_verb built]

theorem updateOne_stops (filter : Filter) (changes : Record) :
    (a.updateOne place table filter changes).Stops fun c => ¬c.Inserts := by
  refine (findOne_stops filter).bind fun found => ?_
  cases found with
  | none => exact .done none
  | some row =>
    refine stops_lift fun (field, value) _ => ?_
    exact (update_stops _ changes).bind fun _ => findOne_stops _

theorem updateById_stops (id : Value) (changes : Record) :
    (a.updateById place table id changes).Stops fun c => ¬c.Inserts :=
  stops_lift fun filter _ => updateOne_stops filter changes

theorem delete_stops (filter : Filter) :
    (a.delete place table filter).Stops fun c => ¬c.Inserts := by
  refine stops_lift fun s built => (stops_call place ?_).bind fun done => .done done.affected
  simp [SqlCall.Inserts, SqlCall.statement, Statement.delete_verb built]

theorem deleteOne_stops (filter : Filter) :
    (a.deleteOne place table filter).Stops fun c => ¬c.Inserts := by
  refine (findOne_stops filter).bind fun found => ?_
  cases found with
  | none => exact .done false
  | some row =>
    refine stops_lift fun (field, value) _ => ?_
    exact (delete_stops _).bind fun count => .done (decide (0 < count))

theorem deleteById_stops (id : Value) :
    (a.deleteById place table id).Stops fun c => ¬c.Inserts :=
  stops_lift fun filter _ => (delete_stops filter).bind fun count => .done (decide (0 < count))

theorem count_stops (filter : Filter) :
    (a.count place table filter).Stops fun c => ¬c.Inserts := by
  refine stops_lift fun s built => (stops_call place ?_).bind fun rows => .done (countOfRows rows)
  simp [SqlCall.Inserts, SqlCall.statement, Statement.countRows_verb built]

theorem contains_stops (filter : Filter) :
    (a.contains place table filter).Stops fun c => ¬c.Inserts :=
  (findOne_stops filter).bind fun row => .done row.isSome

theorem readBack_heeds {fresh : Prop} (inserted : fresh) (field : String) (value : Value)
    (fallback : Record) :
    Heeds a table fresh ((a.findOne place table (.equals field value)).attempt >>= fun row =>
      .done (row.join.getD fallback)) := by
  cases asked : Statement.select table (.equals field value) .first a.dialect with
  | error error =>
    have refused : a.findOne place table (.equals field value) = .fail error := by
      simp only [findOne, find, asked]
      rfl
    rw [refused]
    exact .done fallback
  | ok s =>
    have looked : a.findOne place table (.equals field value) =
        (query place s >>= fun rows => .done rows.head?) := by
      simp only [findOne, find, asked]
      rfl
    rw [looked]
    exact .spare inserted asked (fun _ => rfl) fun rows => .done (rows.head?.getD fallback)

theorem outcome_heeds {next : InsertOutcome → SqlPlan α} (fresh : Prop) (record : Record)
    (later : ∀ {fresh : Prop}, fresh → ∀ outcome, Heeds a table fresh (next outcome)) :
    Heeds a table fresh (a.outcome place (.insert table record a.backend) >>= next) := by
  have inserts (c : SqlCall) (same : c.statement = .insert table record a.backend) :
      c.Inserts := by
    rw [SqlCall.Inserts, same, Statement.insert_verb]
  unfold outcome
  cases a.backend.insertStrategy with
  | returning | outputClause =>
    have sent := inserts (.query (.insert table record a.backend)) rfl
    exact .stop (fun _ => sent) (fun _ => rfl) fun rows => later sent _
  | lastInsertId | generatedId =>
    have sent := inserts (.execute (.insert table record a.backend)) rfl
    exact .stop (fun _ => sent) (fun _ => rfl) fun done => later sent _

theorem insert_heeds (fresh : Prop) (record : Record) :
    Heeds a table fresh (a.insert place table record) := by
  refine outcome_heeds fresh record fun {fresh} inserted outcome => ?_
  cases Reconciliation.ofOutcome outcome record (a.primaryKeys table) with
  | settled record => exact .done record
  | lookUp field value fallback => exact readBack_heeds inserted field value fallback

theorem insertMany_heeds (fresh : Prop) (records : List Record) :
    Heeds a table fresh (a.insertMany place table records) := by
  unfold insertMany
  induction records generalizing fresh with
  | nil => exact .done []
  | cons record rest ih =>
    exact (insert_heeds fresh record).bind fun first fresh =>
      (ih fresh).bind fun others _ => .done (first :: others)

theorem upsert_heeds (filter : Filter) (record : Record) :
    Heeds a table False (a.upsert place table filter record) := by
  refine (heeds_of_stops (updateOne_stops filter record) not_false).bind fun updated fresh => ?_
  cases updated with
  | some row => exact .done row
  | none => exact insert_heeds fresh _

theorem rows_heeds (operation : RowOperation) :
    Heeds a table False (a.rows place table operation) := by
  have quiet {α : Type} {plan : SqlPlan α} (stops : plan.Stops fun c => ¬c.Inserts)
      (f : α → RowResult) : Heeds a table False (f <$> plan) :=
    heeds_of_stops (stops.map f) not_false
  have loud {α : Type} {plan : SqlPlan α} (heeds : Heeds a table False plan)
      (f : α → RowResult) : Heeds a table False (f <$> plan) :=
    heeds.bind fun result _ => .done (f result)
  cases operation with
  | insert record => exact loud (insert_heeds False record) _
  | insertMany records => exact loud (insertMany_heeds False records) _
  | find filter options => exact quiet (find_stops filter options) _
  | findOne filter => exact quiet (findOne_stops filter) _
  | findById id => exact quiet (findById_stops id) _
  | update filter changes => exact quiet (update_stops filter changes) _
  | updateOne filter changes => exact quiet (updateOne_stops filter changes) _
  | updateById id changes => exact quiet (updateById_stops id changes) _
  | delete filter => exact quiet (delete_stops filter) _
  | deleteOne filter => exact quiet (deleteOne_stops filter) _
  | deleteById id => exact quiet (deleteById_stops id) _
  | count filter => exact quiet (count_stops filter) _
  | contains filter => exact quiet (contains_stops filter) _
  | upsert filter record => exact loud (upsert_heeds filter record) _

theorem rows_untranslated {operation : RowOperation} {filter : Filter} {error : Error}
    (asks : operation.filter? = some filter)
    (failed : Clause.ofFilter a.dialect filter = .error error) :
    ∃ cause, a.rows place table operation = .fail (.uncompilable cause) := by
  obtain ⟨cause, rfl⟩ := Clause.ofFilter_refuses failed
  have selected (options : FindOptions) :
      Statement.select table filter options a.dialect = .error (.uncompilable cause) := by
    rw [Statement.select, failed]
    rfl
  have deleted : Statement.delete table filter a.dialect = .error (.uncompilable cause) := by
    rw [Statement.delete, failed]
    rfl
  have counted : Statement.countRows table filter a.dialect = .error (.uncompilable cause) := by
    rw [Statement.countRows, failed]
    rfl
  cases operation with
  | insert _ | insertMany _ | findById _ | updateById _ _ | deleteById _ =>
    simp [RowOperation.filter?] at asks
  | update _ changes =>
    obtain rfl := Option.some.inj asks
    -- Changes without fields are refused before the filter is looked at.
    by_cases empty : changes.isEmpty
    · refine ⟨.nothingToSet table, ?_⟩
      rw [rows, update, Statement.update, if_pos empty]
      rfl
    · refine ⟨cause, ?_⟩
      rw [rows, update, Statement.update, if_neg empty, failed]
      rfl
  | find _ _ | findOne _ | updateOne _ _ | delete _ | deleteOne _ | count _ | contains _
  | upsert _ _ =>
    obtain rfl := Option.some.inj asks
    refine ⟨cause, ?_⟩
    simp only [rows, find, findOne, updateOne, delete, deleteOne, count, contains, upsert, selected,
      deleted, counted]
    rfl

end SqlAdapter

def DocumentCall.update? : DocumentCall → Option Document
  | .updateMany _ _ update | .updateOne _ _ update => some update
  | _ => none

namespace DocumentAdapter
open Plan
variable {a : DocumentAdapter} {place : Place} {collection : String} {operation : RowOperation}

def Writes (a : DocumentAdapter) (collection : String) (operation : RowOperation)
    (c : DocumentCall) : Prop :=
  ∀ update, c.update? = some update →
    ∃ changes, operation.changes? = some changes ∧ a.setDocument collection changes = .ok update

theorem quiet_stops {c : DocumentCall} (quiet : c.update? = none) :
    (call place c).Stops (a.Writes collection operation) := by
  refine stops_call place fun update writes => ?_
  rw [quiet] at writes
  cases writes

theorem write_stops {c : DocumentCall} {changes : Record} {update : Document}
    (changing : operation.changes? = some changes)
    (built : a.setDocument collection changes = .ok update) (writes : c.update? = some update) :
    (call place c).Stops (a.Writes collection operation) := by
  refine stops_call place fun other same => ?_
  cases writes.symm.trans same
  exact ⟨changes, changing, built⟩

theorem find_stops (filter : Filter) (options : FindOptions) :
    (a.find place collection filter options).Stops (a.Writes collection operation) :=
  stops_lift fun _ _ => (quiet_stops rfl).bind fun documents =>
    .done (documents.map Record.ofDocument)

theorem findOne_stops (filter : Filter) :
    (a.findOne place collection filter).Stops (a.Writes collection operation) :=
  (find_stops filter .first).bind fun records => .done records.head?

theorem findById_stops (id : Value) :
    (a.findById place collection id).Stops (a.Writes collection operation) :=
  stops_lift fun _ _ => (quiet_stops rfl).bind fun documents =>
    .done (documents.head?.map Record.ofDocument)

theorem insert_stops (record : Record) :
    (a.insert place collection record).Stops (a.Writes collection operation) :=
  (quiet_stops rfl).bind fun id => .done (inserted record id)

theorem insertMany_stops (records : List Record) :
    (a.insertMany place collection records).Stops (a.Writes collection operation) := by
  unfold insertMany
  split
  · exact .done []
  · exact (quiet_stops rfl).bind fun ids => .done (List.zipWith inserted records ids)

theorem update_stops {changes : Record} (changing : operation.changes? = some changes)
    (filter : Filter) :
    (a.update place collection filter changes).Stops (a.Writes collection operation) :=
  stops_lift fun _ _ => stops_lift fun _ built => write_stops changing built rfl

theorem updateFirst_stops {changes : Record} (changing : operation.changes? = some changes)
    (query : Document) :
    (a.updateFirst place collection query changes).Stops (a.Writes collection operation) := by
  refine stops_lift fun update built => (quiet_stops rfl).bind fun found => ?_
  cases found.head?.bind fun d => d.get? storedId with
  | none => exact .done none
  | some id =>
    refine (write_stops changing built rfl).bind fun _ => ?_
    exact (quiet_stops rfl).bind fun updated => .done (updated.head?.map Record.ofDocument)

theorem updateOne_stops {changes : Record} (changing : operation.changes? = some changes)
    (filter : Filter) :
    (a.updateOne place collection filter changes).Stops (a.Writes collection operation) :=
  stops_lift fun query _ => updateFirst_stops changing query

theorem updateById_stops {changes : Record} (changing : operation.changes? = some changes)
    (id : Value) :
    (a.updateById place collection id changes).Stops (a.Writes collection operation) :=
  stops_lift fun query _ => updateFirst_stops changing query

theorem delete_stops (filter : Filter) :
    (a.delete place collection filter).Stops (a.Writes collection operation) :=
  stops_lift fun _ _ => quiet_stops rfl

theorem deleteFirst_stops (query : Document) :
    (deleteFirst place collection query).Stops (a.Writes collection operation) :=
  (quiet_stops rfl).bind fun _ => .done _

theorem deleteOne_stops (filter : Filter) :
    (a.deleteOne place collection filter).Stops (a.Writes collection operation) :=
  stops_lift fun query _ => deleteFirst_stops query

theorem deleteById_stops (id : Value) :
    (a.deleteById place collection id).Stops (a.Writes collection operation) :=
  stops_lift fun query _ => deleteFirst_stops query

theorem count_stops (filter : Filter) :
    (a.count place collection filter).Stops (a.Writes collection operation) :=
  stops_lift fun _ _ => quiet_stops rfl

theorem contains_stops (filter : Filter) :
    (a.contains place collection filter).Stops (a.Writes collection operation) :=
  (findOne_stops filter).bind fun record => .done record.isSome

theorem upsert_stops {record : Record} (changing : operation.changes? = some record)
    (filter : Filter) :
    (a.upsert place collection filter record).Stops (a.Writes collection operation) := by
  refine (updateOne_stops changing filter).bind fun updated => ?_
  cases updated with
  | some record => exact .done record
  | none => exact insert_stops _

theorem rows_stops (operation : RowOperation) :
    (a.rows place collection operation).Stops (a.Writes collection operation) := by
  cases operation with
  | insert record => exact (insert_stops record).map _
  | insertMany records => exact (insertMany_stops records).map _
  | find filter options => exact (find_stops filter options).map _
  | findOne filter => exact (findOne_stops filter).map _
  | findById id => exact (findById_stops id).map _
  | update filter changes => exact (update_stops rfl filter).map _
  | updateOne filter changes => exact (updateOne_stops rfl filter).map _
  | updateById id changes => exact (updateById_stops rfl id).map _
  | delete filter => exact (delete_stops filter).map _
  | deleteOne filter => exact (deleteOne_stops filter).map _
  | deleteById id => exact (deleteById_stops id).map _
  | count filter => exact (count_stops filter).map _
  | contains filter => exact (contains_stops filter).map _
  | upsert filter record => exact (upsert_stops rfl filter).map _

theorem aggregate_stops (pipeline : List Document) :
    (aggregate place collection pipeline).Stops fun c => c.update? = none :=
  (stops_call (P := fun c : DocumentCall => c.update? = none) place rfl).bind fun documents =>
    .done (documents.map Record.ofDocument)

theorem rows_untranslated {operation : RowOperation} {filter : Filter} {error : Error}
    (asks : operation.filter? = some filter)
    (failed : Query.ofFilter a.mode filter = .error error) :
    ∃ cause, a.rows place collection operation = .fail (.uncompilable cause) := by
  obtain ⟨cause, rfl⟩ := Query.ofFilter_refuses failed
  have refused {α : Type} (next : Document → DocumentPlan α) :
      (Plan.lift (Query.ofFilter a.mode filter) >>= next) = .fail (.uncompilable cause) := by
    rw [failed]
    rfl
  refine ⟨cause, ?_⟩
  cases operation with
  | insert _ | insertMany _ | findById _ | updateById _ _ | deleteById _ =>
    simp [RowOperation.filter?] at asks
  | find _ _ | findOne _ | update _ _ | updateOne _ _ | delete _ | deleteOne _ | count _
  | contains _ | upsert _ _ =>
    obtain rfl := Option.some.inj asks
    simp only [rows, find, findOne, update, updateOne, delete, deleteOne, count, contains, upsert,
      refused]
    rfl

end DocumentAdapter

/-- A call that fails is the last one of its operation, which comes to the same error. Where what
    fails is the look-up behind an insert, the operation goes on as if no row had been found; the
    document store has no such look-up. A filter that cannot be compiled leads to no call. -/
theorem failures_stop {σ : Type} (place : Place) (table : String) (state : σ) :
    (∀ (a : SqlAdapter) operation answer,
      let plan := a.rows place table operation
      let log := plan.exchanges answer state
      let outcome := (plan.run answer state).1
      (∀ before e behind error, log = before ++ e :: behind → e.answer = .error error →
        (¬SqlAdapter.ReadsBack before e → behind = [] ∧ outcome = .error error) ∧
        (SqlAdapter.ReadsBack before e → a.Spared table plan before e)) ∧
      ∀ filter error, operation.filter? = some filter →
        Sql.Clause.ofFilter a.dialect filter = .error error →
        log = [] ∧ ∃ cause, outcome = .error (.uncompilable cause)) ∧
    (∀ (a : DocumentAdapter) operation answer,
      let plan := a.rows place table operation
      let log := plan.exchanges answer state
      let outcome := (plan.run answer state).1
      Plan.FailsLast log outcome ∧
      ∀ filter error, operation.filter? = some filter →
        Query.ofFilter a.mode filter = .error error →
        log = [] ∧ ∃ cause, outcome = .error (.uncompilable cause)) ∧
    ∀ pipeline answer,
      let plan := DocumentAdapter.aggregate place table pipeline
      Plan.FailsLast (plan.exchanges answer state) (plan.run answer state).1 := by
  refine ⟨?sql, ?document, ?pipeline⟩
  case sql =>
    intro a operation answer plan log outcome
    constructor
    · intro before e behind error split failed
      have trace : plan.Trace log outcome := Plan.exchanges_trace answer plan state
      rw [split] at trace
      exact (SqlAdapter.rows_heeds operation).failed trace failed
    · intro filter error asks failed
      obtain ⟨cause, refused⟩ : ∃ cause, plan = .fail (.uncompilable cause) :=
        SqlAdapter.rows_untranslated asks failed
      simp only [log, outcome, refused]
      exact ⟨rfl, cause, rfl⟩
  case document =>
    intro a operation answer plan log outcome
    refine ⟨(DocumentAdapter.rows_stops operation).failsLast answer state, ?_⟩
    intro filter error asks failed
    obtain ⟨cause, refused⟩ : ∃ cause, plan = .fail (.uncompilable cause) :=
      DocumentAdapter.rows_untranslated asks failed
    simp only [log, outcome, refused]
    exact ⟨rfl, cause, rfl⟩
  case pipeline =>
    intro pipeline answer plan
    exact (DocumentAdapter.aggregate_stops pipeline).failsLast answer state

/-- The first row of two cannot be read back, and the insert of the second is refused; a change is
    refused behind its look-up; and filters that are not compiled. -/
theorem failures_stop_lost_row :
    let sql (r : Request SqlCall) (calls : Nat) : Except Error r.call.Reply × Nat :=
      match r with
      | ⟨_, .query _⟩ => (.error (.driver "lost connection"), calls + 1)
      | ⟨_, .execute _⟩ =>
        (if calls = 0 then .ok ⟨1, some 8⟩ else .error (.driver "duplicate key"), calls + 1)
    let document (r : Request DocumentCall) (calls : Nat) : Except Error r.call.Reply × Nat :=
      match r with
      | ⟨_, .find _ _ _⟩ => (.ok [[("_id", .int32 1)]], calls + 1)
      | _ => (.error (.driver "not primary"), calls + 1)
    let a : SqlAdapter := ⟨.mysql, [("users", ["id"])]⟩
    let plan := a.rows (.session 3) "users"
      (.insertMany [[("name", .text "Ann")], [("name", .text "Bob")]])
    let change := (DocumentAdapter.mk .raw).rows (.session 3) "users" (.updateOne [] [("n", .null)])
    let pattern : Filter := [.operator "a" .regex (.text "x")]
    let range : Filter := [.operator "a" .between .null]
    (∃ first lookup second, plan.exchanges sql 0 = [first, lookup, second] ∧
      lookup.answer = .error (.driver "lost connection") ∧ SqlAdapter.ReadsBack [first] lookup ∧
      a.Spared "users" plan [first] lookup ∧
      second.answer = .error (.driver "duplicate key") ∧
      (plan.run sql 0).1 = .error (.driver "duplicate key")) ∧
    (a.rows .own "users" (.upsert pattern [])).exchanges sql 0 = [] ∧
    (∃ lookup update, change.exchanges document 0 = [lookup, update] ∧
      update.answer = .error (.driver "not primary") ∧
      (change.run document 0).1 = .error (.driver "not primary")) ∧
    ((DocumentAdapter.mk .raw).rows .own "users" (.deleteOne range)).exchanges document 0 = [] := by
  intro sql document a plan change pattern range
  obtain ⟨inserting, changing, _⟩ := failures_stop (.session 3) "users" 0
  obtain ⟨upserting, deleting, _⟩ := failures_stop .own "users" 0
  refine ⟨⟨_, _, _, rfl, rfl, ?back, ?spared, rfl, ?refused⟩, ?pattern, ⟨_, _, rfl, rfl, ?changed⟩,
    ?range⟩
  case back =>
    exact ⟨rfl, fun (wrong : some "SELECT" = some "INSERT") => absurd wrong (by decide)⟩
  case spared =>
    refine ((inserting a _ sql).1 [_] _ [_] (.driver "lost connection") rfl rfl).2 ⟨rfl, ?_⟩
    exact fun (wrong : some "SELECT" = some "INSERT") => absurd wrong (by decide)
  case refused =>
    refine (((inserting a _ sql).1 [_, _] _ [] (.driver "duplicate key") rfl rfl).1 ?_).2
    exact fun readsBack => readsBack.2 rfl
  case pattern =>
    exact ((upserting a _ sql).2 pattern _ rfl rfl).1
  case changed =>
    exact ((changing ⟨.raw⟩ _ document).1 [_] _ [] (.driver "not primary") rfl rfl).2
  case range =>
    exact ((deleting ⟨.raw⟩ _ document).2 range _ rfl rfl).1

end StoreBridge
