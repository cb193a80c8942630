import StoreBridge.Adapter.Sql
import StoreBridge.Proofs.Sql.Command

/-!
Operations on a single row. The row is looked up first, and the statement that changes or deletes
it has its value in one column for a condition: the first column of the declared key. No other row
is touched where that column alone tells the rows apart. It is a key of several columns that the
statement does not write out.
-/
namespace StoreBridge

namespace Plan
variable {C : Type} {Reply : C → Type} {α β σ : Type}
  {answer : (r : Request C) → σ → Except Error (Reply r.call) × σ}

theorem run_bind (plan : Plan C Reply α) (next : α → Plan C Reply β) (state : σ) :
    (plan >>= next).run answer state =
      match plan.run answer state with
      | (.ok result, state) => (next result).run answer state
      | (.error error, state) => (.error error, state) := by
  induction plan generalizing state with
  | done result => rfl
  | fail error => rfl
  | ask request rest ih => exact ih _ _

theorem run_call (place : Place) (c : C) (state : σ) :
    (call place c : Plan C Reply (Reply c)).run answer state = answer ⟨place, c⟩ state := by
  cases replied : answer ⟨place, c⟩ state with
  | mk reply after =>
    cases reply <;> simp [call, run, replied]

theorem run_lift (result : Except Error α) (state : σ) :
    (lift result : Plan C Reply α).run answer state = (result, state) := by
  cases result <;> rfl

end Plan

def SqlCall.statement : SqlCall → Sql.Statement
  | .query s | .execute s => s

/-- A database: what its tables hold for each place, its answers, and how it tests and writes
    rows. -/
structure Engine (σ : Type) where
  tables : σ → Place → Sql.Tables
  answer : (r : Request SqlCall) → σ → Except Error r.call.Reply × σ
  truth : Record → Sql.FieldTest → Truth
  /-- Whether `=` holds between a cell and an operand. -/
  equal : Value → Value → Bool
  /-- Writes fields into a row. -/
  assign : Record → Record → Record

namespace Engine
variable {σ : Type} (e : Engine σ)

/-- The database does what a statement says, or fails and does nothing. -/
structure Faithful : Prop where
  equal_symm : ∀ {a b}, e.equal a b → e.equal b a
  equal_trans : ∀ {a b c}, e.equal a b → e.equal b c → e.equal a c
  truth_equal : ∀ {row column operand}, e.truth row (.compare column .eq operand) = .true ↔
    ∃ cell, row.get? column = some cell ∧ e.equal cell operand
  done : ∀ {r command} (state), r.call.statement.command = some command →
    e.tables (e.answer r state).2 r.place =
      if (e.answer r state).1.isOk then command.effect e.truth e.assign (e.tables state r.place)
      else e.tables state r.place
  found : ∀ {place s command state rows}, s.command = some command →
    (e.answer ⟨place, .query s⟩ state).1 = .ok rows →
      rows ⊆ command.met e.truth (e.tables state place)

/-- Two rows hold equal values in each of the columns. -/
def AgreeOn (columns : List String) (row other : Record) : Prop :=
  ∀ column ∈ columns, ∃ cell twin, row.get? column = some cell ∧
    other.get? column = some twin ∧ e.equal cell twin

end Engine

/-- One row of a table has made way for others, and nothing else has changed. -/
def Sql.Replaces (table : List String) (row : Record) (others : List Record)
    (before after : Tables) : Prop :=
  ∃ front behind, before table = front ++ row :: behind ∧
    after = Function.update before table (front ++ others ++ behind)

theorem alone_in {α : Type} {test : α → Bool} {items : List α} {item : α}
    (apart : items.Pairwise fun one other => ¬(test one ∧ test other)) (mem : item ∈ items)
    (passes : test item) :
    ∃ front behind, items = front ++ item :: behind ∧
      (∀ other ∈ front, test other = false) ∧ ∀ other ∈ behind, test other = false := by
  obtain ⟨front, behind, rfl⟩ := List.append_of_mem mem
  rw [List.pairwise_append, List.pairwise_cons] at apart
  obtain ⟨_, ⟨later, _⟩, across⟩ := apart
  refine ⟨front, behind, rfl, fun other inside => ?_, fun other inside => ?_⟩
  · simpa [passes] using across other inside item (by simp)
  · simpa [passes] using later other inside

namespace SqlAdapter
variable {σ : Type} {e : Engine σ} {a : SqlAdapter} {place : Place} {table column : String}
  {others : List String} {filter : Filter} {changes row : Record} {value : Value} {state : σ}
open Sql

theorem findOne_run (faithful : e.Faithful) (a : SqlAdapter) (place : Place) (table : String)
    (filter : Filter) (state : σ) :
    let (result, after) := (a.findOne place table filter).run e.answer state
    e.tables after place = e.tables state place ∧
      ∀ row, result = .ok (some row) → row ∈ e.tables state place (tableParts table) := by
  cases built : Statement.select table filter .first a.dialect with
  | error error => simp [findOne, find, Plan.run_bind, Plan.run_lift, built]
  | ok s =>
    obtain ⟨clause, compiled, _⟩ := Statement.select_built built
    obtain ⟨condition, chosen⟩ := Clause.ofFilter_chooses compiled
    have command := Statement.select_first built compiled chosen
    have kept : e.tables (e.answer ⟨place, .query s⟩ state).2 place = e.tables state place :=
      (faithful.done (r := ⟨place, .query s⟩) state command).trans (ite_self _)
    have among : ∀ rows, (e.answer ⟨place, .query s⟩ state).1 = .ok rows →
        rows ⊆ _ := fun _ replied => faithful.found command replied
    simp only [findOne, find, query, call, Plan.run_bind, Plan.run_lift, Plan.run_call, built]
    generalize e.answer ⟨place, .query s⟩ state = answered at kept among ⊢
    obtain ⟨reply, after⟩ := answered
    cases reply with
    | error error => exact ⟨kept, by simp⟩
    | ok rows =>
      refine ⟨kept, fun row first => ?_⟩
      have inside : row ∈ rows := List.mem_of_head? (Except.ok.inj first)
      exact (List.mem_filter.mp (among rows rfl inside)).1

abbrev holding (d : Dialect) (column : String) (value : Value) : Formula FieldTest :=
  .test (.compare column .eq (d.stored value))

theorem execute_run (faithful : e.Faithful) (place : Place) {s : Statement} {command : Command}
    (read : s.command = some command) (state : σ) :
    let after := ((execute place s).run e.answer state).2
    e.tables after place = e.tables state place ∨
      e.tables after place = command.effect e.truth e.assign (e.tables state place) := by
  have ran : (execute place s).run e.answer state = e.answer ⟨place, .execute s⟩ state :=
    Plan.run_call place (SqlCall.execute s) state
  have done := faithful.done (r := ⟨place, .execute s⟩) state read
  rw [ran]
  split at done
  · exact .inr done
  · exact .inl done

theorem delete_run (faithful : e.Faithful) (a : SqlAdapter) (place : Place)
    (table column : String) (assigned : value.isNull = false) (state : σ) :
    let after := ((a.delete place table (.equals column value)).run e.answer state).2
    e.tables after place = e.tables state place ∨
      e.tables after place = (Command.delete (tableParts table)
        (holding a.dialect column value)).effect e.truth e.assign (e.tables state place) := by
  cases built : Statement.delete table (.equals column value) a.dialect with
  | error error => simp [delete, Plan.run_bind, Plan.run_lift, built]
  | ok s =>
    obtain ⟨clause, compiled, _⟩ := Statement.delete_built built
    have command := Statement.delete_chosen built compiled
      (Clause.equals_chooses compiled assigned)
    have done := execute_run faithful place command state
    simp only [delete, Plan.run_bind, Plan.run_lift, built]
    generalize (execute place s).run e.answer state = answered at done ⊢
    obtain ⟨reply, after⟩ := answered
    cases reply <;> exact done

theorem update_run (faithful : e.Faithful) (a : SqlAdapter) (place : Place)
    (table column : String) (changes : Record) (assigned : value.isNull = false) (state : σ) :
    let after := ((a.update place table (.equals column value) changes).run e.answer state).2
    e.tables after place = e.tables state place ∨
      e.tables after place = (Command.update (tableParts table)
        (changes.map fun field => (field.1, a.dialect.stored field.2))
        (holding a.dialect column value)).effect e.truth e.assign (e.tables state place) := by
  cases built : Statement.update table changes (.equals column value) a.dialect with
  | error error => simp [update, Plan.run_bind, Plan.run_lift, built]
  | ok s =>
    obtain ⟨clause, compiled, _⟩ := Statement.update_built built
    have command := Statement.update_chosen built compiled
      (Clause.equals_chooses compiled assigned)
    have done := execute_run faithful place command state
    simp only [update, Plan.run_bind, Plan.run_lift, built]
    generalize (execute place s).run e.answer state = answered at done ⊢
    obtain ⟨reply, after⟩ := answered
    cases reply <;> exact done

theorem rowKey_declared {field : String} (declared : a.primaryKeys table = column :: others)
    (known : a.rowKey table row = .ok (field, value)) :
    field = column ∧ row.get? column = some value ∧ value.isNull = false := by
  have first : Reconciliation.keyField row (a.primaryKeys table) = some ⟨column, false⟩ := by
    rw [declared]
    rfl
  simp only [rowKey, first] at known
  cases held : Reconciliation.assigned? row column with
  | none => simp [held] at known
  | some found =>
    simp only [held, Except.ok.injEq, Prod.mk.injEq] at known
    obtain ⟨rfl, rfl⟩ := known
    obtain ⟨there, some⟩ := Option.filter_eq_some_iff.mp held
    exact ⟨rfl, there, by simpa using some⟩

theorem alone_holding {d : Dialect} {rows : List Record} (faithful : e.Faithful)
    (distinct : rows.Pairwise fun row other => ¬e.AgreeOn [column] row other) (mem : row ∈ rows)
    (held : row.get? column = some value) (bound : e.equal value (d.stored value)) :
    ∃ front behind, rows = front ++ row :: behind ∧
      Command.meets e.truth (holding d column value) row ∧
      (∀ other ∈ front, Command.meets e.truth (holding d column value) other = false) ∧
      ∀ other ∈ behind, Command.meets e.truth (holding d column value) other = false := by
  have meets_iff {other : Record} : Command.meets e.truth (holding d column value) other ↔
      ∃ cell, other.get? column = some cell ∧ e.equal cell (d.stored value) := by
    rw [← faithful.truth_equal]
    simp [Command.meets, Formula.truth]
  have self := meets_iff.mpr ⟨value, held, bound⟩
  have apart : rows.Pairwise fun row other =>
      ¬(Command.meets e.truth (holding d column value) row ∧
        Command.meets e.truth (holding d column value) other) := by
    refine distinct.imp fun different both => different fun other mem => ?_
    rw [List.mem_singleton] at mem
    subst mem
    -- Both cells equal the operand of the statement, so they equal each other.
    obtain ⟨cell, there, left⟩ := meets_iff.mp both.1
    obtain ⟨twin, here, right⟩ := meets_iff.mp both.2
    exact ⟨cell, twin, there, here, faithful.equal_trans left (faithful.equal_symm right)⟩
  obtain ⟨front, behind, split, before, after⟩ := alone_in apart mem self
  exact ⟨front, behind, split, self, before, after⟩

section Keyed
variable (faithful : e.Faithful)
  (distinct : (e.tables state place (tableParts table)).Pairwise fun row other =>
    ¬e.AgreeOn [column] row other)
  (mem : row ∈ e.tables state place (tableParts table)) (held : row.get? column = some value)
  (assigned : value.isNull = false) (bound : e.equal value (a.dialect.stored value))
include faithful distinct mem held assigned bound

theorem delete_keyed :
    let after := ((a.delete place table (.equals column value)).run e.answer state).2
    e.tables after place = e.tables state place ∨
      Replaces (tableParts table) row [] (e.tables state place) (e.tables after place) := by
  obtain ⟨front, behind, split, self, before, after⟩ :=
    alone_holding faithful distinct mem held bound
  refine (delete_run faithful a place table column assigned state).imp_right fun done => ?_
  refine ⟨front, behind, split, done.trans ?_⟩
  have kept {rows : List Record}
      (each : ∀ other ∈ rows,
        Command.meets e.truth (holding a.dialect column value) other = false) :
      rows.filter (fun row => !Command.meets e.truth (holding a.dialect column value) row) = rows :=
    List.filter_eq_self.mpr fun other inside => by simp [each other inside]
  simp only [Command.effect, split, List.filter_append, List.filter_cons, kept before, kept after,
    self, Bool.not_true, Bool.false_eq_true, if_false, List.append_nil]

theorem update_keyed (changes : Record) :
    let after := ((a.update place table (.equals column value) changes).run e.answer state).2
    e.tables after place = e.tables state place ∨
      Replaces (tableParts table) row
        [e.assign row (changes.map fun field => (field.1, a.dialect.stored field.2))]
        (e.tables state place) (e.tables after place) := by
  obtain ⟨front, behind, split, self, before, after⟩ :=
    alone_holding faithful distinct mem held bound
  refine (update_run faithful a place table column changes assigned state).imp_right
    fun done => ?_
  refine ⟨front, behind, split, done.trans ?_⟩
  have kept {rows : List Record} (put : Record → Record)
      (each : ∀ other ∈ rows,
        Command.meets e.truth (holding a.dialect column value) other = false) :
      rows.map (fun row =>
        if Command.meets e.truth (holding a.dialect column value) row then put row else row) =
      rows :=
    (List.map_congr_left fun other inside => by simp [each other inside]).trans (List.map_id rows)
  simp only [Command.effect, split, List.map_append, List.map_cons, kept _ before, kept _ after,
    self, if_true, List.append_assoc, List.singleton_append]

end Keyed

theorem deleteOne_run {looked : σ}
    (found : (a.findOne place table filter).run e.answer state = (.ok (some row), looked))
    (known : a.rowKey table row = .ok (column, value)) :
    ((a.deleteOne place table filter).run e.answer state).2 =
      ((a.delete place table (.equals column value)).run e.answer looked).2 := by
  simp only [deleteOne, Plan.run_bind, found, Plan.run_lift, known]
  generalize (a.delete place table (.equals column value)).run e.answer looked = answered
  obtain ⟨count, after⟩ := answered
  cases count <;> rfl

theorem updateOne_run (faithful : e.Faithful) (changes : Record) {looked : σ}
    (found : (a.findOne place table filter).run e.answer state = (.ok (some row), looked))
    (known : a.rowKey table row = .ok (column, value)) :
    e.tables ((a.updateOne place table filter changes).run e.answer state).2 place =
      e.tables ((a.update place table (.equals column value) changes).run e.answer looked).2
        place := by
  simp only [updateOne, Plan.run_bind, found, Plan.run_lift, known]
  generalize (a.update place table (.equals column value) changes).run e.answer looked = answered
  obtain ⟨count, after⟩ := answered
  cases count with
  | error error => rfl
  | ok count => exact (findOne_run faithful a place table _ after).1

/-- Where the first column of a table's key tells its rows apart, deleting one and updating one
    touch the row that their look-up found, or none. -/
theorem single_row_touched (faithful : e.Faithful)
    (declared : a.primaryKeys table = column :: others)
    (distinct : (e.tables state place (tableParts table)).Pairwise fun row other =>
      ¬e.AgreeOn [column] row other)
    (bound : ∀ row ∈ e.tables state place (tableParts table), ∀ cell,
      row.get? column = some cell → cell.isNull = false → e.equal cell (a.dialect.stored cell)) :
    let tables := e.tables state place
    let found := ((a.findOne place table filter).run e.answer state).1
    let deleted := e.tables ((a.deleteOne place table filter).run e.answer state).2 place
    let updated := e.tables ((a.updateOne place table filter changes).run e.answer state).2 place
    (deleted = tables ∨ ∃ row, found = .ok (some row) ∧
      Replaces (tableParts table) row [] tables deleted) ∧
    (updated = tables ∨ ∃ row, found = .ok (some row) ∧
      Replaces (tableParts table) row
        [e.assign row (changes.map fun field => (field.1, a.dialect.stored field.2))]
        tables updated) := by
  obtain ⟨same, inside⟩ := findOne_run faithful a place table filter state
  match looking : (a.findOne place table filter).run e.answer state with
  | (.error error, looked) | (.ok none, looked) =>
    have kept : e.tables looked place = e.tables state place := by rwa [looking] at same
    simp only [deleteOne, updateOne, Plan.run_bind, looking]
    exact ⟨.inl kept, .inl kept⟩
  | (.ok (some row), looked) =>
    rw [looking] at same inside
    cases known : a.rowKey table row with
    | error error =>
      simp only [deleteOne, updateOne, Plan.run_bind, looking, Plan.run_lift, known]
      exact ⟨.inl same, .inl same⟩
    | ok key =>
      obtain ⟨field, value⟩ := key
      obtain ⟨rfl, held, assigned⟩ := rowKey_declared declared known
      have mem := inside row rfl
      have self := bound row mem value held assigned
      rw [← same] at distinct mem ⊢
      rw [deleteOne_run looking known, updateOne_run faithful changes looking known]
      have deleted := delete_keyed faithful distinct mem held assigned self
      have updated := update_keyed faithful distinct mem held assigned self changes
      exact ⟨deleted.imp_right fun done => ⟨row, rfl, done⟩,
        updated.imp_right fun done => ⟨row, rfl, done⟩⟩

end SqlAdapter

namespace Engine.Plain
open Sql

def equal : Value → Value → Bool
  | .int i, .int j => i == j
  | .text s, .text t => s == t
  | _, _ => false

def truth (row : Record) : FieldTest → Truth
  | .compare column .eq operand =>
    match row.get? column with
    | some cell => if cell.isNull then .unknown else Truth.ofBool (equal cell operand)
    | none => .unknown
  | _ => .unknown

def answer : (r : Request SqlCall) → Tables → Except Error r.call.Reply × Tables
  | ⟨_, .query s⟩, tables =>
    match s.command with
    | some (.select table condition limit) =>
      let rows := (Command.select table condition limit).met truth tables
      (.ok (limit.elim rows rows.take), tables)
    | _ => (.error (.driver "no rows"), tables)
  | ⟨_, .execute s⟩, tables =>
    match s.command with
    | some command =>
      (.ok ⟨(command.met truth tables).length, none⟩, command.effect truth Entries.merge tables)
    | none => (.error (.driver "syntax error"), tables)

end Engine.Plain

/-- A database in memory, which reads the text of each statement. It tests nothing but equality. -/
def Engine.plain : Engine Sql.Tables where
  tables tables _ := tables
  answer := Plain.answer
  truth := Plain.truth
  equal := Plain.equal
  assign := Entries.merge

theorem Engine.plain_faithful : plain.Faithful where
  equal_symm {a b} same := by
    cases a <;> cases b <;> simp_all [plain, Plain.equal]
  equal_trans {a b c} left right := by
    cases a <;> cases b <;> cases c <;> simp_all [plain, Plain.equal]
  truth_equal {row column operand} := by
    simp only [plain, Plain.truth]
    cases row.get? column with
    | none => simp
    | some cell =>
      cases null : cell.isNull with
      | true => cases cell <;> simp_all [Value.isNull, Plain.equal]
      | false => cases same : Plain.equal cell operand <;> simp [null, same, Truth.ofBool]
  done {r command} state read := by
    obtain ⟨place, call⟩ := r
    cases call with
    | query s =>
      simp only [SqlCall.statement] at read
      cases command <;>
        simp [plain, Plain.answer, read, Sql.Command.effect, Except.isOk, Except.toBool]
    | execute s =>
      simp only [SqlCall.statement] at read
      simp [plain, Plain.answer, read, Except.isOk, Except.toBool]
  found {place s command state rows} read replied := by
    cases command with
    | select table condition limit =>
      simp only [plain, Plain.answer, read, Except.ok.injEq] at replied
      subst replied
      cases limit with
      | none => exact List.Subset.refl _
      | some n => exact List.take_subset n _
    | _ => simp [plain, Plain.answer, read] at replied

namespace SqlAdapter
open Sql

/-- A key of one column, and a filter that holds for every row. -/
theorem single_row_touched_notes :
    let e := Engine.plain
    let a : SqlAdapter := .declarePrimaryKey ⟨.sqlite, []⟩ "notes" ["slug"]
    let rows : List Record :=
      [[("slug", .text "a"), ("stars", .int 1)], [("slug", .text "b"), ("stars", .int 1)]]
    let state : Tables := Function.update (fun _ => []) (tableParts "notes") rows
    let filter := Filter.equals "stars" (.int 1)
    let changes : Record := [("slug", .text "c"), ("stars", .int 2)]
    let tables := e.tables state .own
    let found := ((a.findOne .own "notes" filter).run e.answer state).1
    let deleted := e.tables ((a.deleteOne .own "notes" filter).run e.answer state).2 .own
    let updated := e.tables ((a.updateOne .own "notes" filter changes).run e.answer state).2 .own
    (deleted = tables ∨ ∃ row, found = .ok (some row) ∧
      Replaces (tableParts "notes") row [] tables deleted) ∧
    (updated = tables ∨ ∃ row, found = .ok (some row) ∧
      Replaces (tableParts "notes") row
        [e.assign row (changes.map fun field => (field.1, a.dialect.stored field.2))]
        tables updated) := by
  intro e a rows state filter changes
  have held : e.tables state .own (tableParts "notes") = rows := by
    simp [e, Engine.plain, state]
  have declared : a.primaryKeys "notes" = ["slug"] := rfl
  have distinct : rows.Pairwise fun row other => ¬e.AgreeOn ["slug"] row other := by
    simp [e, rows, Engine.AgreeOn, Entries.get?, Engine.plain, Engine.Plain.equal]
  have bound : ∀ row ∈ rows, ∀ cell, row.get? "slug" = some cell → cell.isNull = false →
      e.equal cell (a.dialect.stored cell) := by
    simp [e, rows, Entries.get?, Engine.plain, Engine.Plain.equal, Dialect.stored]
  rw [← held] at distinct bound
  exact single_row_touched Engine.plain_faithful declared distinct bound

/-- Two rows that only the second column of their key tells apart are deleted together. -/
theorem delete_one_takes_two :
    let a : SqlAdapter := .declarePrimaryKey ⟨.postgres, []⟩ "memberships" ["user_id", "group_id"]
    let rows : List Record :=
      [[("user_id", .int 1), ("group_id", .int 2), ("role", .text "guest")],
        [("user_id", .int 1), ("group_id", .int 3), ("role", .text "owner")]]
    let tables : Tables := Function.update (fun _ => []) ["memberships"] rows
    let deletion := (a.deleteOne .own "memberships" (.equals "role" (.text "guest"))).run
      Engine.plain.answer tables
    Engine.plain.Faithful ∧ a.primaryKeys "memberships" = ["user_id", "group_id"] ∧
      rows.Pairwise (fun row other => ¬Engine.plain.AgreeOn ["user_id", "group_id"] row other) ∧
      (∀ row ∈ rows, ∀ column ∈ ["user_id", "group_id"],
        ∃ cell, row.get? column = some cell ∧ cell.isNull = false) ∧
      deletion.1 = .ok true ∧ deletion.2 ["memberships"] = [] := by
  refine ⟨Engine.plain_faithful, rfl, ?distinct, ?filled, rfl, rfl⟩
  case distinct =>
    simp [Engine.AgreeOn, Entries.get?, Engine.plain, Engine.Plain.equal]
  case filled =>
    simp [Entries.get?, Value.isNull]

end SqlAdapter
end StoreBridge
