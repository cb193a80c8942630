import StoreBridge.Adapter.Document
import StoreBridge.Proofs.Adapter.Exchanges
import StoreBridge.Proofs.Adapter.SingleRow

/-!
When an upsert inserts. It does so just where its update comes to no row. That is not only where the
filter has none: a row that was found and changed may be gone, or have another key, when it is read
again, and then a second row is made of the same record.
-/
namespace StoreBridge

namespace Sql.Statement
open Token

def verb (s : Statement) : Option String :=
  match s.tokens with
  | .word text :: _ => some text
  | _ => none

theorem spaced_head (token : Token) (part : List Token) (parts : List (List Token)) :
    ∃ rest, spaced ((token :: part) :: parts) = token :: rest := by
  cases parts with
  | nil => exact ⟨part, by simp [spaced, List.intercalate]⟩
  | cons next parts => exact ⟨part ++ .space :: spaced (next :: parts), rfl⟩

theorem select_verb {table : String} {filter : Filter} {options : FindOptions} {d : Dialect}
    {s : Statement} (built : select table filter options d = .ok s) : s.verb = some "SELECT" := by
  obtain ⟨clause, _, rfl⟩ := select_built built
  obtain ⟨body, inner⟩ := spaced_head (.word "SELECT") []
    [selectList options.select, [.word "FROM"], Token.table table ++ clause.whereTokens]
  obtain ⟨rest, outer⟩ := spaced_head (.word "SELECT") body (tail d options)
  rw [verb, inner, outer]

theorem update_verb {table : String} {fields : Record} {filter : Filter} {d : Dialect}
    {s : Statement} (built : update table fields filter d = .ok s) : s.verb = some "UPDATE" := by
  obtain ⟨clause, _, rfl⟩ := update_built built
  obtain ⟨rest, same⟩ := spaced_head (.word "UPDATE") []
    [Token.table table, [.word "SET"], assignments d fields ++ clause.whereTokens]
  rw [verb, same]

theorem insert_verb (table : String) (record : Record) (backend : Backend) :
    (insert table record backend).verb = some "INSERT" := by
  have head : ∀ parts, (Statement.mk backend.dialect
      (spaced (words ["INSERT", "INTO"] :: parts))).verb = some "INSERT" := by
    intro parts
    obtain ⟨rest, same⟩ := spaced_head (.word "INSERT") [.space, .word "INTO"] parts
    exact congrArg (fun tokens => verb ⟨backend.dialect, tokens⟩) same
  unfold insert
  split
  · exact head _
  · exact head _

end Sql.Statement

def SqlCall.Inserts (c : SqlCall) : Prop := c.statement.verb = some "INSERT"

def DocumentCall.Inserts : DocumentCall → Prop
  | .insertOne _ _ | .insertMany _ _ => True
  | _ => False

namespace SqlAdapter
open Plan Sql
variable {a : SqlAdapter} {place : Place} {table : String} {filter : Filter} {changes : Record}
  {log : List (Exchange SqlCall SqlCall.Reply)}

/-- The exchanges of an update of one row that comes to none. -/
inductive Unmatched (a : SqlAdapter) (place : Place) (table : String) (filter : Filter)
    (changes : Record) : List (Exchange SqlCall SqlCall.Reply) → Prop where
  | nothing {lookup : Statement}
      (asked : Statement.select table filter .first a.dialect = .ok lookup) :
      Unmatched a place table filter changes [⟨⟨place, .query lookup⟩, .ok []⟩]
  /-- A row was found and changed, and is not found again. -/
  | vanished {lookup change again : Statement} {row : Record} {rows : List Record}
      {field : String} {value : Value} {done : ExecOutcome}
      (asked : Statement.select table filter .first a.dialect = .ok lookup)
      (key : a.rowKey table row = .ok (field, value))
      (changed : Statement.update table changes (.equals field value) a.dialect = .ok change)
      (read : Statement.select table (.equals field ((changes.get? field).getD value)) .first
        a.dialect = .ok again) :
      Unmatched a place table filter changes
        [⟨⟨place, .query lookup⟩, .ok (row :: rows)⟩, ⟨⟨place, .execute change⟩, .ok done⟩,
          ⟨⟨place, .query again⟩, .ok []⟩]

theorem findOne_trace {found : Option Record} :
    (a.findOne place table filter).Trace log (.ok found) ↔
      ∃ s rows, Statement.select table filter .first a.dialect = .ok s ∧
        log = [⟨⟨place, .query s⟩, .ok rows⟩] ∧ rows.head? = found := by
  unfold findOne find query call
  constructor
  · intro trace
    obtain ⟨rows, _, _, looked, returned, rfl⟩ := trace_bind_ok.mp trace
    obtain ⟨s, _, _, built, asked, rfl⟩ := trace_bind_ok.mp looked
    obtain ⟨rfl, same⟩ := trace_lift.mp built
    obtain ⟨rfl, first⟩ := trace_done.mp returned
    exact ⟨s, rows, same.symm, by simp [trace_call.mp asked], (Except.ok.inj first).symm⟩
  · rintro ⟨s, rows, built, rfl, rfl⟩
    refine trace_bind_ok.mpr ⟨rows, _, [], trace_bind_ok.mpr ?_, .done _,
      (List.append_nil _).symm⟩
    exact ⟨s, [], _, trace_lift.mpr ⟨rfl, built.symm⟩, trace_call.mpr rfl, rfl⟩

theorem update_trace {count : Nat} :
    (a.update place table filter changes).Trace log (.ok count) ↔
      ∃ s done, Statement.update table changes filter a.dialect = .ok s ∧
        log = [⟨⟨place, .execute s⟩, .ok done⟩] ∧ done.affected = count := by
  unfold update execute call
  constructor
  · intro trace
    obtain ⟨s, _, _, built, later, rfl⟩ := trace_bind_ok.mp trace
    obtain ⟨rfl, same⟩ := trace_lift.mp built
    obtain ⟨done, _, _, asked, returned, rfl⟩ := trace_bind_ok.mp later
    obtain ⟨rfl, counted⟩ := trace_done.mp returned
    exact ⟨s, done, same.symm, by simp [trace_call.mp asked], (Except.ok.inj counted).symm⟩
  · rintro ⟨s, done, built, rfl, rfl⟩
    refine trace_bind_ok.mpr ⟨s, [], _, trace_lift.mpr ⟨rfl, built.symm⟩, ?_, rfl⟩
    refine trace_bind_ok.mpr ⟨done, _, [], trace_call.mpr rfl, .done _, (List.append_nil _).symm⟩

/-- An update of one row comes to none by these exchanges only. -/
theorem updateOne_trace :
    (a.updateOne place table filter changes).Trace log (.ok none) ↔
      a.Unmatched place table filter changes log := by
  unfold updateOne
  constructor
  · intro trace
    obtain ⟨found, _, _, looked, later, rfl⟩ := trace_bind_ok.mp trace
    obtain ⟨lookup, rows, asked, rfl, first⟩ := findOne_trace.mp looked
    cases rows with
    | nil =>
      subst first
      obtain ⟨rfl, _⟩ := trace_done.mp later
      exact .nothing asked
    | cons row rows =>
      subst first
      obtain ⟨⟨field, value⟩, _, _, keyed, changing, rfl⟩ := trace_bind_ok.mp later
      obtain ⟨rfl, key⟩ := trace_lift.mp keyed
      obtain ⟨count, _, _, written, last, rfl⟩ := trace_bind_ok.mp changing
      obtain ⟨change, done, changed, rfl, _⟩ := update_trace.mp written
      obtain ⟨again, rows, read, rfl, gone⟩ := findOne_trace.mp last
      obtain rfl := List.head?_eq_none_iff.mp gone
      exact .vanished asked key.symm changed read
  · rintro (asked | ⟨asked, key, changed, read⟩)
    · refine trace_bind_ok.mpr ⟨none, _, [], findOne_trace.mpr ?_, .done none,
        (List.append_nil _).symm⟩
      exact ⟨_, [], asked, rfl, rfl⟩
    · refine trace_bind_ok.mpr ⟨some _, [_], _, findOne_trace.mpr ⟨_, _, asked, rfl, rfl⟩, ?_, rfl⟩
      refine trace_bind_ok.mpr ⟨_, [], _, trace_lift.mpr ⟨rfl, key.symm⟩, ?_, rfl⟩
      refine trace_bind_ok.mpr ⟨_, [_], _, update_trace.mpr ⟨_, _, changed, rfl, rfl⟩, ?_, rfl⟩
      exact findOne_trace.mpr ⟨_, [], read, rfl, rfl⟩

theorem findOne_only : (a.findOne place table filter).Only fun c => ¬c.Inserts := by
  refine Only.bind (only_lift fun s built => only_call place ?_) fun rows => only_done _
  simp [SqlCall.Inserts, SqlCall.statement, Statement.select_verb built]

theorem update_only : (a.update place table filter changes).Only fun c => ¬c.Inserts := by
  refine only_lift fun s built => (only_call place ?_).bind fun done => only_done done.affected
  simp [SqlCall.Inserts, SqlCall.statement, Statement.update_verb built]

theorem updateOne_only : (a.updateOne place table filter changes).Only fun c => ¬c.Inserts := by
  refine findOne_only.bind fun found => ?_
  cases found with
  | none => exact only_done none
  | some row =>
    refine only_lift fun (field, value) _ => ?_
    exact update_only.bind fun _ => findOne_only

theorem insert_makes (record : Record) :
    (a.insert place table record).Makes SqlCall.Inserts := by
  have sent (c : SqlCall) (same : c.statement = .insert table record a.backend) : c.Inserts := by
    rw [SqlCall.Inserts, same, Statement.insert_verb]
  refine Makes.bind ?_
  unfold outcome
  cases a.backend.insertStrategy with
  | returning | outputClause => exact (makes_call place (sent (.query _) rfl)).bind
  | lastInsertId | generatedId => exact (makes_call place (sent (.execute _) rfl)).bind

theorem upsert_inserts {σ : Type}
    (answer : (r : Request SqlCall) → σ → Except Error r.call.Reply × σ) (state : σ) :
    let log := (a.upsert place table filter changes).exchanges answer state
    (∃ e ∈ log, e.request.call.Inserts) ↔
      ∃ before, before <+: log ∧ a.Unmatched place table filter changes before := by
  have whole := exchanges_trace answer (a.upsert place table filter changes) state
  refine (fallback_iff updateOne_only only_done (insert_makes _) whole).trans ?_
  simp only [updateOne_trace]

end SqlAdapter

namespace DocumentAdapter
open Plan
variable {a : DocumentAdapter} {place : Place} {collection : String} {filter : Filter}
  {changes : Record} {log : List (Exchange DocumentCall DocumentCall.Reply)}

/-- The exchanges of an update of one document that comes to none. -/
inductive Unmatched (a : DocumentAdapter) (place : Place) (collection : String) (filter : Filter)
    (changes : Record) : List (Exchange DocumentCall DocumentCall.Reply) → Prop where
  | nothing {query update : Document} (asked : Query.ofFilter a.mode filter = .ok query)
      (change : a.setDocument collection changes = .ok update) :
      Unmatched a place collection filter changes [⟨⟨place, .find collection query first⟩, .ok []⟩]
  /-- A document without an identity is left as it is. -/
  | nameless {query update d : Document} {rest : List Document}
      (asked : Query.ofFilter a.mode filter = .ok query)
      (change : a.setDocument collection changes = .ok update) (name : d.get? storedId = none) :
      Unmatched a place collection filter changes
        [⟨⟨place, .find collection query first⟩, .ok (d :: rest)⟩]
  /-- A document was found and changed, and is not found again. -/
  | vanished {query update d : Document} {rest : List Document} {id : Bson} {count : Nat}
      (asked : Query.ofFilter a.mode filter = .ok query)
      (change : a.setDocument collection changes = .ok update) (name : d.get? storedId = some id) :
      Unmatched a place collection filter changes
        [⟨⟨place, .find collection query first⟩, .ok (d :: rest)⟩,
          ⟨⟨place, .updateOne collection [(storedId, id)] update⟩, .ok count⟩,
          ⟨⟨place, .find collection [(storedId, id)] first⟩, .ok []⟩]

theorem updateOne_trace :
    (a.updateOne place collection filter changes).Trace log (.ok none) ↔
      a.Unmatched place collection filter changes log := by
  unfold updateOne updateFirst findDocuments call
  constructor
  · intro trace
    obtain ⟨query, _, _, built, later, rfl⟩ := trace_bind_ok.mp trace
    obtain ⟨rfl, asked⟩ := trace_lift.mp built
    obtain ⟨update, _, _, written, looking, rfl⟩ := trace_bind_ok.mp later
    obtain ⟨rfl, change⟩ := trace_lift.mp written
    obtain ⟨found, _, _, looked, changing, rfl⟩ := trace_bind_ok.mp looking
    obtain rfl := trace_call.mp looked
    cases found with
    | nil =>
      obtain ⟨rfl, _⟩ := trace_done.mp changing
      exact .nothing asked.symm change.symm
    | cons d rest =>
      cases name : d.get? storedId with
      | none =>
        rw [List.head?_cons, Option.bind_some, name] at changing
        obtain ⟨rfl, _⟩ := trace_done.mp changing
        exact .nameless asked.symm change.symm name
      | some id =>
        rw [List.head?_cons, Option.bind_some, name] at changing
        obtain ⟨count, _, _, sent, reading, rfl⟩ := trace_bind_ok.mp changing
        obtain rfl := trace_call.mp sent
        obtain ⟨updated, _, _, again, returned, rfl⟩ := trace_bind_ok.mp reading
        obtain rfl := trace_call.mp again
        obtain ⟨rfl, gone⟩ := trace_done.mp returned
        have empty := Option.map_eq_none_iff.mp (Except.ok.inj gone).symm
        obtain rfl := List.head?_eq_none_iff.mp empty
        exact .vanished asked.symm change.symm name
  · rintro (⟨asked, change⟩ | ⟨asked, change, name⟩ | ⟨asked, change, name⟩)
    all_goals
      refine trace_bind_ok.mpr ⟨_, [], _, trace_lift.mpr ⟨rfl, asked.symm⟩, ?_, rfl⟩
      refine trace_bind_ok.mpr ⟨_, [], _, trace_lift.mpr ⟨rfl, change.symm⟩, ?_, rfl⟩
      refine trace_bind_ok.mpr ⟨_, [_], _, trace_call.mpr rfl, ?_, rfl⟩
    · exact .done none
    · rw [List.head?_cons, Option.bind_some, name]
      exact .done none
    · rw [List.head?_cons, Option.bind_some, name]
      refine trace_bind_ok.mpr ⟨_, [_], _, trace_call.mpr rfl, ?_, rfl⟩
      exact trace_bind_ok.mpr ⟨_, [_], [], trace_call.mpr rfl, trace_done.mpr ⟨rfl, rfl⟩, rfl⟩

theorem updateOne_only :
    (a.updateOne place collection filter changes).Only fun c => ¬c.Inserts := by
  refine only_lift fun query _ => only_lift fun update _ => ?_
  refine (only_call place id).bind fun found => ?_
  cases found.head?.bind fun d => d.get? storedId with
  | none => exact only_done none
  | some identity =>
    refine (only_call place id).bind fun count => (only_call place id).bind fun updated => ?_
    exact only_done (updated.head?.map Record.ofDocument)

theorem insert_makes (record : Record) :
    (a.insert place collection record).Makes DocumentCall.Inserts :=
  (makes_call place trivial).bind

theorem upsert_inserts {σ : Type}
    (answer : (r : Request DocumentCall) → σ → Except Error r.call.Reply × σ) (state : σ) :
    let log := (a.upsert place collection filter changes).exchanges answer state
    (∃ e ∈ log, e.request.call.Inserts) ↔
      ∃ before, before <+: log ∧ a.Unmatched place collection filter changes before := by
  have whole := exchanges_trace answer (a.upsert place collection filter changes) state
  refine (fallback_iff updateOne_only only_done (insert_makes _) whole).trans ?_
  simp only [updateOne_trace]

end DocumentAdapter

/-- An upsert inserts just where its exchanges begin with those of an update that came to no row:
    nothing was found, or what was found and changed was not found again, or it was a document
    without an identity. -/
theorem upsert_inserts_unmatched {σ : Type} (place : Place) (table : String) (filter : Filter)
    (record : Record) (state : σ) :
    (∀ (a : SqlAdapter) answer,
      let log := (a.upsert place table filter record).exchanges answer state
      (∃ e ∈ log, e.request.call.Inserts) ↔
        ∃ before, before <+: log ∧ a.Unmatched place table filter record before) ∧
    ∀ (a : DocumentAdapter) answer,
      let log := (a.upsert place table filter record).exchanges answer state
      (∃ e ∈ log, e.request.call.Inserts) ↔
        ∃ before, before <+: log ∧ a.Unmatched place table filter record before :=
  ⟨fun _ answer => SqlAdapter.upsert_inserts answer state,
    fun _ answer => DocumentAdapter.upsert_inserts answer state⟩

/-- The look-up finds a row, nothing is found after the update, and a second row is made. -/
theorem upsert_inserts_second_row :
    let found : Record := [("id", .int 1), ("email", .text "a@x")]
    let answer (r : Request SqlCall) (before : Nat) : Except Error r.call.Reply × Nat :=
      match r with
      | ⟨_, .query _⟩ => (.ok (if before = 0 then [found] else []), before + 1)
      | ⟨_, .execute _⟩ => (.ok ⟨1, none⟩, before + 1)
    let filter : Filter := .equals "email" (.text "a@x")
    let log := (SqlAdapter.upsert ⟨.postgres, [("users", ["id"])]⟩ .own "users" filter
      [("name", .text "Ann")]).exchanges answer 0
    (∃ lookup rest, Sql.Statement.select "users" filter .first .postgres = .ok lookup ∧
      log = ⟨⟨.own, .query lookup⟩, .ok [found]⟩ :: rest) ∧
    log.map (fun e => e.request.call.statement.verb) =
      [some "SELECT", some "UPDATE", some "SELECT", some "INSERT"] ∧
    ∃ e ∈ log, e.request.call.Inserts := by
  intro found answer filter log
  have verbs : log.map (fun e => e.request.call.statement.verb) =
      [some "SELECT", some "UPDATE", some "SELECT", some "INSERT"] := rfl
  have last : some "INSERT" ∈ log.map (fun e => e.request.call.statement.verb) := by simp [verbs]
  exact ⟨⟨_, _, rfl, rfl⟩, verbs, List.mem_map.mp last⟩

end StoreBridge
