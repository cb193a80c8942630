import StoreBridge.Adapter.Document
import StoreBridge.Proofs.Adapter.Exchanges
import StoreBridge.Proofs.Sql.Uniqueness

/-!
The unique indexes of a collection and the records that they let in. Each key column gets an index
of its own, as each unique column does. So a key of one column is kept as a table keeps it. Of
several key columns each is unique alone, though it is all of them together that the schema asks to
be unique.
-/
namespace StoreBridge.DocumentAdapter
open Sql (Distinct)

variable {σ Cell : Type} {schema : TableSchema} {collection : String}
  {answer : (r : Request DocumentCall) → σ → Except Error r.call.Reply × σ}

def storedCell (row : String → Cell) (field : String) : Cell :=
  row (if field = storedId then recordId else field)

/-- Records with all columns and without nulls that a collection lets in, of whose indexes these
    calls have asked for. -/
def Admits (calls : List DocumentCall) (collection : String) (rows : List (String → Cell)) : Prop :=
  ∀ keys name, .createIndex collection keys name true ∈ calls →
    Distinct keys.keys (rows.map storedCell)

def callsOf {α : Type} (answer : (r : Request DocumentCall) → σ → Except Error r.call.Reply × σ)
    (plan : DocumentPlan α) (state : σ) : List DocumentCall :=
  (plan.exchanges answer state).map fun exchange => exchange.request.call

theorem callAll_answered (succeeds : ∀ r state, (answer r state).1.isOk)
    (calls : List DocumentCall) (state : σ) :
    ((callAll calls).run answer state).1 = .ok () ∧
      callsOf answer (callAll calls) state = calls := by
  induction calls generalizing state with
  | nil => exact ⟨rfl, rfl⟩
  | cons c rest ih =>
    cases replied : answer ⟨.own, c⟩ state with
    | mk reply after =>
      have fine := succeeds ⟨.own, c⟩ state
      rw [replied] at fine
      cases reply with
      | error error => cases fine
      | ok reply =>
        obtain ⟨result, made⟩ := ih after
        have step : callAll (c :: rest) =
            Plan.bind (call .own c) fun _ => callAll rest := rfl
        constructor
        · simp only [step, call, Plan.call, Plan.bind, Plan.run, replied]
          exact result
        · simp only [callsOf, step, call, Plan.call, Plan.bind, Plan.exchanges, replied,
            List.map_cons, List.cons.injEq, true_and]
          exact made

theorem distinct_subset {key other : List String} {rows : List (String → Cell)}
    (apart : Distinct key rows) (within : key ⊆ other) : Distinct other rows := by
  refine List.Pairwise.imp ?_ apart
  intro row twin differ
  obtain ⟨column, mem, cells⟩ := differ
  exact ⟨column, within mem, cells⟩

theorem distinct_stored {field : String} {rows : List (String → Cell)} (plain : field ≠ storedId) :
    Distinct [field] (rows.map storedCell) ↔ Distinct [field] rows := by
  simp [Distinct, List.pairwise_map, storedCell, plain]

section
variable (plain : ∀ column ∈ schema.columns, column.1 ≠ recordId ∧ column.1 ≠ storedId)
include plain

theorem mem_uniqueFields {field : String} :
    field ∈ uniqueFields schema ↔
      ∃ column ∈ schema.columns, (column.2.unique ∨ column.2.primaryKey) ∧ column.1 = field := by
  have kept : ∀ column ∈ schema.columns, IdentityMode.fieldName column.1 = column.1 := by
    intro column mem
    exact if_neg (plain column mem).1
  simp only [uniqueFields, ownColumns, List.mem_map, List.mem_filter, bne_iff_ne, ne_eq,
    Bool.or_eq_true]
  constructor
  · intro ⟨_, ⟨⟨⟨column, mem, made⟩, _⟩, flagged⟩, same⟩
    subst made
    rw [kept column mem] at same
    exact ⟨column, mem, flagged, same⟩
  · intro ⟨column, mem, flagged, same⟩
    refine ⟨_, ⟨⟨⟨column, mem, rfl⟩, ?_⟩, flagged⟩, ?_⟩
    · rw [kept column mem]
      exact (plain column mem).2
    · rw [kept column mem]
      exact same

theorem indexes_admit {rows : List (String → Cell)} :
    Admits (.createCollection collection (validator schema) ::
        (uniqueFields schema).map (uniqueIndex collection)) collection rows ↔
      ∀ column ∈ schema.columns, column.2.unique ∨ column.2.primaryKey →
        Distinct [column.1] rows := by
  constructor
  · intro admitted column mem flagged
    have asked : column.1 ∈ uniqueFields schema :=
      (mem_uniqueFields plain).mpr ⟨column, mem, flagged, rfl⟩
    have apart := admitted [(column.1, .int32 1)] _
      (List.mem_cons_of_mem _ (List.mem_map_of_mem asked))
    exact (distinct_stored (plain column mem).2).mp apart
  · intro apart keys name mem
    simp only [List.mem_cons, reduceCtorEq, List.mem_map, uniqueIndex,
      DocumentCall.createIndex.injEq, false_or] at mem
    obtain ⟨field, asked, _, same, _⟩ := mem
    obtain ⟨column, inside, flagged, named⟩ := (mem_uniqueFields plain).mp asked
    subst same named
    exact (distinct_stored (plain column inside).2).mpr (apart column inside flagged)

end

theorem flagged_distinct {rows : List (String → Cell)} :
    (∀ column ∈ schema.columns, column.2.unique ∨ column.2.primaryKey →
        Distinct [column.1] rows) ↔
      (schema.primaryKeys ≠ [] → Distinct schema.primaryKeys rows) ∧
      (∀ column ∈ schema.columns, column.2.unique → Distinct [column.1] rows) ∧
      (schema.isComposite → ∀ name ∈ schema.primaryKeys, Distinct [name] rows) := by
  constructor
  · intro each
    have keys : ∀ name ∈ schema.primaryKeys, Distinct [name] rows := by
      intro name mem
      obtain ⟨column, kept, same⟩ := List.mem_map.mp mem
      obtain ⟨inside, key⟩ := List.mem_filter.mp kept
      subst same
      exact each column inside (.inr key)
    refine ⟨?_, fun column mem unique => each column mem (.inl unique), fun _ => keys⟩
    intro filled
    obtain ⟨name, mem⟩ := List.exists_mem_of_ne_nil _ filled
    exact distinct_subset (keys name mem) (by simpa using mem)
  · intro ⟨primary, unique, several⟩ column mem flagged
    rcases flagged with once | key
    · exact unique column mem once
    · have inside : column.1 ∈ schema.primaryKeys :=
        List.mem_map_of_mem (List.mem_filter.mpr ⟨mem, key⟩)
      cases composite : schema.isComposite with
      | true => exact several composite _ inside
      | false =>
        rw [← Sql.Statement.primaryKeys_single composite mem key]
        exact primary (List.ne_nil_of_mem inside)

/-- A collection is made, and it lets in the records that are distinct in the columns of the primary
    key, taken together, and in every unique column, as a table does; but of several key columns
    it asks each to be distinct alone. -/
theorem collection_admits (succeeds : ∀ r state, (answer r state).1.isOk) (state : σ)
    (plain : ∀ column ∈ schema.columns, column.1 ≠ recordId ∧ column.1 ≠ storedId) :
    ((define collection (.create schema)).run answer state).1 = .ok () ∧
      ∀ rows : List (String → Cell),
        Admits (callsOf answer (define collection (.create schema)) state) collection rows ↔
          (schema.primaryKeys ≠ [] → Distinct schema.primaryKeys rows) ∧
          (∀ column ∈ schema.columns, column.2.unique → Distinct [column.1] rows) ∧
          (schema.isComposite → ∀ name ∈ schema.primaryKeys, Distinct [name] rows) := by
  have plan : define collection (.create schema) = callAll
      (.createCollection collection (validator schema) ::
        (uniqueFields schema).map (uniqueIndex collection)) := rfl
  obtain ⟨result, made⟩ := callAll_answered succeeds
    (.createCollection collection (validator schema) ::
      (uniqueFields schema).map (uniqueIndex collection)) state
  rw [plan]
  refine ⟨result, fun rows => ?_⟩
  rw [made, indexes_admit plain, flagged_distinct]

def leastReply : (c : DocumentCall) → c.Reply
  | .insertOne .. => Bson.null
  | .insertMany .. | .find .. | .aggregate .. => []
  | .updateMany .. | .updateOne .. | .deleteMany .. | .deleteOne .. | .count .. => (0 : Nat)
  | .createCollection .. | .dropCollection .. | .createIndex .. | .dropIndex .. => ()

/-- A store that takes every call. -/
def obliging (r : Request DocumentCall) (state : Unit) : Except Error r.call.Reply × Unit :=
  (.ok (leastReply r.call), state)

/-- A key of one column and a unique column. -/
theorem collection_admits_single :
    Admits (callsOf obliging (define "t" (.create ⟨[
        ("code", { type := "string", primaryKey := true }),
        ("mail", { type := "string", unique := true }), ("age", { type := "integer" })]⟩)) ()) "t"
      [fun _ => 1, fun column => if column = "age" then 1 else 2] := by
  have plain : ∀ column ∈ [("code", ({ type := "string", primaryKey := true } : ColumnSpec)),
      ("mail", { type := "string", unique := true }), ("age", { type := "integer" })],
      column.1 ≠ recordId ∧ column.1 ≠ storedId := by
    simp +decide
  have succeeds : ∀ r state, (obliging r state).1.isOk := fun _ _ => rfl
  refine ((collection_admits succeeds () plain).2 _).mpr ⟨?_, ?_, ?_⟩
  · simp [TableSchema.primaryKeys, Distinct]
  · simp [Distinct]
  · simp [TableSchema.isComposite, TableSchema.primaryKeys]

/-- Two records that differ in a column of the key are one too many where they agree in another. -/
theorem composite_key_taken_apart :
    ∃ schema : TableSchema, schema = ⟨[("a", { type := "integer", primaryKey := true }),
        ("b", { type := "integer", primaryKey := true })]⟩ ∧
      Distinct schema.primaryKeys [fun _ => 1, fun column => if column = "b" then 2 else 1] ∧
      (∀ column ∈ schema.columns, ¬column.2.unique) ∧
      ¬Admits (callsOf obliging (define "t" (.create schema)) ()) "t"
        [fun _ => 1, fun column => if column = "b" then 2 else 1] := by
  refine ⟨_, rfl, ?_, ?_, ?_⟩
  · simp [TableSchema.primaryKeys, Distinct]
  · simp
  · intro admitted
    have asked : .createIndex "t" [("a", .int32 1)] "t_a_unique" true ∈ callsOf obliging
        (define "t" (.create ⟨[("a", { type := "integer", primaryKey := true }),
          ("b", { type := "integer", primaryKey := true })]⟩)) () :=
      List.mem_cons_of_mem _ List.mem_cons_self
    have apart := admitted _ _ asked
    simp +decide [Distinct] at apart

end StoreBridge.DocumentAdapter
