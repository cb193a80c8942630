import StoreBridge.Adapter.Lifecycle
import StoreBridge.Proofs.Postgres.SessionRuns

/-!
What the database keeps of a transaction. A statement that the server refuses puts the open
transaction into a state in which nothing of it can be kept. The end of such a transaction is a
rollback, also where a commit was asked for, and the server answers it with success and with the
tag of a rollback. The tag is not read: a commit succeeds whenever the server does not refuse it.
-/
namespace StoreBridge.Postgres

structure Executed where
  sql : String
  parameters : List (Option (List UInt8))
  deriving DecidableEq, Repr

/-- Where a client stands with the server. -/
inductive Standing where
  | outside
  | within (done : List Executed)
  | aborted
  deriving DecidableEq, Repr

/-- The server's side of a client: what is kept for good, and the tag of the last command. -/
structure Database where
  kept : List Executed
  standing : Standing
  prepared : String
  tag : String
  deriving DecidableEq, Repr

namespace Database

def command (d : Database) (sql : String) : Database :=
  match d.standing with
  | .outside => { d with tag := sql, standing := if sql = "BEGIN" then .within [] else .outside }
  | .within done =>
    if sql = "COMMIT" then { d with tag := sql, standing := .outside, kept := d.kept ++ done }
    else { d with tag := sql, standing := if sql = "ROLLBACK" then .outside else .within done }
  | .aborted =>
    if sql = "COMMIT" ∨ sql = "ROLLBACK" then { d with tag := "ROLLBACK", standing := .outside }
    else d

/-- A statement that the server runs. Outside of transactions it is kept at once, and in one that
    was refused a statement before it is ignored. -/
def execute (d : Database) (statement : Executed) : Database :=
  match d.standing with
  | .outside => { d with kept := d.kept ++ [statement] }
  | .within done => { d with standing := .within (done ++ [statement]) }
  | .aborted => d

/-- A statement that the server refuses. -/
def abort (d : Database) : Database :=
  match d.standing with
  | .outside => d
  | .within _ | .aborted => { d with standing := .aborted }

def answer (d : Database) (server : Server) (stop : Option Stop) : ServerEvent → Database
  | .connect => d
  | .command sql =>
    if server.refuses sql then { d with standing := .outside } else d.command sql
  | .prepare sql => if stop = some .preparing then d.abort else { d with prepared := sql }
  | .bind parameters =>
    if stop = some .running then d.abort else d.execute ⟨d.prepared, parameters⟩

end Database

structure Asked where
  server : Server
  wantsRows : Bool
  sql : String
  values : List Value
  stop : Option Stop

namespace Asked

/-- The statement as the server runs it, which takes parameters that can be bound. -/
def executed (a : Asked) : List Executed :=
  match bind a.server.prepared.parameters a.values with
  | .ok parameters => if a.stop = none then [⟨a.sql, parameters⟩] else []
  | .error _ => []

def result (a : Asked) : Except SessionError StatementResult :=
  (Session.exchanged a.server a.wantsRows a.sql a.values a.stop).1

/-- A refusal of the server's, not of the client's own. -/
def Refused (a : Asked) : Prop := ∃ sql, a.result = .error (.refused sql)

end Asked

namespace Database

def follow (d : Database) (a : Asked) : Database :=
  (Session.exchanged a.server a.wantsRows a.sql a.values a.stop).2.foldl
    (fun d event => d.answer a.server a.stop event) d

theorem follow_cases (d : Database) (a : Asked) :
    (a.Refused ∧ a.executed = [] ∧ ∃ prepared, d.follow a = abort { d with prepared }) ∨
    ¬a.Refused ∧ ((∃ parameters, a.executed = [⟨a.sql, parameters⟩] ∧
        d.follow a = execute { d with prepared := a.sql } ⟨a.sql, parameters⟩) ∨
      a.executed = [] ∧ d.follow a = { d with prepared := a.sql }) := by
  obtain ⟨server, wantsRows, sql, values, stop⟩ := a
  rcases stop with _ | _ | _
  case none =>
    cases bound : bind server.prepared.parameters values <;>
      simp [Asked.Refused, Asked.result, Asked.executed, follow, Session.exchanged, bound, answer]
  case preparing =>
    refine .inl ⟨⟨sql, rfl⟩, ?_, d.prepared, rfl⟩
    rw [Asked.executed]
    split <;> rfl
  case running =>
    cases bound : bind server.prepared.parameters values with
    | error cause =>
      simp [Asked.Refused, Asked.result, Asked.executed, follow, Session.exchanged, bound, answer]
    | ok parameters =>
      refine .inl ⟨⟨sql, ?_⟩, ?_, sql, ?_⟩
      · simp [Asked.result, Session.exchanged, bound]
      · simp [Asked.executed, bound]
      · simp [follow, Session.exchanged, bound, answer]

theorem follow_within {d : Database} {done : List Executed} (within : d.standing = .within done)
    (a : Asked) :
    (d.follow a).kept = d.kept ∧
      (a.Refused → (d.follow a).standing = .aborted) ∧
      (¬a.Refused → (d.follow a).standing = .within (done ++ a.executed)) := by
  obtain ⟨refused, _, prepared, left⟩ | ⟨taken, ⟨parameters, ran, left⟩ | ⟨unbound, left⟩⟩ :=
    d.follow_cases a
  · simp [left, abort, within, refused]
  · simp [left, execute, within, taken, ran]
  · simp [left, within, taken, unbound]

theorem follow_aborted {d : Database} (aborted : d.standing = .aborted) (a : Asked) :
    (d.follow a).kept = d.kept ∧ (d.follow a).standing = .aborted := by
  obtain ⟨_, _, prepared, left⟩ | ⟨_, ⟨parameters, _, left⟩ | ⟨_, left⟩⟩ := d.follow_cases a
  · simp [left, abort, aborted]
  · simp [left, execute, aborted]
  · simp [left, aborted]

end Database

/-- A session, and the server's side of the client that it has or is about to have. -/
structure World where
  session : Session
  database : Database

namespace World

def run {α : Type} (w : World) (server : Server) (stop : Option Stop) (step : SessionStep α) :
    Except SessionError α × World :=
  let (result, session) := step.run.run { w.session with seen := [] }
  (result, ⟨session, session.seen.foldl (fun d event => d.answer server stop event) w.database⟩)

def begin (w : World) (server : Server) : Except SessionError Unit × World :=
  w.run server none (Session.begin server)

def ask (w : World) (a : Asked) : Except SessionError StatementResult × World :=
  w.run a.server a.stop (Session.statement a.server a.wantsRows a.sql a.values a.stop)

/-- Statements one after the other. What becomes of one is no reason not to ask the next. -/
def askAll (w : World) : List Asked → List (Except SessionError StatementResult) × World
  | [] => ([], w)
  | a :: rest =>
    let (result, w) := w.ask a
    let (results, w) := w.askAll rest
    (result :: results, w)

def commit (w : World) (l : Lifecycle) (number : Nat) (server : Server)
    (words : SessionError → String) : Except Error Unit × Lifecycle × World :=
  match l.finish number with
  | .error error => (.error error, l, w)
  | .ok l =>
    let (result, w) := w.run server none (Session.commit server)
    (result.mapError fun cause => .driver (words cause), l, w)

structure Left (w w' : World) (client : Nat) (done : List Executed) (asked : List Asked) :
    Prop where
  transaction : w'.session.transaction = some client
  kept : w'.database.kept = w.database.kept
  refused : (∃ a ∈ asked, a.Refused) → w'.database.standing = .aborted
  taken : (∀ a ∈ asked, ¬a.Refused) →
    w'.database.standing = .within (done ++ asked.flatMap Asked.executed)

section Asking
variable {w : World} {client : Nat} {done : List Executed}
  (held : w.session.transaction = some client)
include held

theorem ask_run (a : Asked) :
    (w.ask a).1 = a.result ∧ (w.ask a).2.session.transaction = some client ∧
      (w.ask a).2.database = w.database.follow a := by
  obtain ⟨⟨pool, transaction, seen⟩, database⟩ := w
  obtain rfl : transaction = some client := held
  have ran : (Session.statement a.server a.wantsRows a.sql a.values a.stop).run.run
      ⟨pool, some client, []⟩ = _ :=
    Session.exchange_run a.server a.wantsRows a.sql a.values a.stop ⟨pool, some client, []⟩
  rw [ask, run]
  dsimp only
  rw [ran]
  exact ⟨rfl, rfl, rfl⟩

theorem askAll_results (asked : List Asked) : (w.askAll asked).1 = asked.map Asked.result := by
  induction asked generalizing w with
  | nil => rfl
  | cons a rest ih =>
    obtain ⟨result, still, _⟩ := ask_run held a
    exact congrArg₂ List.cons result (ih still)

theorem askAll_aborted (aborted : w.database.standing = .aborted) (asked : List Asked) :
    (w.askAll asked).2.session.transaction = some client ∧
      (w.askAll asked).2.database.kept = w.database.kept ∧
      (w.askAll asked).2.database.standing = .aborted := by
  induction asked generalizing w with
  | nil => exact ⟨held, rfl, aborted⟩
  | cons a rest ih =>
    obtain ⟨_, still, after⟩ := ask_run held a
    obtain ⟨kept, standing⟩ := Database.follow_aborted aborted a
    rw [← after] at kept standing
    obtain ⟨transaction, later, last⟩ := ih still standing
    exact ⟨transaction, later.trans kept, last⟩

theorem askAll_left (within : w.database.standing = .within done) (asked : List Asked) :
    Left w (w.askAll asked).2 client done asked := by
  induction asked generalizing w done with
  | nil => exact ⟨held, rfl, by simp, by simpa [askAll] using within⟩
  | cons a rest ih =>
    obtain ⟨_, still, after⟩ := ask_run held a
    obtain ⟨kept, refused, taken⟩ := Database.follow_within within a
    rw [← after] at kept refused taken
    by_cases refuses : a.Refused
    · -- Once it is refused, nothing of the rest is kept either.
      obtain ⟨transaction, later, last⟩ := askAll_aborted still (refused refuses) rest
      exact ⟨transaction, later.trans kept, fun _ => last,
        fun none => absurd refuses (none a List.mem_cons_self)⟩
    · have left := ih still (taken refuses)
      refine ⟨left.transaction, left.kept.trans kept, ?_, ?_⟩
      · rintro ⟨other, mem, also⟩
        obtain rfl | mem := List.mem_cons.mp mem
        · exact absurd also refuses
        · exact left.refused ⟨other, mem, also⟩
      · intro none
        rw [List.flatMap_cons, ← List.append_assoc]
        exact left.taken fun other mem => none other (List.mem_cons_of_mem a mem)

end Asking

theorem begin_within {w : World} {server : Server} (outside : w.database.standing = .outside)
    (begun : (w.begin server).1 = .ok ()) :
    (∃ client, (w.begin server).2.session.transaction = some client) ∧
      (w.begin server).2.database.kept = w.database.kept ∧
      (w.begin server).2.database.standing = .within [] := by
  obtain ⟨⟨pool, transaction, seen⟩, database⟩ := w
  rw [World.begin, run] at begun ⊢
  cases taken : pool.acquire .beginning with
  | error cause =>
    have ran : (Session.begin server).run.run ⟨pool, transaction, []⟩ = _ :=
      Session.begin_error taken
    dsimp only at begun
    rw [ran] at begun
    contradiction
  | ok one =>
    obtain ⟨client, isNew, p⟩ := one
    have ran : (Session.begin server).run.run ⟨pool, transaction, []⟩ = _ :=
      Session.begin_ok taken
    dsimp only at begun ⊢
    rw [ran] at begun ⊢
    cases refuses : server.refuses "BEGIN" with
    | true => simp [refuses] at begun
    | false =>
      refine ⟨⟨client, by simp⟩, ?_⟩
      cases isNew <;>
        simp [Database.answer, Database.command, refuses, show database.standing = _ from outside]

theorem commit_run {w : World} {client : Nat} (held : w.session.transaction = some client)
    {l : Lifecycle} {number : Nat} (holds : l.holds number) (server : Server)
    (words : SessionError → String) :
    let (answer, _, after) := w.commit l number server words
    (answer = .ok () ↔ server.refuses "COMMIT" = false) ∧
      after.database = if server.refuses "COMMIT" then { w.database with standing := .outside }
        else w.database.command "COMMIT" := by
  obtain ⟨⟨pool, transaction, seen⟩, database⟩ := w
  have ran : (Session.finish server "COMMIT").run.run ⟨pool, transaction, []⟩ = _ :=
    Session.finish_run held
  have found : l.finish number = .ok ((l.take number).clear number) := by
    rw [Lifecycle.finish, if_pos holds]
  rw [commit, found]
  dsimp only
  rw [run, Session.commit]
  dsimp only
  rw [ran]
  cases refuses : server.refuses "COMMIT" with
  | true => simp [Database.answer, refuses, Except.mapError]
  | false => simp [Database.answer, refuses, Except.mapError]

/-- A commit that succeeds has kept what the transaction has done, unless the server has refused
    one of its statements: then it has kept nothing, and succeeds all the same. -/
theorem commit_keeps {w : World} {beginning : Server} (outside : w.database.standing = .outside)
    (begun : (w.begin beginning).1 = .ok ()) (asked : List Asked) (l : Lifecycle) (number : Nat)
    (ending : Server) (words : SessionError → String) :
    let (results, asking) := (w.begin beginning).2.askAll asked
    let (answer, _, after) := asking.commit l number ending words
    let refused := ∃ sql, .error (.refused sql) ∈ results
    (answer = .ok () ↔ l.holds number ∧ ending.refuses "COMMIT" = false) ∧
      (answer = .ok () → ¬refused → after.database.tag = "COMMIT" ∧
        after.database.kept = w.database.kept ++ asked.flatMap Asked.executed) ∧
      (answer = .ok () → refused →
        after.database.tag = "ROLLBACK" ∧ after.database.kept = w.database.kept) ∧
      (answer ≠ .ok () → after.database.kept = w.database.kept) := by
  obtain ⟨⟨client, held⟩, kept, within⟩ := begin_within outside begun
  have results := askAll_results held asked
  have left := askAll_left held within asked
  generalize (w.begin beginning).2.askAll asked = asking at results left ⊢
  obtain ⟨_, asking⟩ := asking
  obtain rfl := results
  dsimp only at left ⊢
  have refused : (∃ sql, .error (.refused sql) ∈ asked.map Asked.result) ↔
      ∃ a ∈ asked, a.Refused := by
    simp only [List.mem_map, Asked.Refused]
    constructor
    · rintro ⟨sql, a, mem, same⟩
      exact ⟨a, mem, sql, same⟩
    · rintro ⟨a, mem, sql, same⟩
      exact ⟨sql, a, mem, same⟩
  have before := left.kept.trans kept
  cases holds : l.holds number with
  | false =>
    have missed : asking.commit l number ending words =
        (.error .transactionInactive, l, asking) := by
      simp [commit, Lifecycle.finish, holds]
    rw [missed]
    exact ⟨by simp, nofun, nofun, fun _ => before⟩
  | true =>
    have ended := commit_run left.transaction holds ending words
    generalize asking.commit l number ending words = committed at ended ⊢
    obtain ⟨answer, _, last⟩ := committed
    obtain ⟨answered, after⟩ := ended
    dsimp only at answered after ⊢
    cases refuses : ending.refuses "COMMIT" with
    | true =>
      rw [refuses] at answered after
      have failed : answer ≠ .ok () := fun succeeded => nomatch answered.mp succeeded
      refine ⟨by simp [failed], fun succeeded => absurd succeeded failed,
        fun succeeded => absurd succeeded failed, fun _ => ?_⟩
      rw [after]
      exact before
    | false =>
      rw [refuses] at answered after
      -- The answer is the same wherever the statements have left the client.
      refine ⟨by simp [answered], fun _ none => ?_, fun _ some => ?_,
        fun failed => absurd (answered.mpr rfl) failed⟩
      · have done := left.taken fun a mem also => none (refused.mpr ⟨a, mem, also⟩)
        simp [after, Database.command, done, before]
      · have aborted := left.refused (refused.mp some)
        simp [after, Database.command, aborted, before]

def fresh : World := ⟨⟨⟨[0], [], 1, false⟩, none, []⟩, ⟨[], .outside, "", ""⟩⟩

def willing : Server := ⟨⟨[.base .int8], []⟩, [], 1, fun _ => false⟩

def insertNumber (number : Int64) (stop : Option Stop) : Asked :=
  ⟨willing, false, "INSERT INTO \"users\" (\"id\") VALUES ($1)", [.int number], stop⟩

def oneOpened : Lifecycle := (((Lifecycle.ofAdapters 1).connect 0).opened .postgres 1).1

/-- Two rows that go in, and stay. -/
theorem commit_keeps_two_rows :
    let asked := [insertNumber 1 none, insertNumber 2 none]
    let words : SessionError → String := fun _ => "refused"
    let (results, asking) := (fresh.begin willing).2.askAll asked
    let (answer, _, after) := asking.commit oneOpened 0 willing words
    let refused := ∃ sql, .error (.refused sql) ∈ results
    (answer = .ok () ↔ oneOpened.holds 0 ∧ willing.refuses "COMMIT" = false) ∧
      (answer = .ok () → ¬refused → after.database.tag = "COMMIT" ∧
        after.database.kept = fresh.database.kept ++ asked.flatMap Asked.executed) ∧
      (answer = .ok () → refused →
        after.database.tag = "ROLLBACK" ∧ after.database.kept = fresh.database.kept) ∧
      (answer ≠ .ok () → after.database.kept = fresh.database.kept) := by
  intro asked words
  have begun : (fresh.begin willing).1 = .ok () := rfl
  exact commit_keeps rfl begun asked oneOpened 0 willing words

/-- The second of two rows is refused, which loses the first. The commit succeeds. -/
theorem refused_row_commit_succeeds :
    let asked := [insertNumber 1 none, insertNumber 1 (some .running)]
    let words : SessionError → String := fun _ => "refused"
    let (results, asking) := (fresh.begin willing).2.askAll asked
    let (answer, _, after) := asking.commit oneOpened 0 willing words
    (fresh.begin willing).1 = .ok () ∧
      results = [.ok (.affected 1), .error (.refused (insertNumber 1 none).sql)] ∧
      asked.flatMap Asked.executed ≠ [] ∧
      answer = .ok () ∧ after.database.tag = "ROLLBACK" ∧ after.database.kept = [] := by
  refine ⟨rfl, rfl, ?_, rfl, rfl, rfl⟩
  decide

end World
end StoreBridge.Postgres
