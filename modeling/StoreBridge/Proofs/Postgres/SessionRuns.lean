import StoreBridge.Postgres.Session
import StoreBridge.Proofs.Postgres.PoolRuns

/-!
The steps of one session that runs alone, as moves of calls over its pool. Whatever a session does,
callers over the pool could have done, so what holds of all their runs holds of the session.
-/
namespace StoreBridge.Postgres

section Bind
variable {α β : Type} {s s' : Session} {step : SessionStep α}

theorem SessionStep.bind_run {a : α} (first : step.run.run s = (.ok a, s'))
    (next : α → SessionStep β) : (step >>= next).run.run s = (next a).run.run s' := by
  simp only [ExceptT.run_bind, StateT.run_bind, first]
  rfl

theorem SessionStep.bind_error {e : SessionError} (first : step.run.run s = (.error e, s'))
    (next : α → SessionStep β) : (step >>= next).run.run s = (.error e, s') := by
  simp only [ExceptT.run_bind, StateT.run_bind, first]
  rfl

end Bind

namespace Session
open SessionStep Sharing

variable {s : Session} {server : Server} {p : Pool} {client : Nat} {cause : PoolError}
  {work : Work} {isNew : Bool} {sql : String}

/-! ### What a step leaves -/

theorem get_run (s : Session) : (get : SessionStep Session).run.run s = (.ok s, s) := rfl

theorem see_run (event : ServerEvent) (s : Session) :
    (see event).run.run s = (.ok (), ⟨s.pool, s.transaction, s.seen ++ [event]⟩) := rfl

theorem acquire_error (refused : s.pool.acquire work = .error cause) :
    (acquire work).run.run s = (.error (.pool cause), s) := by
  rw [acquire, bind_run (get_run s)]
  dsimp only
  rw [refused]
  rfl

theorem acquire_ok (taken : s.pool.acquire work = .ok (client, isNew, p)) :
    (acquire work).run.run s =
      (.ok client, ⟨p, s.transaction, s.seen ++ if isNew then [.connect] else []⟩) := by
  rw [acquire, bind_run (get_run s)]
  dsimp only
  rw [taken]
  cases isNew with
  | true => rfl
  | false => rw [if_neg Bool.false_ne_true, List.append_nil]; rfl

theorem command_run (server : Server) (client : Nat) (sql : String) (s : Session) :
    (command server client sql).run.run s =
      (if server.refuses sql then .error (.refused sql) else .ok (),
        ⟨s.pool.answered client (!server.refuses sql), s.transaction,
          s.seen ++ [.command sql]⟩) := by
  change ((if server.refuses sql then _ else _ : SessionStep _).run.run _) = _
  split <;> rfl

theorem drop_run (s : Session) :
    drop.run.run s =
      (.ok s.transaction.isSome, ⟨s.transaction.elim s.pool s.pool.abandon, none, s.seen⟩) := by
  obtain ⟨pool, _ | client, seen⟩ := s <;> rfl

def exchanged (server : Server) (wantsRows : Bool) (sql : String) (values : List Value)
    (stop : Option Stop) : Except SessionError StatementResult × List ServerEvent :=
  if stop = some .preparing then (.error (.refused sql), [.prepare sql])
  else
    match Postgres.bind server.prepared.parameters values with
    | .error cause => (.error (.binding cause), [.prepare sql])
    | .ok parameters =>
      (if stop = some .running then .error (.refused sql)
        else .ok (if wantsRows then .rows (server.rows.map (rowRecord server.prepared.columns))
          else .affected server.affected),
        [.prepare sql, .bind parameters])

theorem exchange_run (server : Server) (wantsRows : Bool) (sql : String) (values : List Value)
    (stop : Option Stop) (s : Session) :
    (exchange server wantsRows sql values stop).run.run s =
      ((exchanged server wantsRows sql values stop).1,
        ⟨s.pool, s.transaction, s.seen ++ (exchanged server wantsRows sql values stop).2⟩) := by
  rw [exchange, exchanged, bind_run (see_run (.prepare sql) s)]
  have both (parameters : List (Option (List UInt8)))
      (result : Except SessionError StatementResult) :
      (result, (⟨s.pool, s.transaction, s.seen ++ [.prepare sql] ++ [.bind parameters]⟩ :
        Session)) =
      (result, ⟨s.pool, s.transaction, s.seen ++ [.prepare sql, .bind parameters]⟩) := by
    rw [List.append_assoc]
    rfl
  rcases stop with _ | _ | _
  · cases Postgres.bind server.prepared.parameters values with
    | error cause => rfl
    | ok parameters => exact both parameters _
  · rfl
  · cases Postgres.bind server.prepared.parameters values with
    | error cause => rfl
    | ok parameters => exact both parameters _

theorem begin_error (refused : s.pool.acquire .beginning = .error cause) :
    (begin server).run.run s = (.error (.pool cause), s) := by
  rw [begin, bind_error (acquire_error refused)]

theorem begin_ok (taken : s.pool.acquire .beginning = .ok (client, isNew, p)) :
    let seen := s.seen ++ (if isNew then [.connect] else []) ++ [.command "BEGIN"]
    (begin server).run.run s =
      if server.refuses "BEGIN" then
        (.error (.refused "BEGIN"), ⟨p.answered client false, s.transaction, seen⟩)
      else (.ok (), ⟨s.transaction.elim (p.answered client true) (p.answered client true).abandon,
        some client, seen⟩) := by
  intro seen
  have second := command_run server client "BEGIN"
    ⟨p, s.transaction, s.seen ++ if isNew then [.connect] else []⟩
  rw [begin, bind_run (acquire_ok taken)]
  cases refuses : server.refuses "BEGIN" with
  | true =>
    rw [refuses] at second
    rw [bind_error second]
    rfl
  | false =>
    rw [refuses] at second
    rw [bind_run second, bind_run (drop_run _)]
    rfl

theorem ambient_error (refused : s.pool.acquire .statement = .error cause) (wantsRows : Bool)
    (values : List Value) (stop : Option Stop) :
    ((ambient server wantsRows sql values stop).run.run s).2 = s := by
  rw [ambient, bind_error (acquire_error refused)]

theorem observing_run {α : Type} {step : SessionStep α} {s s' : Session}
    {result : Except SessionError α} (ran : step.run.run s = (result, s')) :
    (ambient.observing step).run.run s = (.ok result, s') := by
  simp only [ambient.observing, ExceptT.run_mk, StateT.run_map, ran]
  rfl

theorem ambient_ok (taken : s.pool.acquire .statement = .ok (client, isNew, p)) (wantsRows : Bool)
    (values : List Value) (stop : Option Stop) :
    ∃ seen, ((ambient server wantsRows sql values stop).run.run s).2 =
      ⟨p.answered client true, s.transaction, seen⟩ := by
  have asked := exchange_run server wantsRows sql values stop
    ⟨p, s.transaction, s.seen ++ if isNew then [.connect] else []⟩
  rw [ambient, bind_run (acquire_ok taken), bind_run (observing_run asked)]
  cases (exchanged server wantsRows sql values stop).1 <;> exact ⟨_, rfl⟩

theorem finish_run (held : s.transaction = some client) :
    (finish server sql).run.run s =
      (if server.refuses sql then .error (.refused sql) else .ok (),
        ⟨(s.pool.finish client).answered client (!server.refuses sql), none,
          s.seen ++ [.command sql]⟩) := by
  obtain ⟨pool, transaction, seen⟩ := s
  obtain rfl : transaction = some client := held
  exact command_run server client sql ⟨pool.finish client, none, seen⟩

/-! ### What callers do in its place -/

/-- A system that is where a session is: its pool is the session's, some task holds the session's
    transaction, and there is always another task to begin with. -/
structure Tied (s : Session) (system : System) : Prop where
  pool : system.pool = s.pool
  transaction : ∀ client, s.transaction = some client →
    ∃ op, system.tasks op = .session client
  unused : ∃ count, ∀ op, count ≤ op → system.tasks op = .idle

variable {s' : Session} {system : System} {op : Nat} {phase : Phase} {opened : Nat → Bool}

theorem Tied.update (tied : Tied s system) (same : p = s'.pool)
    (held : ∀ client, s'.transaction = some client → phase = .session client ∨
      ∃ other, other ≠ op ∧ system.tasks other = .session client) :
    Tied s' ⟨p, opened, Function.update system.tasks op phase⟩ := by
  refine ⟨same, ?_, ?_⟩
  · intro client transaction
    rcases held client transaction with rfl | ⟨other, apart, task⟩
    · exact ⟨op, Function.update_self _ _ _⟩
    · exact ⟨other, (Function.update_of_ne apart _ _).trans task⟩
  · obtain ⟨count, unused⟩ := tied.unused
    refine ⟨max count (op + 1), fun other beyond => ?_⟩
    have apart : other ≠ op := by omega
    exact (Function.update_of_ne apart _ _).trans (unused other (by omega))

def Followed (s s' : Session) : Prop :=
  ∀ system, Tied s system → ∃ trace system', Run system trace system' ∧ Tied s' system'

theorem Followed.of_call {events : List Event}
    (moves : Moves s.pool .idle events s'.pool .over) (same : s'.transaction = s.transaction) :
    Followed s s' := by
  intro system tied
  obtain ⟨count, unused⟩ := tied.unused
  have idle := unused count (Nat.le_refl count)
  obtain ⟨opened, run⟩ := moves.run tied.pool idle
  refine ⟨_, _, run, tied.update rfl ?_⟩
  intro client transaction
  obtain ⟨other, task⟩ := tied.transaction client (same ▸ transaction)
  refine .inr ⟨other, ?_, task⟩
  rintro rfl
  rw [idle] at task
  contradiction

theorem Followed.of_transaction {events : List Event} (held : s.transaction = some client)
    (moves : Moves s.pool (.session client) events s'.pool phase)
    (after : ∀ client, s'.transaction = some client → phase = .session client) :
    Followed s s' := by
  intro system tied
  obtain ⟨op, task⟩ := tied.transaction client held
  obtain ⟨opened, run⟩ := moves.run tied.pool task
  exact ⟨_, _, run, tied.update rfl fun client transaction => .inl (after client transaction)⟩

theorem Followed.of_begin {events : List Event}
    (moves : Moves s.pool .idle events p (.session client))
    (after : s'.pool = s.transaction.elim p p.abandon) (now : s'.transaction = some client) :
    Followed s s' := by
  intro system tied
  obtain ⟨count, unused⟩ := tied.unused
  have idle := unused count (Nat.le_refl count)
  obtain ⟨opened, first⟩ := moves.run tied.pool idle
  cases held : s.transaction with
  | none =>
    rw [held] at after
    refine ⟨_, _, first, tied.update after.symm ?_⟩
    rintro other transaction
    obtain rfl := Option.some.inj (now.symm.trans transaction)
    exact .inl rfl
  | some old =>
    rw [held] at after
    obtain ⟨other, task⟩ := tied.transaction old held
    have apart : other ≠ count := by
      rintro rfl
      rw [idle] at task
      contradiction
    let between : System := ⟨p, opened, Function.update system.tasks count (.session client)⟩
    have begun : Tied ⟨p, some client, []⟩ between := by
      apply tied.update rfl
      rintro _ ⟨⟩
      exact .inl rfl
    have kept : between.tasks other = .session old := (Function.update_of_ne apart _ _).trans task
    have dropped : Moves p (.session old) [.dropped old] (p.abandon old) .over :=
      .cons .drop (.nil _ _)
    obtain ⟨opened, second⟩ := dropped.run begun.pool kept
    refine ⟨_, _, first.append second, begun.update after.symm ?_⟩
    intro client transaction
    obtain rfl := Option.some.inj (now.symm.trans transaction)
    exact .inr ⟨count, apart.symm, Function.update_self _ _ _⟩

theorem Followed.of_same (pool : s'.pool = s.pool) (same : s'.transaction = s.transaction) :
    Followed s s' :=
  fun system tied => ⟨[], system, .nil system, tied.pool.trans pool.symm,
    fun client transaction => tied.transaction client (same ▸ transaction), tied.unused⟩

theorem drop_followed (s : Session) : Followed s (drop.run.run s).2 := by
  rw [drop_run]
  cases held : s.transaction with
  | none => exact .of_same rfl held.symm
  | some client => exact .of_transaction held (.cons .drop (.nil _ _)) nofun

theorem close_followed (s : Session) : Followed s (close.run.run s).2 :=
  .of_call (.cons .close (.nil _ _)) rfl

theorem finish_followed (ending : Ending) (s : Session) :
    Followed s ((finish server ending.sql).run.run s).2 := by
  cases held : s.transaction with
  | none =>
    obtain ⟨pool, transaction, seen⟩ := s
    obtain rfl : transaction = none := held
    exact .of_same rfl rfl
  | some client =>
    rw [finish_run held]
    exact .of_transaction held (.cons (.finish ending) (.cons (.ended _) (.nil _ _))) nofun

theorem ambient_followed (wantsRows : Bool) (values : List Value) (stop : Option Stop)
    (s : Session) : Followed s ((ambient server wantsRows sql values stop).run.run s).2 := by
  cases taken : s.pool.acquire .statement with
  | error cause =>
    rw [ambient_error taken]
    exact .of_call (.cons (.refuse taken) (.nil _ _)) rfl
  | ok one =>
    obtain ⟨seen, after⟩ := ambient_ok taken wantsRows values stop
    rw [after]
    exact .of_call (.cons (.take taken) (.cons (.answer true) (.nil _ _))) rfl

theorem statement_followed (wantsRows : Bool) (values : List Value) (stop : Option Stop)
    (s : Session) : Followed s ((statement server wantsRows sql values stop).run.run s).2 := by
  obtain ⟨pool, _ | client, seen⟩ := s
  · exact ambient_followed wantsRows values stop _
  · change Followed _ ((exchange server wantsRows sql values stop).run.run _).2
    rw [exchange_run]
    refine .of_transaction rfl (.cons .ask (.cons (.tell true) (.nil _ _))) ?_
    rintro _ ⟨⟩
    rfl

theorem begin_followed (s : Session) : Followed s ((begin server).run.run s).2 := by
  cases taken : s.pool.acquire .beginning with
  | error cause =>
    rw [begin_error taken]
    exact .of_call (.cons (.refuse taken) (.nil _ _)) rfl
  | ok one =>
    rw [begin_ok taken]
    cases refuses : server.refuses "BEGIN" with
    | true => exact .of_call (.cons (.takeFirst taken) (.cons .unbegun (.nil _ _))) rfl
    | false => exact .of_begin (.cons (.takeFirst taken) (.cons .begin (.nil _ _))) rfl rfl

inductive Call where
  | begin
  | finish (ending : Ending)
  | drop
  | close
  | statement (wantsRows : Bool) (sql : String) (values : List Value) (stop : Option Stop)

def call (s : Session) : Server × Call → Session
  | (server, .begin) => ((begin server).run.run s).2
  | (server, .finish ending) => ((finish server ending.sql).run.run s).2
  | (_, .drop) => (Session.drop.run.run s).2
  | (_, .close) => (Session.close.run.run s).2
  | (server, .statement wantsRows sql values stop) =>
    ((statement server wantsRows sql values stop).run.run s).2

theorem call_followed (s : Session) (asked : Server × Call) : Followed s (s.call asked) := by
  obtain ⟨server, call⟩ := asked
  cases call with
  | begin => exact begin_followed s
  | finish ending => exact finish_followed ending s
  | drop => exact drop_followed s
  | close => exact close_followed s
  | statement wantsRows sql values stop => exact statement_followed wantsRows values stop s

/-- A session over a pool is always where callers over the pool can come to. -/
theorem calls_followed (calls : List (Server × Call)) (s : Session) :
    Followed s (calls.foldl call s) := by
  induction calls generalizing s with
  | nil => exact .of_same rfl rfl
  | cons asked rest ih =>
    intro system tied
    obtain ⟨first, middle, run, between⟩ := call_followed s asked system tied
    obtain ⟨later, last, rest, after⟩ := ih (s.call asked) middle between
    exact ⟨first ++ later, last, run.append rest, after⟩

/-- Whatever a session has been asked, the client of its open transaction is at work for it and
    does not wait in the pool. -/
theorem transaction_at_work {reachable : Bool} (connected : Pool.connect reachable = .ok p)
    {calls : List (Server × Call)} (left : calls.foldl call ⟨p, none, []⟩ = s)
    (held : s.transaction = some client) :
    s.pool.work? client = some .transaction ∧ client ∉ s.pool.idle := by
  have first : Tied ⟨p, none, []⟩ (.start p) := ⟨rfl, nofun, 0, fun _ _ => rfl⟩
  obtain ⟨trace, system, run, tied⟩ := calls_followed calls ⟨p, none, []⟩ _ first
  rw [left] at tied
  have coherent := run.coherent (start_coherent (connect_sound connected))
  obtain ⟨op, task⟩ := tied.transaction client held
  have busy := coherent.held (congrArg Phase.holds task)
  rw [← tied.pool]
  exact ⟨(Pool.place_busy coherent.sound).mp busy, Pool.busy_not_idle busy⟩

end Session
end StoreBridge.Postgres
