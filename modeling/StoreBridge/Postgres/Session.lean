import StoreBridge.Postgres.Exchange
import StoreBridge.Postgres.Pool

/-!
Statements and transactions over a pool. A statement runs in the open transaction, or on a client
that it takes from the pool and puts back. The events are what a server sees of it.
-/
namespace StoreBridge.Postgres

structure Server where
  prepared : Prepared
  rows : List (List (Option (List UInt8)))
  affected : Nat
  /-- The commands that the server refuses. -/
  refuses : String → Bool

/-- Where a server refuses a statement: before it knows the parameters, or with them. -/
inductive Stop where
  | preparing | running
  deriving DecidableEq, Repr

inductive ServerEvent where
  | connect
  | command (sql : String)
  | prepare (sql : String)
  | bind (parameters : List (Option (List UInt8)))
  deriving Repr

inductive SessionError where
  | pool (cause : PoolError)
  | binding (cause : BindError)
  /-- The server has refused a command or a statement. -/
  | refused (sql : String)
  /-- There is no open transaction. -/
  | noTransaction
  deriving Repr

inductive StatementResult where
  | rows (rows : List Record)
  | affected (count : Nat)
  deriving Repr

structure Session where
  pool : Pool
  transaction : Option Nat := none
  seen : List ServerEvent := []
  deriving Repr

/-- Steps of a session. What a step did stays, also when it fails. -/
abbrev SessionStep := ExceptT SessionError (StateM Session)

namespace Session

def see (event : ServerEvent) : SessionStep Unit :=
  modify fun s => { s with seen := s.seen ++ [event] }

def onPool (change : Pool → Pool) : SessionStep Unit :=
  modify fun s => { s with pool := change s.pool }

def setTransaction (client : Option Nat) : SessionStep Unit :=
  modify fun s => { s with transaction := client }

def acquire (work : Work) : SessionStep Nat := do
  match (← get).pool.acquire work with
  | .error cause => throw (.pool cause)
  | .ok (client, isNew, pool) =>
    onPool fun _ => pool
    if isNew then see .connect
    return client

def command (server : Server) (client : Nat) (sql : String) : SessionStep Unit := do
  see (.command sql)
  onPool fun p => p.answered client (!server.refuses sql)
  if server.refuses sql then throw (.refused sql)

def exchange (server : Server) (wantsRows : Bool) (sql : String) (values : List Value)
    (stop : Option Stop := none) : SessionStep StatementResult := do
  see (.prepare sql)
  if stop = some .preparing then throw (.refused sql)
  match bind server.prepared.parameters values with
  | .error cause => throw (.binding cause)
  | .ok parameters =>
    see (.bind parameters)
    if stop = some .running then throw (.refused sql)
    return if wantsRows then .rows (server.rows.map (rowRecord server.prepared.columns))
      else .affected server.affected

def ambient (server : Server) (wantsRows : Bool) (sql : String) (values : List Value)
    (stop : Option Stop := none) : SessionStep StatementResult := do
  let client ← acquire .statement
  let result ← observing (exchange server wantsRows sql values stop)
  onPool fun p => p.answered client true
  match result with
  | .ok result => return result
  | .error cause => throw cause
where
  observing {α : Type} (step : SessionStep α) : SessionStep (Except SessionError α) :=
    ExceptT.mk (Except.ok <$> step.run)

def statement (server : Server) (wantsRows : Bool) (sql : String) (values : List Value)
    (stop : Option Stop := none) : SessionStep StatementResult := do
  match (← get).transaction with
  | some _ => exchange server wantsRows sql values stop
  | none => ambient server wantsRows sql values stop

def drop : SessionStep Bool := do
  match (← get).transaction with
  | none => return false
  | some client => do
    setTransaction none
    onPool fun p => p.abandon client
    return true

/-- Opens a transaction. One that is open already is dropped after that. -/
def begin (server : Server) : SessionStep Unit := do
  let client ← acquire .beginning
  command server client "BEGIN"
  let _ ← drop
  setTransaction (some client)

def finish (server : Server) (sql : String) : SessionStep Unit := do
  match (← get).transaction with
  | none => throw .noTransaction
  | some client => do
    setTransaction none
    onPool fun p => p.finish client
    command server client sql

def commit (server : Server) : SessionStep Unit := finish server "COMMIT"

def rollback (server : Server) : SessionStep Unit := finish server "ROLLBACK"

def close : SessionStep Unit := onPool Pool.close

end Session
end StoreBridge.Postgres
