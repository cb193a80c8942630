/-!
Clients of a server, shared by statements and transactions. A client is idle or at work for one
holder. A transaction keeps its client until it ends, and a client whose transaction may still be
open is thrown away.
-/
namespace StoreBridge.Postgres

inductive Work where
  /-- One statement outside of every transaction. -/
  | statement
  /-- The start of a transaction, not yet answered. -/
  | beginning
  | transaction
  /-- The end of a transaction, not yet answered. -/
  | ending
  deriving DecidableEq, Repr

structure Pool where
  /-- The clients to reuse, the one that waited longest first. -/
  idle : List Nat
  busy : List (Nat × Work)
  /-- The number of the next client. -/
  next : Nat
  closed : Bool
  deriving DecidableEq, Repr

inductive PoolError where
  | closed
  | unreachable
  deriving DecidableEq, Repr

def PoolError.message : PoolError → String
  | .closed => "Pool has been closed"
  | .unreachable => "Error occurred while creating a new object: error connecting to server"

namespace Pool

def empty : Pool := ⟨[], [], 0, false⟩

/-- Takes an idle client, or makes one. Says whether it was made. -/
def acquire (p : Pool) (work : Work) : Except PoolError (Nat × Bool × Pool) :=
  if p.closed then .error .closed
  else
    match p.idle with
    | client :: idle => .ok (client, false, { p with idle, busy := (client, work) :: p.busy })
    | [] => .ok (p.next, true, { p with next := p.next + 1, busy := (p.next, work) :: p.busy })

def work? (p : Pool) (client : Nat) : Option Work :=
  (p.busy.find? fun b => b.1 == client).map Prod.snd

def discard (p : Pool) (client : Nat) : Pool :=
  { p with busy := p.busy.filter fun b => b.1 != client }

/-- Puts a client back. A closed pool keeps none. -/
def giveBack (p : Pool) (client : Nat) : Pool :=
  let p := p.discard client
  if p.closed then p else { p with idle := p.idle ++ [client] }

def setWork (p : Pool) (client : Nat) (work : Work) : Pool :=
  { p with busy := p.busy.map fun b => if b.1 = client then (client, work) else b }

def answered (p : Pool) (client : Nat) (success : Bool) : Pool :=
  match p.work? client with
  | some .statement => p.giveBack client
  | some .beginning => if success then p.setWork client .transaction else p.giveBack client
  | some .ending => if success then p.giveBack client else p.discard client
  | some .transaction | none => p

def finish (p : Pool) (client : Nat) : Pool :=
  if p.work? client = some .transaction then p.setWork client .ending else p

def abandon (p : Pool) (client : Nat) : Pool :=
  if p.work? client = some .transaction then p.discard client else p

/-- Takes no call from now on. What is at work goes on. -/
def close (p : Pool) : Pool := { p with idle := [], closed := true }

/-- Opens a pool and makes one client, which fails where there is no server. -/
def connect (reachable : Bool) : Except PoolError Pool := do
  let (client, _, p) ← empty.acquire .statement
  if reachable then .ok (p.answered client true) else .error .unreachable

end Pool
end StoreBridge.Postgres
