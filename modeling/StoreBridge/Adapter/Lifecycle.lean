import StoreBridge.Adapter.Plan

/-!
Connections and transactions. Each connect gives an adapter a connection with a number of its own,
and a transaction belongs to the connection that opened it. Its session stands in a slot behind a
lock. A commit or a rollback takes it from there, and only then clears the flag that says that the
transaction is active; what comes later finds an empty slot. The steps that others may come between
are functions of their own.
-/
namespace StoreBridge

structure Transaction where
  backend : Backend
  /-- The number of the connection that opened it. -/
  owner : Nat
  /-- Whether the session is still in its slot. -/
  held : Bool
  active : Bool
  deriving DecidableEq, Repr

namespace Transaction

/-- A statement that has the lock needs a session in the slot, and one of its own kind. -/
def reach (t : Transaction) (backend : Backend) : Except Error Unit :=
  if !t.held then .error .transactionInactive
  else if t.backend.dialect.isSql == backend.dialect.isSql then .ok ()
  else if backend.dialect.isSql then .error (.unsupported .documentTransaction backend)
  else .error (.unsupported .sqlTransaction backend)

end Transaction

structure Lifecycle where
  /-- The number of each adapter's connection, by the adapter's place in the list. -/
  connections : List (Option Nat)
  nextConnection : Nat
  transactions : List Transaction
  deriving Repr

namespace Lifecycle

def ofAdapters (count : Nat) : Lifecycle := ⟨List.replicate count none, 1, []⟩

def connection (l : Lifecycle) (adapter : Nat) : Except Error Nat :=
  match l.connections[adapter]? with
  | some (some number) => .ok number
  | _ => .error .notConnected

def isConnected (l : Lifecycle) (adapter : Nat) : Bool := (l.connection adapter).isOk

def numbered (l : Lifecycle) : Lifecycle := { l with nextConnection := l.nextConnection + 1 }

def attach (l : Lifecycle) (adapter number : Nat) : Lifecycle :=
  { l with connections := l.connections.set adapter (some number) }

def connect (l : Lifecycle) (adapter : Nat) : Lifecycle :=
  l.numbered.attach adapter l.nextConnection

/-- Takes an adapter's connection away, whether or not closing it succeeds. -/
def disconnect (l : Lifecycle) (adapter : Nat) : Lifecycle :=
  { l with connections := l.connections.set adapter none }

/-- A transaction that a connection opened. Its number is its place in the list. -/
def opened (l : Lifecycle) (backend : Backend) (owner : Nat) : Lifecycle × Nat :=
  ({ l with transactions := l.transactions ++ [⟨backend, owner, true, true⟩] },
    l.transactions.length)

/-- The transaction of a number. None that was opened is ever missing. -/
def transaction (l : Lifecycle) (number : Nat) : Except Error Transaction :=
  match l.transactions[number]? with
  | some t => .ok t
  | none => .error .transactionInactive

/-- Whether an adapter's statement may wait for a transaction's session. Only the connection that
    opened the transaction may. -/
def enter (l : Lifecycle) (adapter : Nat) (backend : Backend) (number : Nat) :
    Except Error Unit := do
  let caller ← l.connection adapter
  let t ← l.transaction number
  if caller ≠ t.owner then .error (.unsupported .otherConnection backend) else .ok ()

def reach (l : Lifecycle) (backend : Backend) (number : Nat) : Except Error Unit := do
  let t ← l.transaction number
  t.reach backend

def permit (l : Lifecycle) (adapter : Nat) (backend : Backend) : Place → Except Error Unit
  | .own => (l.connection adapter).map fun _ => ()
  | .session number => do
    l.enter adapter backend number
    l.reach backend number

def change (l : Lifecycle) (number : Nat) (f : Transaction → Transaction) : Lifecycle :=
  { l with transactions := l.transactions.modify number f }

def take (l : Lifecycle) (number : Nat) : Lifecycle :=
  l.change number fun t => { t with held := false }

def clear (l : Lifecycle) (number : Nat) : Lifecycle :=
  l.change number fun t => { t with active := false }

def holds (l : Lifecycle) (number : Nat) : Bool :=
  match l.transactions[number]? with
  | some t => t.held
  | none => false

/-- Takes a transaction's session, for a commit or a rollback. It succeeds once. -/
def finish (l : Lifecycle) (number : Nat) : Except Error Lifecycle :=
  if l.holds number then .ok ((l.take number).clear number) else .error .transactionInactive

def isActive (l : Lifecycle) (number : Nat) : Bool :=
  match l.transactions[number]? with
  | some t => t.active
  | none => false

end Lifecycle
end StoreBridge
