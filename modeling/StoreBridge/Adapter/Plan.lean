import StoreBridge.Error

/-!
Operations as plans. A plan is over with a result or an error, or it asks for one call and goes on
with the answer. What a plan asks for can be read off it without running it.
-/
namespace StoreBridge

inductive Place where
  | own
  | session (transaction : Nat)
  deriving DecidableEq, Repr

structure Request (C : Type) where
  place : Place
  call : C
  deriving Repr

/-- Plans whose calls are of type `C`; a call `c` is answered by a `Reply c` or an error. -/
inductive Plan (C : Type) (Reply : C → Type) (α : Type) where
  | done (result : α)
  | fail (error : Error)
  | ask (request : Request C)
      (next : Except Error (Reply request.call) → Plan C Reply α)

namespace Plan
variable {C : Type} {Reply : C → Type} {α β : Type}

def bind : Plan C Reply α → (α → Plan C Reply β) → Plan C Reply β
  | .done result, next => next result
  | .fail error, _ => .fail error
  | .ask request rest, next => .ask request fun answer => (rest answer).bind next

instance : Monad (Plan C Reply) where
  pure := .done
  bind := bind

def call (place : Place) (c : C) : Plan C Reply (Reply c) :=
  .ask ⟨place, c⟩ fun
    | .ok reply => .done reply
    | .error error => .fail error

/-- Turns every error of a plan into a missing result. -/
def attempt : Plan C Reply α → Plan C Reply (Option α)
  | .done result => .done (some result)
  | .fail _ => .done none
  | .ask request next => .ask request fun answer => (next answer).attempt

def lift : Except Error α → Plan C Reply α
  | .ok result => .done result
  | .error error => .fail error

def run {σ : Type} (answer : (r : Request C) → σ → Except Error (Reply r.call) × σ) :
    Plan C Reply α → σ → Except Error α × σ
  | .done result, state => (.ok result, state)
  | .fail error, state => (.error error, state)
  | .ask request next, state =>
    let (reply, state) := answer request state
    (next reply).run answer state

def each (plan : α → Plan C Reply β) : List α → Plan C Reply (List β)
  | [] => .done []
  | item :: rest => (plan item).bind fun first => (each plan rest).bind fun rest =>
    .done (first :: rest)

end Plan

end StoreBridge
