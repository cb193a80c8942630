import Mathlib.Logic.Function.Basic
import StoreBridge.Adapter.Lifecycle

/-!
Connections and transactions in the hands of any number of callers. An operation goes from phase to
phase, and between two of its moves all others may make theirs. The lock of a transaction is held
by the statement that its session is at work on; a commit or a rollback lets it go before its own
call. A caller may give an operation up wherever it waits for the lock or for a driver.
-/
namespace StoreBridge.Interleaving

inductive Ending where
  | commit | rollback
  deriving DecidableEq, Repr

inductive Phase where
  | idle
  /-- A connect has a number, and its adapter does not have it yet. -/
  | connecting (adapter number : Nat)
  | closing
  | beginning (adapter number : Nat)
  | waiting (adapter transaction : Nat)
  /-- A statement has the lock, and the session is at work on it. -/
  | calling (transaction : Nat)
  | finishing (transaction : Nat) (ending : Ending)
  /-- It has found a session in the slot or none, and has let the lock go. -/
  | took (transaction : Nat) (ending : Ending) (found : Bool)
  /-- It has cleared the flag and is about to end the session. -/
  | ready (transaction : Nat) (ending : Ending)
  | ending (transaction : Nat)
  | failing (error : Error)
  | halted

inductive Event where
  | numbered (adapter number : Nat)
  | connected (adapter number : Nat)
  | disconnected (adapter : Nat)
  | began (adapter number : Nat)
  | unbegun (adapter : Nat)
  | opened (adapter transaction owner : Nat)
  /-- An adapter is asked to run a statement on a transaction, with the connection that it has. -/
  | asked (adapter transaction : Nat) (caller : Except Error Nat)
  | statement (transaction : Nat)
  | turned (transaction : Nat)
  | finishing (transaction : Nat) (ending : Ending)
  | taken (transaction : Nat)
  | missed (transaction : Nat)
  | cleared (transaction : Nat)
  /-- The terminal call reaches the session. -/
  | terminal (transaction : Nat) (ending : Ending)
  | returned (result : Except Error Unit)
  | abandoned

def Phase.waits : Phase → Bool
  | .closing | .beginning _ _ | .waiting _ _ | .calling _ | .finishing _ _ | .ending _ => true
  | _ => false

def Event.drives : Event → Bool
  | .disconnected _ | .began _ _ | .statement _ | .terminal _ _ => true
  | _ => false

def answer (result : Except String Unit) : Except Error Unit := result.mapError .driver

/-- The moves of one operation. A transaction that is named in a call exists, since the caller has
    it, and `free` says of a lock that no statement holds it. -/
inductive Move (backend : Nat → Backend) (l : Lifecycle) (free : Nat → Prop) :
    Phase → Event → Lifecycle → Phase → Prop where
  | number (adapter : Nat) :
    Move backend l free .idle (.numbered adapter l.nextConnection) l.numbered
      (.connecting adapter l.nextConnection)
  | attach {adapter number : Nat} :
    Move backend l free (.connecting adapter number) (.connected adapter number)
      (l.attach adapter number) .halted
  | detach {adapter : Nat} (connected : l.isConnected adapter) :
    Move backend l free .idle (.disconnected adapter) (l.disconnect adapter) .closing
  -- Closing nothing is no call to wait for.
  | detached {adapter : Nat} (apart : ¬l.isConnected adapter) :
    Move backend l free .idle (.disconnected adapter) (l.disconnect adapter) .halted
  | closed (result : Except String Unit) :
    Move backend l free .closing (.returned (answer result)) l .halted
  | beginOn {adapter number : Nat} (known : l.connection adapter = .ok number) :
    Move backend l free .idle (.began adapter number) l (.beginning adapter number)
  | beginOff {adapter : Nat} {error : Error} (none : l.connection adapter = .error error) :
    Move backend l free .idle (.unbegun adapter) l (.failing error)
  | opened {adapter number : Nat} :
    Move backend l free (.beginning adapter number)
      (.opened adapter l.transactions.length number) (l.opened (backend adapter) number).1 .halted
  | unopened {adapter number : Nat} (text : String) :
    Move backend l free (.beginning adapter number) (.returned (.error (.driver text))) l .halted
  | ask {adapter t : Nat} (known : t < l.transactions.length)
    (entered : l.enter adapter (backend adapter) t = .ok ()) :
    Move backend l free .idle (.asked adapter t (l.connection adapter)) l (.waiting adapter t)
  | refuse {adapter t : Nat} {error : Error} (known : t < l.transactions.length)
    (refused : l.enter adapter (backend adapter) t = .error error) :
    Move backend l free .idle (.asked adapter t (l.connection adapter)) l (.failing error)
  | reach {adapter t : Nat} (lock : free t) (reached : l.reach (backend adapter) t = .ok ()) :
    Move backend l free (.waiting adapter t) (.statement t) l (.calling t)
  | turn {adapter t : Nat} {error : Error} (lock : free t)
    (turned : l.reach (backend adapter) t = .error error) :
    Move backend l free (.waiting adapter t) (.turned t) l (.failing error)
  | answered {t : Nat} (result : Except String Unit) :
    Move backend l free (.calling t) (.returned (answer result)) l .halted
  -- No connection is asked for, so a commit goes through from anywhere.
  | finish {t : Nat} (ending : Ending) (known : t < l.transactions.length) :
    Move backend l free .idle (.finishing t ending) l (.finishing t ending)
  | take {t : Nat} {ending : Ending} (lock : free t) (held : l.holds t) :
    Move backend l free (.finishing t ending) (.taken t) (l.take t) (.took t ending true)
  | miss {t : Nat} {ending : Ending} (lock : free t) (empty : l.holds t = false) :
    Move backend l free (.finishing t ending) (.missed t) l (.took t ending false)
  -- The lock is free again by now, and others may have found the slot empty.
  | clear {t : Nat} {ending : Ending} :
    Move backend l free (.took t ending true) (.cleared t) (l.clear t) (.ready t ending)
  | clearMissed {t : Nat} {ending : Ending} :
    Move backend l free (.took t ending false) (.cleared t) (l.clear t)
      (.failing .transactionInactive)
  | terminal {t : Nat} {ending : Ending} :
    Move backend l free (.ready t ending) (.terminal t ending) l (.ending t)
  | ended {t : Nat} (result : Except String Unit) :
    Move backend l free (.ending t) (.returned (answer result)) l .halted
  | fail {error : Error} :
    Move backend l free (.failing error) (.returned (.error error)) l .halted
  | abandon {phase : Phase} (waits : phase.waits) :
    Move backend l free phase .abandoned l .halted

structure System where
  life : Lifecycle
  tasks : Nat → Phase

namespace System

def start (count : Nat) : System := ⟨.ofAdapters count, fun _ => .idle⟩

/-- No statement holds the lock of a transaction. -/
def Free (s : System) (t : Nat) : Prop := ∀ op, s.tasks op ≠ .calling t

end System

abbrev Entry := Nat × Event

inductive Step (backend : Nat → Backend) (s : System) : Entry → System → Prop where
  | move {op : Nat} {event : Event} {l : Lifecycle} {phase : Phase}
    (move : Move backend s.life s.Free (s.tasks op) event l phase) :
    Step backend s (op, event) ⟨l, Function.update s.tasks op phase⟩

inductive Run (backend : Nat → Backend) : System → List Entry → System → Prop where
  | nil (s : System) : Run backend s [] s
  | cons {s middle s' : System} {entry : Entry} {trace : List Entry}
    (step : Step backend s entry middle) (rest : Run backend middle trace s') :
    Run backend s (entry :: trace) s'

variable {backend : Nat → Backend} {s middle s' : System} {entry : Entry} {trace : List Entry}
  {op : Nat}

theorem Run.append_iff {earlier later : List Entry} :
    Run backend s (earlier ++ later) s' ↔
      ∃ middle, Run backend s earlier middle ∧ Run backend middle later s' := by
  induction earlier generalizing s with
  | nil =>
    constructor
    · exact fun run => ⟨s, .nil s, run⟩
    · rintro ⟨middle, ⟨⟩, run⟩
      exact run
  | cons entry rest ih =>
    constructor
    · rintro (_ | ⟨step, run⟩)
      obtain ⟨middle, first, second⟩ := ih.mp run
      exact ⟨middle, .cons step first, second⟩
    · rintro ⟨middle, _ | ⟨step, first⟩, second⟩
      exact .cons step (ih.mpr ⟨middle, first, second⟩)

theorem Run.split (run : Run backend s trace s') (mem : entry ∈ trace) :
    ∃ earlier later before after, trace = earlier ++ entry :: later ∧
      Run backend s earlier before ∧ Step backend before entry after ∧
      Run backend after later s' := by
  obtain ⟨earlier, later, rfl⟩ := List.append_of_mem mem
  obtain ⟨before, first, _ | ⟨step, second⟩⟩ := Run.append_iff.mp run
  exact ⟨earlier, later, before, _, rfl, first, step, second⟩

theorem Run.keeps {P : System → Prop}
    (each : ∀ {s entry s'}, P s → Step backend s entry s' → P s')
    (run : Run backend s trace s') (first : P s) : P s' := by
  induction run with
  | nil => exact first
  | cons step _ ih => exact ih (each first step)

/-- What every step keeps, and no step of a kind can be taken from, holds off that kind. -/
theorem Run.lacks {P : System → Prop} {Q : Entry → Prop}
    (each : ∀ {s entry s'}, P s → Step backend s entry s' → P s' ∧ ¬Q entry)
    (run : Run backend s trace s') (first : P s) : ∀ entry ∈ trace, ¬Q entry := by
  induction run with
  | nil => simp
  | cons step _ ih =>
    have ⟨kept, good⟩ := each first step
    exact List.forall_mem_cons.mpr ⟨good, ih kept⟩

/-- What no entry has behind it, from any state that can be come to. -/
theorem Run.pairwise {P : System → Prop} {R : Entry → Entry → Prop}
    (each : ∀ {s entry s'}, P s → Step backend s entry s' → P s')
    (behind : ∀ {s entry middle trace s'}, P s → Step backend s entry middle →
      Run backend middle trace s' → ∀ later ∈ trace, R entry later)
    (run : Run backend s trace s') (first : P s) : trace.Pairwise R := by
  induction run with
  | nil => exact .nil
  | cons step rest ih => exact .cons (behind first step rest) (ih (each first step))

theorem Step.frame (step : Step backend s entry s') (other : op ≠ entry.1) :
    s'.tasks op = s.tasks op := by
  cases step with
  | move move => exact Function.update_of_ne other _ _

theorem Step.own {event : Event} (step : Step backend s (op, event) s') :
    Move backend s.life s.Free (s.tasks op) event s'.life (s'.tasks op) := by
  cases step with
  | move move => simpa using move

theorem halted_moves {l l' : Lifecycle} {free : Nat → Prop} {event : Event} {phase : Phase} :
    ¬Move backend l free .halted event l' phase := by
  rintro ⟨⟩
  simp [Phase.waits] at *

theorem move_not_idle {l l' : Lifecycle} {free : Nat → Prop} {event : Event} {phase phase' : Phase}
    (move : Move backend l free phase event l' phase') : phase' ≠ .idle := by
  cases move <;> simp

theorem Run.halted (run : Run backend s trace s') (halted : s.tasks op = .halted) :
    ∀ event, (op, event) ∉ trace := by
  intro event mem
  refine run.lacks (P := fun s => s.tasks op = .halted) (Q := fun entry => entry.1 = op)
    (fun {s entry s'} halted step => ?_) halted _ mem rfl
  obtain ⟨other, event⟩ := entry
  by_cases own : op = other
  · subst own
    have move := step.own
    rw [halted] at move
    exact absurd move halted_moves
  · exact ⟨(step.frame own).trans halted, fun same => own same.symm⟩

theorem Run.idle (run : Run backend s trace s') (idle : s'.tasks op = .idle) :
    s.tasks op = .idle ∧ ∀ event, (op, event) ∉ trace := by
  induction run with
  | nil => exact ⟨idle, by simp⟩
  | @cons s middle s' entry trace step _ ih =>
    obtain ⟨later, silent⟩ := ih idle
    obtain ⟨other, event⟩ := entry
    by_cases own : op = other
    · subst own
      exact absurd later (move_not_idle step.own)
    · refine ⟨(step.frame own).symm.trans later, fun event mem => ?_⟩
      rcases List.mem_cons.mp mem with same | mem
      · exact own (Prod.mk.inj same).1
      · exact silent event mem

theorem Run.still (run : Run backend s trace s') (silent : ∀ event, (op, event) ∉ trace) :
    s'.tasks op = s.tasks op := by
  induction run with
  | nil => rfl
  | @cons s middle s' entry trace step _ ih =>
    have other : op ≠ entry.1 := by
      rintro rfl
      exact silent entry.2 (by simp)
    rw [ih fun event mem => silent event (by simp [mem]), step.frame other]

end StoreBridge.Interleaving
