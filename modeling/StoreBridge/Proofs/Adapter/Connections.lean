import StoreBridge.Proofs.Adapter.Interleaving

/-!
The numbers of connections. Two connects that run at the same time may attach theirs in either
order, but they never share a number, so a number stands for one connection of one adapter.
-/
namespace StoreBridge

namespace Lifecycle
variable {l : Lifecycle} {adapter other number found : Nat}

theorem connection_ok_iff :
    l.connection adapter = .ok number ↔ l.connections[adapter]? = some (some number) := by
  unfold connection
  split
  · next known => simp [known]
  · next unknown => simpa using fun known => unknown number known

theorem connection_attach (known : (l.attach other number).connection adapter = .ok found) :
    l.connection adapter = .ok found ∨ adapter = other ∧ found = number := by
  rw [connection_ok_iff] at known ⊢
  rw [attach, List.getElem?_set] at known
  by_cases same : other = adapter
  · subst same
    rw [if_pos rfl] at known
    split at known
    · exact .inr ⟨rfl, by simpa using known.symm⟩
    · simp at known
  · rw [if_neg same] at known
    exact .inl known

theorem connection_disconnect (known : (l.disconnect other).connection adapter = .ok found) :
    l.connection adapter = .ok found := by
  rw [connection_ok_iff] at known ⊢
  rw [disconnect, List.getElem?_set] at known
  by_cases same : other = adapter
  · rw [if_pos same] at known
    split at known <;> simp at known
  · rwa [if_neg same] at known

end Lifecycle

namespace Interleaving
open Lifecycle

variable {backend : Nat → Backend} {l l' : Lifecycle} {free : Nat → Prop} {event : Event}
  {phase phase' : Phase} {s s' : System} {entry : Entry} {trace : List Entry}
  {op adapter number : Nat}

theorem move_next (move : Move backend l free phase event l' phase') :
    l.nextConnection ≤ l'.nextConnection := by
  cases move with
  | number => exact Nat.le_succ _
  | _ => exact Nat.le_refl _

theorem move_connecting (move : Move backend l free phase event l' phase')
    (connecting : phase' = .connecting adapter number) :
    number = l.nextConnection ∧ number < l'.nextConnection := by
  cases move with
  | number =>
    obtain ⟨_, rfl⟩ := Phase.connecting.inj connecting
    exact ⟨rfl, Nat.lt_succ_self _⟩
  | _ => simp at connecting

theorem move_connected (move : Move backend l free phase (.connected adapter number) l' phase') :
    phase = .connecting adapter number ∧ phase' = .halted := by
  cases move with
  | attach => exact ⟨rfl, rfl⟩

/-- A number that was handed out stands in one operation at most. -/
structure Numbered (s : System) : Prop where
  fresh : ∀ {op adapter number}, s.tasks op = .connecting adapter number →
    number < s.life.nextConnection
  single : ∀ {op other adapter second number}, s.tasks op = .connecting adapter number →
    s.tasks other = .connecting second number → op = other

theorem step_numbered (numbered : Numbered s) (step : Step backend s entry s') : Numbered s' := by
  obtain ⟨mover, event⟩ := entry
  have others {op : Nat} (other : op ≠ mover) : s'.tasks op = s.tasks op := step.frame other
  -- The next number is above all that stand in other operations.
  have apart {op adapter second number : Nat} (own : s'.tasks mover = .connecting adapter number)
      (other : op ≠ mover) : s'.tasks op ≠ .connecting second number := by
    intro connecting
    rw [others other] at connecting
    have below := numbered.fresh connecting
    rw [(move_connecting step.own own).1] at below
    exact Nat.lt_irrefl _ below
  constructor
  case fresh =>
    intro op adapter number connecting
    by_cases own : op = mover
    · subst own
      exact (move_connecting step.own connecting).2
    · rw [others own] at connecting
      exact Nat.lt_of_lt_of_le (numbered.fresh connecting) (move_next step.own)
  case single =>
    intro op other adapter second number first connecting
    by_cases own : op = mover
    · by_cases both : other = mover
      · rw [own, both]
      · exact absurd connecting (apart (own ▸ first) both)
    · by_cases both : other = mover
      · exact absurd first (apart (both ▸ connecting) own)
      · rw [others own] at first
        rw [others both] at connecting
        exact numbered.single first connecting

theorem start_numbered (count : Nat) : Numbered (.start count) := by
  constructor <;> simp [System.start]

def Attached (s : System) (number : Nat) : Prop :=
  number < s.life.nextConnection ∧ ∀ op adapter, s.tasks op ≠ .connecting adapter number

theorem step_attached (attached : Attached s number) (step : Step backend s entry s') :
    Attached s' number ∧ ¬∃ adapter, entry.2 = .connected adapter number := by
  obtain ⟨below, none⟩ := attached
  obtain ⟨mover, event⟩ := entry
  refine ⟨⟨Nat.lt_of_lt_of_le below (move_next step.own), fun op adapter connecting => ?_⟩, ?_⟩
  · by_cases own : op = mover
    · subst own
      have next := (move_connecting step.own connecting).1
      omega
    · rw [step.frame own] at connecting
      exact none op adapter connecting
  · rintro ⟨adapter, rfl⟩
    exact none mover adapter (move_connected step.own).1

theorem connected_attached (numbered : Numbered s)
    (step : Step backend s (op, .connected adapter number) s') : Attached s' number := by
  obtain ⟨connecting, halted⟩ := move_connected step.own
  refine ⟨Nat.lt_of_lt_of_le (numbered.fresh connecting) (move_next step.own), ?_⟩
  intro other second again
  by_cases own : other = op
  · rw [own, halted] at again
    simp at again
  · rw [step.frame own] at again
    exact own (numbered.single again connecting)

theorem run_connected_once (run : Run backend s trace s') (numbered : Numbered s) :
    trace.Pairwise fun earlier later => ∀ number,
      (∃ adapter, earlier.2 = .connected adapter number) →
        ¬∃ adapter, later.2 = .connected adapter number := by
  refine run.pairwise step_numbered
    (fun {s entry middle trace s'} numbered step rest later mem number connected => ?_) numbered
  obtain ⟨op, event⟩ := entry
  obtain ⟨adapter, rfl⟩ := connected
  exact rest.lacks step_attached (connected_attached numbered step) later mem

/-- An adapter has a connection, or an operation of its own has gone on with it. -/
def Knows (s : System) (adapter number : Nat) : Prop :=
  s.life.connection adapter = .ok number ∨ ∃ op, s.tasks op = .beginning adapter number

theorem move_connection (move : Move backend l free phase event l' phase')
    (known : l'.connection adapter = .ok number) :
    l.connection adapter = .ok number ∨ event = .connected adapter number := by
  cases move with
  | attach =>
    rcases connection_attach known with before | ⟨rfl, rfl⟩
    · exact .inl before
    · exact .inr rfl
  | detach | detached => exact .inl (connection_disconnect known)
  | _ => exact .inl known

theorem move_beginning (move : Move backend l free phase event l' phase')
    (beginning : phase' = .beginning adapter number) : l.connection adapter = .ok number := by
  cases move with
  | beginOn known =>
    obtain ⟨rfl, rfl⟩ := Phase.beginning.inj beginning
    exact known
  | _ => simp at beginning

theorem run_knows (run : Run backend s trace s') (knows : Knows s' adapter number) :
    Knows s adapter number ∨ ∃ op, (op, .connected adapter number) ∈ trace := by
  induction run with
  | nil => exact .inl knows
  | @cons s middle s' entry trace step _ ih =>
    obtain ⟨mover, event⟩ := entry
    rcases ih knows with (known | ⟨op, beginning⟩) | ⟨op, mem⟩
    · rcases move_connection step.own known with before | rfl
      · exact .inl (.inl before)
      · exact .inr ⟨mover, by simp⟩
    · by_cases own : op = mover
      · subst own
        exact .inl (.inl (move_beginning step.own beginning))
      · rw [step.frame own] at beginning
        exact .inl (.inr ⟨op, beginning⟩)
    · exact .inr ⟨op, by simp [mem]⟩

theorem start_knows_nothing (count : Nat) : ¬Knows (.start count) adapter number := by
  rintro (known | ⟨op, beginning⟩)
  · rw [connection_ok_iff] at known
    simp only [System.start, ofAdapters, List.getElem?_replicate] at known
    split at known <;> simp at known
  · simp [System.start] at beginning

end Interleaving
end StoreBridge
