import StoreBridge.Proofs.Adapter.Connections
import StoreBridge.Proofs.Adapter.Sessions

/-!
Operations that are turned away. From the moment on at which nothing but an error can come of an
operation, it makes no call, and it can always be brought to return that error, whatever the others
do.
-/
namespace StoreBridge.Interleaving
open Lifecycle

variable {backend : Nat → Backend} {l l' : Lifecycle} {free : Nat → Prop} {event : Event}
  {phase phase' : Phase} {s s' : System} {entry : Entry} {trace : List Entry} {op t : Nat}
  {error : Error}

/-- Nothing but an error can come of an operation in this phase. -/
def Doomed (l : Lifecycle) (error : Error) : Phase → Prop
  | .waiting _ t | .finishing t _ => l.Gone t ∧ error = .transactionInactive
  | .took _ _ false => error = .transactionInactive
  | .failing own => error = own
  | _ => False

theorem reach_gone {b : Backend} (gone : l.Gone t) :
    l.reach b t = .error .transactionInactive := by
  obtain ⟨x, there⟩ : ∃ x, l.transactions[t]? = some x := ⟨_, List.getElem?_eq_getElem gone.1⟩
  have empty : x.held = false := by simpa [holds, there] using gone.2
  simp [Lifecycle.reach, transaction, there, bind, Except.bind, Transaction.reach, empty]

/-- A doomed operation makes no call. It goes on towards its error and returns it, or is given
    up. -/
theorem move_doomed (doomed : Doomed l error phase)
    (move : Move backend l free phase event l' phase') :
    (event = .returned (.error error) ∨ event = .abandoned) ∧ phase' = .halted ∨
      event.drives = false ∧ (∀ result, event ≠ .returned result) ∧ Doomed l' error phase' := by
  cases move with
  | reach _ reached => simp [reach_gone doomed.1] at reached
  | turn _ turned =>
    rw [reach_gone doomed.1] at turned
    exact .inr ⟨rfl, by simp, doomed.2.trans (Except.error.inj turned)⟩
  | take _ held => simp [doomed.1.2] at held
  | miss => exact .inr ⟨rfl, by simp, doomed.2⟩
  | clearMissed => exact .inr ⟨rfl, by simp, doomed⟩
  | fail =>
    obtain rfl : error = _ := doomed
    exact .inl ⟨.inl rfl, rfl⟩
  | abandon => exact .inl ⟨.inr rfl, rfl⟩
  | _ => exact doomed.elim

theorem step_doomed (doomed : Doomed s.life error (s.tasks op))
    (step : Step backend s entry s') (other : op ≠ entry.1) :
    Doomed s'.life error (s'.tasks op) := by
  rw [step.frame other]
  obtain ⟨mover, event⟩ := entry
  cases known : s.tasks op with
  | waiting | finishing =>
    rw [known] at doomed
    exact ⟨move_gone step.own doomed.1, doomed.2⟩
  | took _ _ found => cases found <;> rwa [known] at doomed
  | _ => rwa [known] at doomed

structure Refused (trace : List Entry) (op : Nat) (error : Error) : Prop where
  silent : ∀ event, (op, event) ∈ trace → event.drives = false
  result : ∀ result, (op, .returned result) ∈ trace → result = .error error

theorem refused_still (still : ∀ event, (op, event) ∉ trace) : Refused trace op error :=
  ⟨fun event mem => absurd mem (still event), fun _ mem => absurd mem (still _)⟩

theorem refused_append {earlier later : List Entry} (first : Refused earlier op error)
    (second : Refused later op error) : Refused (earlier ++ later) op error := by
  constructor
  · intro event mem
    exact (List.mem_append.mp mem).elim (first.silent event) (second.silent event)
  · intro result mem
    exact (List.mem_append.mp mem).elim (first.result result) (second.result result)

theorem refused_entry (quiet : event.drives = false)
    (result : ∀ result, event = .returned result → result = .error error) :
    Refused [(op, event)] op error := by
  constructor
  · intro event mem
    obtain rfl := (Prod.mk.inj (List.mem_singleton.mp mem)).2
    exact quiet
  · intro found mem
    exact result found (Prod.mk.inj (List.mem_singleton.mp mem)).2.symm

theorem refused_cons (quiet : event.drives = false)
    (unanswered : ∀ result, event ≠ .returned result) (refused : Refused trace op error) :
    Refused ((op, event) :: trace) op error :=
  refused_append (refused_entry quiet fun result same => absurd same (unanswered result)) refused

theorem run_doomed (run : Run backend s trace s') (doomed : Doomed s.life error (s.tasks op)) :
    Refused trace op error ∧
      ((op, .returned (.error error)) ∈ trace ∨ (op, .abandoned) ∈ trace ∨
        Doomed s'.life error (s'.tasks op)) := by
  induction run with
  | nil => exact ⟨refused_still (by simp), .inr (.inr doomed)⟩
  | @cons s middle s' entry trace step rest ih =>
    obtain ⟨mover, event⟩ := entry
    by_cases own : op = mover
    · subst own
      rcases move_doomed doomed step.own with ⟨last, halted⟩ | ⟨quiet, unanswered, later⟩
      · have still : Refused trace op error := refused_still (rest.halted halted)
        rcases last with rfl | rfl
        · exact ⟨refused_append (refused_entry rfl (by simp)) still, .inl (by simp)⟩
        · exact ⟨refused_append (refused_entry rfl (by simp)) still, .inr (.inl (by simp))⟩
      · obtain ⟨refused, outcome⟩ := ih later
        refine ⟨refused_cons quiet unanswered refused, ?_⟩
        exact outcome.imp (List.mem_cons_of_mem _) (Or.imp_left (List.mem_cons_of_mem _))
    · obtain ⟨refused, outcome⟩ := ih (step_doomed doomed step own)
      have still : ∀ found, (op, found) ∉ [(mover, event)] := by simp [own]
      refine ⟨refused_append (refused_still still) refused, ?_⟩
      exact outcome.imp (List.mem_cons_of_mem _) (Or.imp_left (List.mem_cons_of_mem _))

/-- An operation can be brought to return an error by moves of its own that make no call. -/
def Returns (backend : Nat → Backend) (s : System) (op : Nat) (error : Error) : Prop :=
  ∃ steps s', Run backend s steps s' ∧ (∀ entry ∈ steps, entry.1 = op) ∧
    Refused steps op error ∧ (op, .returned (.error error)) ∈ steps

theorem returns_failing (failing : s.tasks op = .failing error) : Returns backend s op error := by
  have move : Move backend s.life s.Free (s.tasks op) (.returned (.error error)) s.life
      .halted := by
    rw [failing]
    exact .fail
  exact ⟨_, _, .cons (.move move) (.nil _), by simp, refused_entry rfl (by simp), by simp⟩

theorem returns_after (quiet : event.drives = false)
    (unanswered : ∀ result, event ≠ .returned result)
    (move : Move backend s.life s.Free (s.tasks op) event l phase)
    (later : Returns backend ⟨l, Function.update s.tasks op phase⟩ op error) :
    Returns backend s op error := by
  obtain ⟨steps, s', run, own, refused, returned⟩ := later
  refine ⟨(op, event) :: steps, s', .cons (.move move) run, ?_, ?_, by simp [returned]⟩
  · exact List.forall_mem_cons.mpr ⟨rfl, own⟩
  · exact refused_cons quiet unanswered refused

theorem free_gone (coherent : Coherent s) (gone : s.life.Gone t) : s.Free t := by
  intro op calling
  have held := coherent.calling calling
  simp [gone.2] at held

theorem returns_took {ending : Ending} (took : s.tasks op = .took t ending false) :
    Returns backend s op .transactionInactive := by
  have move : Move backend s.life s.Free (s.tasks op) (.cleared t) (s.life.clear t)
      (.failing .transactionInactive) := by
    rw [took]
    exact .clearMissed
  exact returns_after rfl (by simp) move (returns_failing (Function.update_self op _ _))

theorem doomed_returns (coherent : Coherent s) (doomed : Doomed s.life error (s.tasks op)) :
    Returns backend s op error := by
  cases known : s.tasks op with
  | waiting adapter t =>
    rw [known] at doomed
    obtain ⟨gone, rfl⟩ := doomed
    have move : Move backend s.life s.Free (s.tasks op) (.turned t) s.life
        (.failing .transactionInactive) := by
      rw [known]
      exact .turn (free_gone coherent gone) (reach_gone gone)
    exact returns_after rfl (by simp) move (returns_failing (Function.update_self op _ _))
  | finishing t ending =>
    rw [known] at doomed
    obtain ⟨gone, rfl⟩ := doomed
    have move : Move backend s.life s.Free (s.tasks op) (.missed t) s.life
        (.took t ending false) := by
      rw [known]
      exact .miss (free_gone coherent gone) gone.2
    exact returns_after rfl (by simp) move (returns_took (Function.update_self op _ _))
  | took t ending found =>
    rw [known] at doomed
    cases found with
    | true => exact doomed.elim
    | false =>
      obtain rfl : error = _ := doomed
      exact returns_took known
  | failing own =>
    rw [known] at doomed
    obtain rfl : error = own := doomed
    exact returns_failing known
  | _ =>
    rw [known] at doomed
    exact doomed.elim

/-- An operation fails with an error and makes no call: it has returned the error, or was given
    up, or can return it at any time. -/
structure Fails (backend : Nat → Backend) (trace : List Entry) (s : System) (op : Nat)
    (error : Error) : Prop extends Refused trace op error where
  settles : (op, .returned (.error error)) ∈ trace ∨ (op, .abandoned) ∈ trace ∨
    Returns backend s op error

theorem run_fails (run : Run backend s trace s') (coherent : Coherent s)
    (doomed : Doomed s.life error (s.tasks op)) : Fails backend trace s' op error := by
  obtain ⟨refused, outcome⟩ := run_doomed run doomed
  have later := run.keeps step_coherent coherent
  exact ⟨refused, outcome.imp id (Or.imp id (doomed_returns later))⟩

theorem fails_append {earlier later : List Entry} (first : Refused earlier op error)
    (fails : Fails backend later s op error) : Fails backend (earlier ++ later) s op error := by
  refine ⟨refused_append first fails.toRefused, ?_⟩
  exact fails.settles.imp (List.mem_append_right _) (Or.imp_left (List.mem_append_right _))

end StoreBridge.Interleaving
