import Mathlib.Data.List.Pairwise
import Mathlib.Tactic.SplitIfs
import StoreBridge.Proofs.Adapter.Refusals

/-!
The end of a transaction, for every run. Its session is taken once and ended once, nothing reaches
it any more from then on, and whoever comes too late, or on another connection than the one that
opened it, fails without a call.
-/
namespace StoreBridge

namespace Lifecycle
variable {l : Lifecycle} {adapter number owner t : Nat} {b : Backend} {error : Error}

theorem connection_error (unknown : l.connection adapter = .error error) :
    error = .notConnected := by
  unfold connection at unknown
  split at unknown
  · simp at unknown
  · exact (Except.error.inj unknown).symm

theorem enter_unconnected (unknown : l.connection adapter = .error error) :
    l.enter adapter b t = .error error := by
  rw [enter, unknown]
  rfl

theorem enter_owned (caller : l.connection adapter = .ok number)
    (owned : l.owner? t = some owner) :
    l.enter adapter b t =
      if number ≠ owner then .error (.unsupported .otherConnection b) else .ok () := by
  obtain ⟨x, there, rfl⟩ := Option.map_eq_some_iff.mp owned
  simp [enter, caller, transaction, there, bind, Except.bind]

end Lifecycle

namespace Interleaving
open Lifecycle

variable {backend : Nat → Backend} {l l' : Lifecycle} {free : Nat → Prop} {event : Event}
  {phase phase' : Phase} {s s' : System} {entry : Entry} {trace : List Entry} {op t : Nat}
  {error : Error} {adapter number owner : Nat}

theorem move_asked {caller : Except Error Nat}
    (move : Move backend l free phase (.asked adapter t caller) l' phase') :
    phase = .idle ∧ l' = l ∧ t < l.transactions.length ∧ caller = l.connection adapter ∧
      (phase' = .waiting adapter t ∧ l.enter adapter (backend adapter) t = .ok () ∨
        ∃ error, phase' = .failing error ∧
          l.enter adapter (backend adapter) t = .error error) := by
  cases move with
  | ask known entered => exact ⟨rfl, rfl, known, rfl, .inl ⟨rfl, entered⟩⟩
  | refuse known refused => exact ⟨rfl, rfl, known, rfl, .inr ⟨_, rfl, refused⟩⟩

theorem move_finishing {ending : Ending}
    (move : Move backend l free phase (.finishing t ending) l' phase') :
    phase = .idle ∧ phase' = .finishing t ending := by
  cases move with
  | finish => exact ⟨rfl, rfl⟩

theorem move_opened (move : Move backend l free phase (.opened adapter t owner) l' phase') :
    phase = .beginning adapter owner ∧ l'.owner? t = some owner := by
  cases move with
  | opened => exact ⟨rfl, by simp [owner?, getElem?_opened]⟩

theorem run_owner (run : Run backend s trace s') (owned : s.life.owner? t = some owner) :
    s'.life.owner? t = some owner :=
  run.keeps (P := fun s => s.life.owner? t = some owner)
    (fun owned step => move_owner step.own owned) owned

theorem opened_owner {opener : Nat} (run : Run backend s trace s')
    (opened : (opener, .opened adapter t owner) ∈ trace) : s'.life.owner? t = some owner := by
  obtain ⟨_, _, _, _, _, _, step, rest⟩ := run.split opened
  exact run_owner rest (move_opened step.own).2

theorem refused_begun {before : System} {earlier later : List Entry}
    (first : Run backend s earlier before) (idle : before.tasks op = .idle)
    (quiet : event.drives = false) (unanswered : ∀ result, event ≠ .returned result)
    (refused : Refused later op error) : Refused (earlier ++ (op, event) :: later) op error :=
  refused_append (refused_still (first.idle idle).2) (refused_cons quiet unanswered refused)

theorem first_move_fails {before after : System} {earlier later : List Entry}
    (first : Run backend s earlier before) (coherent : Coherent s)
    (step : Step backend before (op, event) after) (rest : Run backend after later s')
    (idle : before.tasks op = .idle) (quiet : event.drives = false)
    (unanswered : ∀ result, event ≠ .returned result)
    (doomed : Doomed after.life error (after.tasks op)) :
    Fails backend (earlier ++ (op, event) :: later) s' op error := by
  have known := step_coherent (first.keeps step_coherent coherent) step
  have refused : Refused (earlier ++ [(op, event)]) op error :=
    refused_begun first idle quiet unanswered (refused_still (by simp))
  simpa using fails_append refused (run_fails rest known doomed)

theorem known_owner (run : Run backend s trace s') (known : t < s.life.transactions.length)
    (owned : s'.life.owner? t = some owner) : s.life.owner? t = some owner := by
  have there : s.life.owner? t = some (s.life.transactions[t]).owner := by
    rw [owner?, List.getElem?_eq_getElem known, Option.map_some]
  rw [there, ← owned, run_owner run there]

theorem unconnected_fails (run : Run backend s trace s') (coherent : Coherent s)
    (asked : (op, .asked adapter t (.error error)) ∈ trace) :
    error = .notConnected ∧ Fails backend trace s' op error := by
  obtain ⟨earlier, later, before, after, rfl, first, step, rest⟩ := run.split asked
  obtain ⟨idle, _, _, caller, ⟨_, entered⟩ | ⟨found, failing, refused⟩⟩ := move_asked step.own
  · rw [enter_unconnected caller.symm] at entered
    simp at entered
  · rw [enter_unconnected caller.symm] at refused
    obtain rfl := Except.error.inj refused
    refine ⟨connection_error caller.symm, first_move_fails first coherent step rest idle rfl
      (by simp) ?_⟩
    rw [failing]
    rfl

theorem stranger_fails (run : Run backend s trace s') (coherent : Coherent s)
    (asked : (op, .asked adapter t (.ok number)) ∈ trace)
    (owned : s'.life.owner? t = some owner) (other : number ≠ owner) :
    Fails backend trace s' op (.unsupported .otherConnection (backend adapter)) := by
  obtain ⟨earlier, later, before, after, rfl, first, step, rest⟩ := run.split asked
  obtain ⟨idle, _, known, caller, outcome⟩ := move_asked step.own
  have owned := known_owner (.cons step rest) known owned
  rw [enter_owned caller.symm owned, if_pos other] at outcome
  obtain ⟨_, entered⟩ | ⟨found, failing, refused⟩ := outcome
  · simp at entered
  · refine first_move_fails first coherent step rest idle rfl (by simp) ?_
    rw [failing]
    exact Except.error.inj refused

theorem move_from_finishing {ending : Ending} (known : t < l.transactions.length)
    (move : Move backend l free (.finishing t ending) event l' phase') :
    l'.Gone t ∨ event = .abandoned ∧ phase' = .halted := by
  cases move with
  | take => exact .inl ⟨by simpa using known, by simp [holds_take]⟩
  | miss _ empty => exact .inl ⟨known, empty⟩
  | abandon => exact .inr ⟨rfl, rfl⟩

/-- While a session is in its slot, a commit or a rollback waits, or has been given up. -/
theorem run_contends {ending : Ending} (run : Run backend s trace s') (coherent : Coherent s)
    (finishing : s.tasks op = .finishing t ending) (held : s'.life.holds t) :
    (∀ event, (op, event) ∈ trace → event = .abandoned) ∧
      (s'.tasks op = .finishing t ending ∨
        (op, .abandoned) ∈ trace ∧ s'.tasks op = .halted) := by
  induction run with
  | nil => exact ⟨by simp, .inl finishing⟩
  | @cons s middle s' entry trace step rest ih =>
    obtain ⟨mover, event⟩ := entry
    by_cases own : op = mover
    · subst own
      have known : t < s.life.transactions.length :=
        coherent.subject (congrArg Phase.subject? finishing)
      have move := step.own
      rw [finishing] at move
      rcases move_from_finishing known move with gone | ⟨rfl, halted⟩
      · simp [(run_gone rest gone).1.2] at held
      · have still := rest.halted halted
        refine ⟨fun event mem => ?_, .inr ⟨by simp, (rest.still still).trans halted⟩⟩
        rcases List.mem_cons.mp mem with same | mem
        · exact (Prod.mk.inj same).2
        · exact absurd mem (still event)
    · have still := (step.frame own).trans finishing
      obtain ⟨silent, outcome⟩ := ih (step_coherent coherent step) still held
      refine ⟨fun event mem => ?_, outcome.imp id (And.imp_left (by simp +contextual))⟩
      rcases List.mem_cons.mp mem with same | mem
      · exact absurd (Prod.mk.inj same).1 own
      · exact silent event mem

def Phase.pending? : Phase → Option Nat
  | .waiting _ t | .finishing t _ => some t
  | _ => none

theorem pending_doomed (pending : phase.pending? = some t) (gone : l.Gone t) :
    Doomed l .transactionInactive phase := by
  cases phase with
  | waiting | finishing =>
    obtain rfl := Option.some.inj pending
    exact ⟨gone, rfl⟩
  | _ => simp [Phase.pending?] at pending

section Taken
variable {taker : Nat} {before after : System} {earlier later : List Entry}
  (first : Run backend s earlier before) (coherent : Coherent s)
  (take : Step backend before (taker, .taken t) after) (rest : Run backend after later s')
include first coherent take rest

theorem pending_fails (refused : Refused earlier op .transactionInactive)
    (pending : (before.tasks op).pending? = some t) (other : op ≠ taker) :
    Fails backend (earlier ++ (taker, .taken t) :: later) s' op .transactionInactive := by
  have known := step_coherent (first.keeps step_coherent coherent) take
  have doomed : Doomed after.life .transactionInactive (after.tasks op) := by
    rw [take.frame other]
    exact pending_doomed pending (taken_gone take)
  have still : Refused [(taker, .taken t)] op .transactionInactive :=
    refused_still (by simp [other])
  simpa using fails_append (refused_append refused still) (run_fails rest known doomed)

theorem latecomer_fails (mem : (op, event) ∈ later) (quiet : event.drives = false)
    (unanswered : ∀ result, event ≠ .returned result)
    (begins : ∀ {s middle behind}, Step backend s (op, event) middle →
      Run backend middle behind s' →
        s.tasks op = .idle ∧ (middle.tasks op).pending? = some t) :
    Fails backend (earlier ++ (taker, .taken t) :: later) s' op .transactionInactive := by
  obtain ⟨front, behind, _, begun, rfl, start, step, ended⟩ := rest.split mem
  obtain ⟨idle, pending⟩ := begins step ended
  have gone := move_gone step.own (run_gone start (taken_gone take)).1
  have whole := Run.append_iff.mpr ⟨_, first, .cons take start⟩
  simpa using first_move_fails whole coherent step ended idle quiet unanswered
    (pending_doomed pending gone)

theorem contender_fails {ending : Ending} (finishing : (op, .finishing t ending) ∈ earlier)
    (other : op ≠ taker) :
    Fails backend (earlier ++ (taker, .taken t) :: later) s' op .transactionInactive := by
  obtain ⟨front, behind, asked, began, rfl, start, step, contend⟩ := first.split finishing
  obtain ⟨idle, begun⟩ := move_finishing step.own
  have known := step_coherent (start.keeps step_coherent coherent) step
  obtain ⟨silent, outcome⟩ := run_contends contend known begun (move_taken take.own).1
  have waited : Refused behind op .transactionInactive :=
    ⟨fun event mem => by rw [silent event mem]; rfl, fun _ mem => by simpa using silent _ mem⟩
  have refused : Refused (front ++ (op, .finishing t ending) :: behind) op .transactionInactive :=
    refused_begun start idle rfl (by simp) waited
  rcases outcome with waiting | ⟨abandoned, halted⟩
  · exact pending_fails first coherent take rest refused (by rw [waiting]; rfl) other
  · have silent := rest.halted ((take.frame other).trans halted)
    have still : Refused ((taker, .taken t) :: later) op .transactionInactive :=
      refused_still (by simp [other, silent])
    exact ⟨refused_append refused still, .inr (.inl (by simp [abandoned]))⟩

end Taken

theorem loser_fails {taker : Nat} {ending : Ending} (run : Run backend s trace s')
    (coherent : Coherent s) (taken : (taker, .taken t) ∈ trace)
    (finishing : (op, .finishing t ending) ∈ trace) (other : op ≠ taker) :
    Fails backend trace s' op .transactionInactive := by
  obtain ⟨earlier, later, before, after, rfl, first, take, rest⟩ := run.split taken
  rcases List.mem_append.mp finishing with inside | inside
  · exact contender_fails first coherent take rest inside other
  · have mem : (op, .finishing t ending) ∈ later := by simpa using inside
    refine latecomer_fails first coherent take rest mem rfl (by simp) fun step _ => ?_
    obtain ⟨idle, begun⟩ := move_finishing step.own
    exact ⟨idle, by rw [begun]; rfl⟩

theorem asked_waits {final : System}
    (step : Step backend s (op, .asked adapter t (.ok owner)) s')
    (rest : Run backend s' trace final)
    (owned : final.life.owner? t = some owner) :
    s.tasks op = .idle ∧ s'.tasks op = .waiting adapter t := by
  obtain ⟨idle, _, known, caller, outcome⟩ := move_asked step.own
  have owned := known_owner (.cons step rest) known owned
  rw [enter_owned caller.symm owned, if_neg (by simp)] at outcome
  obtain ⟨waiting, _⟩ | ⟨_, _, refused⟩ := outcome
  · exact ⟨idle, waiting⟩
  · simp at refused

theorem late_statement_fails {taker : Nat} {earlier later : List Entry}
    (run : Run backend s (earlier ++ (taker, .taken t) :: later) s') (coherent : Coherent s)
    (owned : s'.life.owner? t = some owner)
    (asked : (op, .asked adapter t (.ok owner)) ∈ earlier ++ (taker, .taken t) :: later)
    (waits : ∀ event, (op, event) ∈ earlier → event = .asked adapter t (.ok owner)) :
    Fails backend (earlier ++ (taker, .taken t) :: later) s' op .transactionInactive := by
  obtain ⟨before, first, _ | ⟨take, rest⟩⟩ := Run.append_iff.mp run
  rcases List.mem_append.mp asked with inside | inside
  · obtain ⟨front, behind, _, begun, rfl, start, step, wait⟩ := first.split inside
    obtain ⟨idle, waiting⟩ := asked_waits step (Run.append_iff.mpr ⟨_, wait, .cons take rest⟩) owned
    -- It is asked once, so it has not moved between that and the taking.
    have silent : ∀ event, (op, event) ∉ behind := by
      intro event mem
      obtain rfl := waits event (by simp [mem])
      obtain ⟨_, _, _, _, _, again, step, _⟩ := wait.split mem
      have idle := (again.idle (move_asked step.own).1).1
      rw [waiting] at idle
      simp at idle
    have still := (wait.still silent).trans waiting
    have other : op ≠ taker := by
      rintro rfl
      obtain ⟨_, _, _, finishing⟩ := move_taken take.own
      rw [still] at finishing
      simp at finishing
    have refused : Refused (front ++ (op, .asked adapter t (.ok owner)) :: behind) op
        .transactionInactive :=
      refused_begun start idle rfl (by simp) (refused_still silent)
    exact pending_fails first coherent take rest refused (by rw [still]; rfl) other
  · have mem : (op, .asked adapter t (.ok owner)) ∈ later := by simpa using inside
    refine latecomer_fails first coherent take rest mem rfl (by simp) fun step behind => ?_
    obtain ⟨idle, waiting⟩ := asked_waits step behind owned
    exact ⟨idle, by rw [waiting]; rfl⟩

/-- What a run owes to the transactions in it. -/
structure Orderly (backend : Nat → Backend) (trace : List Entry) (s : System) : Prop where
  /-- A session is ended at most once. -/
  once : ∀ t, trace.Pairwise fun earlier later =>
    (∃ ending, earlier.2 = .terminal t ending) → ¬∃ ending, later.2 = .terminal t ending
  /-- The one that ends it has taken it before. -/
  taken : ∀ {earlier later op t ending}, trace = earlier ++ (op, .terminal t ending) :: later →
    (op, .taken t) ∈ earlier
  /-- Behind the taking no statement reaches the session. -/
  sealed : ∀ t, trace.Pairwise fun earlier later =>
    earlier.2 = .taken t → later.2 ≠ .statement t
  /-- Every other commit and rollback fails. -/
  loser : ∀ {taker op t ending}, (taker, .taken t) ∈ trace → (op, .finishing t ending) ∈ trace →
    op ≠ taker → Fails backend trace s op .transactionInactive
  /-- So does every statement on the transaction's own connection, if it came no further than the
      lock before. -/
  late : ∀ {opener home t owner earlier taker later op adapter},
    (opener, .opened home t owner) ∈ trace → trace = earlier ++ (taker, .taken t) :: later →
    (op, .asked adapter t (.ok owner)) ∈ trace →
    (∀ event, (op, event) ∈ earlier → event = .asked adapter t (.ok owner)) →
    Fails backend trace s op .transactionInactive
  /-- A statement on the connection of another connect fails at any time. -/
  stranger : ∀ {opener home t owner maker op adapter number other},
    (opener, .opened home t owner) ∈ trace → (maker, .connected home owner) ∈ trace →
    (op, .asked adapter t (.ok number)) ∈ trace → (other, .connected adapter number) ∈ trace →
    maker ≠ other → Fails backend trace s op (.unsupported .otherConnection (backend adapter))
  /-- A statement without a connection fails at any time. -/
  unconnected : ∀ {op adapter t error}, (op, .asked adapter t (.error error)) ∈ trace →
    Fails backend trace s op .notConnected
  /-- A transaction belongs to a connection that its adapter was given. -/
  opener : ∀ {op home t owner}, (op, .opened home t owner) ∈ trace →
    ∃ maker, (maker, .connected home owner) ∈ trace
  /-- A statement is asked for on a connection that its adapter was given. -/
  caller : ∀ {op adapter t number}, (op, .asked adapter t (.ok number)) ∈ trace →
    ∃ maker, (maker, .connected adapter number) ∈ trace
  /-- No two connects give one number. -/
  told_apart : ∀ {maker other home adapter number}, (maker, .connected home number) ∈ trace →
    (other, .connected adapter number) ∈ trace → maker = other ∧ home = adapter
  /-- A transaction is inactive only when its session has been taken. -/
  inactive : ∀ {opener home t owner}, (opener, .opened home t owner) ∈ trace →
    s.life.isActive t = false → ∃ taker, (taker, .taken t) ∈ trace

theorem connected_once (run : Run backend s trace s') (numbered : Numbered s)
    {maker other home : Nat} (first : (maker, .connected home number) ∈ trace)
    (second : (other, .connected adapter number) ∈ trace) : maker = other ∧ home = adapter := by
  have symmetric : Std.Symm fun earlier later : Entry => ∀ number,
      (∃ adapter, earlier.2 = .connected adapter number) →
        ¬∃ adapter, later.2 = .connected adapter number :=
    ⟨fun _ _ apart number later earlier => apart number earlier later⟩
  by_contra distinct
  have differ : (maker, Event.connected home number) ≠ (other, .connected adapter number) := by
    simpa using distinct
  exact (run_connected_once run numbered).forall first second differ number ⟨home, rfl⟩
    ⟨adapter, rfl⟩

theorem known_connected {count : Nat} (run : Run backend (.start count) trace s)
    (knows : Knows s adapter number) : ∃ maker, (maker, .connected adapter number) ∈ trace :=
  (run_knows run knows).resolve_left (start_knows_nothing count)

/-- Every run is orderly. -/
theorem runs_orderly {count : Nat} (run : Run backend (.start count) trace s) :
    Orderly backend trace s := by
  have coherent := start_coherent count
  have numbered := start_numbered count
  constructor
  case once =>
    intro t
    exact (run_ends_once run coherent).imp fun once => once t
  case taken =>
    rintro earlier later op t ending rfl
    obtain ⟨before, first, _ | ⟨step, _⟩⟩ := Run.append_iff.mp run
    have bears : (before.tasks op).bears? = some t := by
      rw [(move_terminal step.own).1]
      rfl
    exact (run_bears first bears).resolve_left (by simp [System.start, Phase.bears?])
  case sealed =>
    intro t
    refine (run_sealed run).imp fun closed taken statement => ?_
    exact closed t taken (.inl statement)
  case loser => exact fun taken finishing other => loser_fails run coherent taken finishing other
  case late =>
    rintro opener home t owner earlier taker later op adapter opened rfl asked waits
    exact late_statement_fails run coherent (opened_owner run opened) asked waits
  case stranger =>
    intro opener home t owner maker op adapter number other opened made asked connected apart
    refine stranger_fails run coherent asked (opened_owner run opened) ?_
    rintro rfl
    exact apart (connected_once run numbered made connected).1
  case unconnected =>
    intro op adapter t error asked
    obtain ⟨rfl, fails⟩ := unconnected_fails run coherent asked
    exact fails
  case opener =>
    intro op home t owner opened
    obtain ⟨_, _, _, _, rfl, first, step, _⟩ := run.split opened
    obtain ⟨maker, made⟩ := known_connected first (.inr ⟨op, (move_opened step.own).1⟩)
    exact ⟨maker, by simp [made]⟩
  case caller =>
    intro op adapter t number asked
    obtain ⟨_, _, _, _, rfl, first, step, _⟩ := run.split asked
    obtain ⟨_, _, _, known, _⟩ := move_asked step.own
    obtain ⟨maker, made⟩ := known_connected first (.inl known.symm)
    exact ⟨maker, by simp [made]⟩
  case told_apart => exact connected_once run numbered
  case inactive =>
    intro opener home t owner opened cleared
    have known : t < s.life.transactions.length := by
      have owned := opened_owner run opened
      obtain ⟨_, there, _⟩ := Option.map_eq_some_iff.mp owned
      exact (List.getElem?_eq_some_iff.mp there).1
    have gone : s.life.Gone t :=
      ⟨known, (run.keeps step_coherent coherent).inactive known cleared⟩
    exact run_taken run (by simp [System.start, ofAdapters]) gone

theorem run_on (move : Move backend s.life s.Free (s.tasks op) event l phase)
    (rest : ∃ s', Run backend ⟨l, Function.update s.tasks op phase⟩ trace s') :
    ∃ s', Run backend s ((op, event) :: trace) s' := by
  obtain ⟨s', rest⟩ := rest
  exact ⟨s', .cons (.move move) rest⟩

/-- A commit that the driver loses, between a statement that it waits for, a rollback and a
    statement that come too late, and one on the next connection of the adapter. -/
theorem runs_orderly_lost_commit :
    let trace : List Entry :=
      [(0, .numbered 0 1), (0, .connected 0 1), (1, .began 0 1), (1, .opened 0 0 1),
        (2, .asked 0 0 (.ok 1)), (3, .finishing 0 .commit), (2, .statement 0),
        (2, .returned (.ok ())), (3, .taken 0), (4, .finishing 0 .rollback),
        (5, .asked 0 0 (.ok 1)), (3, .cleared 0), (4, .missed 0), (3, .terminal 0 .commit),
        (5, .turned 0), (5, .returned (.error .transactionInactive)),
        (3, .returned (.error (.driver "lost"))), (4, .cleared 0),
        (4, .returned (.error .transactionInactive)), (6, .numbered 0 2), (6, .connected 0 2),
        (7, .asked 0 0 (.ok 2)),
        (7, .returned (.error (.unsupported .otherConnection .postgres)))]
    ∃ s, Run (fun _ => .postgres) (.start 1) trace s ∧
      Orderly (fun _ => .postgres) trace s := by
  intro trace
  have run : ∃ s, Run (fun _ => .postgres) (.start 1) trace s := by
    refine run_on (.number 0) (run_on .attach (run_on (.beginOn rfl) (run_on .opened ?_)))
    refine run_on (.ask Nat.zero_lt_one rfl) (run_on (.finish .commit Nat.zero_lt_one) ?_)
    refine run_on (.reach ?_ rfl) (run_on (.answered (.ok ())) ?_)
    rotate_left
    refine run_on (.take ?_ rfl) (run_on (.finish .rollback Nat.zero_lt_one) ?_)
    rotate_left
    refine run_on (.ask Nat.zero_lt_one rfl) (run_on .clear (run_on (.miss ?_ rfl) ?_))
    rotate_left
    refine run_on .terminal (run_on (.turn ?_ rfl) (run_on .fail ?_))
    rotate_left
    refine run_on (.ended (.error "lost")) (run_on .clearMissed (run_on .fail ?_))
    refine run_on (.number 0) (run_on .attach (run_on (.refuse Nat.zero_lt_one rfl) ?_))
    exact run_on .fail ⟨_, .nil _⟩
    -- Wherever the lock is asked for, no statement has it.
    all_goals
      intro other
      simp only [System.start, Function.update_apply]
      split_ifs <;> simp
  obtain ⟨s, run⟩ := run
  exact ⟨s, run, runs_orderly run⟩

end Interleaving
end StoreBridge
