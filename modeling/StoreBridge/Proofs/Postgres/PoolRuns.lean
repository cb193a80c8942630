import StoreBridge.Proofs.Postgres.PoolPlaces

/-!
Statements and transactions of any number of callers over one pool. Each call goes from phase to
phase, and between two of its moves all others may make theirs. A server answers as it likes. Only
a beginning that succeeds opens a transaction on a client, and only an end that succeeds ends it.
-/
namespace StoreBridge.Postgres.Sharing
open Pool

inductive Ending where
  | commit | rollback
  deriving DecidableEq

def Ending.sql : Ending → String
  | .commit => "COMMIT"
  | .rollback => "ROLLBACK"

inductive Phase where
  | idle
  /-- A statement is on its way to the server, outside of every transaction. -/
  | working (client : Nat)
  | beginning (client : Nat)
  | session (client : Nat)
  /-- A statement of the session is on its way. -/
  | stating (client : Nat)
  | ending (client : Nat) (ending : Ending)
  | over

def Phase.holds : Phase → Option (Nat × Work)
  | .working client => some (client, .statement)
  | .beginning client => some (client, .beginning)
  | .session client | .stating client => some (client, .transaction)
  | .ending client _ => some (client, .ending)
  | .idle | .over => none

def Phase.client? (phase : Phase) : Option Nat := phase.holds.map Prod.fst

theorem Phase.client?_eq_some {phase : Phase} {client : Nat} :
    phase.client? = some client ↔ ∃ work, phase.holds = some (client, work) := by
  simp [client?]

inductive Event where
  | took (client : Nat)
  | refused (cause : PoolError)
  /-- An idle client turns out to be broken. -/
  | spoiled (client : Nat)
  | answered (client : Nat) (success : Bool)
  | began (client : Nat) (success : Bool)
  | asked (client : Nat)
  | told (client : Nat) (success : Bool)
  | finishing (client : Nat) (ending : Ending)
  | ended (client : Nat) (success : Bool)
  | dropped (client : Nat)
  | closed

/-- Which clients have an open transaction after an event. -/
def Event.leaves (opened : Nat → Bool) : Event → Nat → Bool
  | .began client true => Function.update opened client true
  | .ended client true => Function.update opened client false
  | _ => opened

inductive Move (p : Pool) : Phase → Event → Pool → Phase → Prop where
  | take {client : Nat} {isNew : Bool} {p' : Pool}
    (taken : p.acquire .statement = .ok (client, isNew, p')) :
    Move p .idle (.took client) p' (.working client)
  | takeFirst {client : Nat} {isNew : Bool} {p' : Pool}
    (taken : p.acquire .beginning = .ok (client, isNew, p')) :
    Move p .idle (.took client) p' (.beginning client)
  | refuse {work : Work} {cause : PoolError} (refused : p.acquire work = .error cause) :
    Move p .idle (.refused cause) p .over
  | miss (empty : p.idle = []) : Move p .idle (.refused .unreachable) p .over
  -- What is broken is thrown away when it is about to be taken, and the call goes on.
  | spoil {client : Nat} {rest : List Nat} (waiting : p.idle = client :: rest) :
    Move p .idle (.spoiled client) { p with idle := rest } .idle
  | close : Move p .idle .closed p.close .over
  | answer {client : Nat} (success : Bool) :
    Move p (.working client) (.answered client success) (p.answered client success) .over
  | begin {client : Nat} :
    Move p (.beginning client) (.began client true) (p.answered client true) (.session client)
  | unbegun {client : Nat} :
    Move p (.beginning client) (.began client false) (p.answered client false) .over
  | ask {client : Nat} : Move p (.session client) (.asked client) p (.stating client)
  | tell {client : Nat} (success : Bool) :
    Move p (.stating client) (.told client success) p (.session client)
  | finish {client : Nat} (ending : Ending) :
    Move p (.session client) (.finishing client ending) (p.finish client) (.ending client ending)
  | ended {client : Nat} {ending : Ending} (success : Bool) :
    Move p (.ending client ending) (.ended client success) (p.answered client success) .over
  | drop {client : Nat} :
    Move p (.session client) (.dropped client) (p.abandon client) .over

structure System where
  pool : Pool
  /-- The clients whose transaction is open on the server. -/
  opened : Nat → Bool
  tasks : Nat → Phase

def System.start (p : Pool) : System := ⟨p, fun _ => false, fun _ => .idle⟩

abbrev Entry := Nat × Event

inductive Step (s : System) : Entry → System → Prop where
  | move {op : Nat} {event : Event} {p : Pool} {phase : Phase}
    (move : Move s.pool (s.tasks op) event p phase) :
    Step s (op, event) ⟨p, event.leaves s.opened, Function.update s.tasks op phase⟩

inductive Run : System → List Entry → System → Prop where
  | nil (s : System) : Run s [] s
  | cons {s middle s' : System} {entry : Entry} {trace : List Entry}
    (step : Step s entry middle) (rest : Run middle trace s') : Run s (entry :: trace) s'

/-- Where a client may be while its transaction is open. -/
def dirty : List Place := [.busy .transaction, .busy .ending, .away]

structure Coherent (s : System) : Prop where
  sound : s.pool.Sound
  held : ∀ {op client work}, (s.tasks op).holds = some (client, work) →
    s.pool.place client = .busy work
  single : ∀ {op op' client work work'}, (s.tasks op).holds = some (client, work) →
    (s.tasks op').holds = some (client, work') → op = op'
  clean : ∀ {client}, s.opened client → client < s.pool.next ∧ s.pool.place client ∈ dirty

variable {p p' : Pool} {opened : Nat → Bool} {phase phase' : Phase} {event : Event}
  {s s' : System} {entry : Entry} {trace : List Entry} {op client : Nat}

inductive Moves : Pool → Phase → List Event → Pool → Phase → Prop where
  | nil (p : Pool) (phase : Phase) : Moves p phase [] p phase
  | cons {p middle p' : Pool} {phase between phase' : Phase} {event : Event} {events : List Event}
    (move : Move p phase event middle between) (rest : Moves middle between events p' phase') :
    Moves p phase (event :: events) p' phase'

theorem Run.append {middle : System} {later : List Entry} (run : Run s trace middle)
    (rest : Run middle later s') : Run s (trace ++ later) s' := by
  induction run with
  | nil => exact rest
  | cons step _ ih => exact .cons step (ih rest)

/-- What one call can do is a run in which all others wait. -/
theorem Moves.run {events : List Event} (moves : Moves p phase events p' phase')
    (pool : s.pool = p) (task : s.tasks op = phase) :
    ∃ opened, Run s (events.map (op, ·)) ⟨p', opened, Function.update s.tasks op phase'⟩ := by
  induction moves generalizing s with
  | nil p phase =>
    subst pool task
    refine ⟨s.opened, ?_⟩
    rw [Function.update_eq_self]
    exact .nil s
  | @cons p middle p' phase between phase' event events move rest ih =>
    subst pool task
    have own : Function.update s.tasks op between op = between := Function.update_self op _ _
    obtain ⟨opened, later⟩ :=
      @ih ⟨middle, event.leaves s.opened, Function.update s.tasks op between⟩ rfl own
    rw [Function.update_idem] at later
    exact ⟨opened, .cons (.move move) later⟩

structure Shift (p : Pool) (opened : Nat → Bool) (phase : Phase) (event : Event) (p' : Pool)
    (phase' : Phase) (client : Nat) (place : Place) : Prop where
  moved : Moved p p' client place
  before : (∃ work, phase.holds = some (client, work)) ∨ p.place client = .idle ∨
    p.next ≤ client
  after : ∀ other work, phase'.holds = some (other, work) → other = client ∧ place = .busy work
  others : ∀ other, other ≠ client → event.leaves opened other = opened other
  clean : event.leaves opened client → place ∈ dirty

theorem Shift.of_closed {place : Place} (moved : Moved p p' client place)
    (before : (∃ work, phase.holds = some (client, work)) ∨ p.place client = .idle ∨
      p.next ≤ client)
    (after : ∀ other work, phase'.holds = some (other, work) →
      other = client ∧ place = .busy work)
    (same : event.leaves opened = opened) (closed : opened client = false) :
    Shift p opened phase event p' phase' client place := by
  refine ⟨moved, before, after, fun other _ => by rw [same], ?_⟩
  rw [same, closed]
  exact nofun

theorem Move.shift (move : Move p phase event p' phase') (sound : p.Sound)
    (held : ∀ client work, phase.holds = some (client, work) → p.place client = .busy work)
    (clean : ∀ client, opened client → client < p.next ∧ p.place client ∈ dirty) :
    (∃ client place, Shift p opened phase event p' phase' client place) ∨
      Thinned p p' ∧ phase'.holds = phase.holds ∧ event.leaves opened = opened := by
  have fresh : ∀ client, p.place client = .idle ∨ p.next ≤ client → opened client = false := by
    intro client new
    by_contra open'
    obtain ⟨known, place⟩ := clean client (by simpa using open')
    rcases new with idle | beyond
    · rw [idle] at place
      contradiction
    · omega
  have unopened : ∀ client work, p.place client = .busy work →
      work = .statement ∨ work = .beginning → opened client = false := by
    intro client work busy quiet
    by_contra open'
    obtain ⟨_, place⟩ := clean client (by simpa using open')
    rw [busy] at place
    rcases quiet with rfl | rfl <;> contradiction
  cases move with
  | take taken | takeFirst taken =>
    obtain ⟨moved, new⟩ := acquire_moved sound taken
    left
    refine ⟨_, _, .of_closed moved (.inr new) ?_ rfl (fresh _ new)⟩
    rintro _ _ ⟨⟩
    exact ⟨rfl, rfl⟩
  | refuse | miss | ask | tell => exact .inr ⟨.refl sound, rfl, rfl⟩
  | spoil waiting =>
    right
    refine ⟨.of_sublist sound ?_ p.closed, rfl, rfl⟩
    rw [waiting]
    exact List.sublist_cons_self _ _
  | close => exact .inr ⟨close_thinned sound, rfl, rfl⟩
  | answer success =>
    have busy := held _ _ rfl
    left
    exact ⟨_, _, .of_closed (answered_moved sound busy nofun success) (.inl ⟨_, rfl⟩) nofun rfl
      (unopened _ _ busy (.inl rfl))⟩
  | begin =>
    have busy := held _ _ rfl
    left
    have dirtied : Place.busy .transaction ∈ dirty := by decide
    refine ⟨_, _, answered_moved sound busy nofun true, .inl ⟨_, rfl⟩, ?_, ?_, fun _ => dirtied⟩
    · rintro _ _ ⟨⟩
      exact ⟨rfl, rfl⟩
    · intro other apart
      simp [Event.leaves, apart]
  | unbegun =>
    have busy := held _ _ rfl
    left
    exact ⟨_, _, .of_closed (answered_moved sound busy nofun false) (.inl ⟨_, rfl⟩) nofun rfl
      (unopened _ _ busy (.inr rfl))⟩
  | finish ending =>
    have busy := held _ _ rfl
    left
    refine ⟨_, _, finish_moved sound busy, .inl ⟨_, rfl⟩, ?_, fun _ _ => rfl, fun _ => by decide⟩
    rintro _ _ ⟨⟩
    exact ⟨rfl, rfl⟩
  | ended success =>
    have busy := held _ _ rfl
    left
    refine ⟨_, _, answered_moved sound busy nofun success, .inl ⟨_, rfl⟩, nofun, ?_, ?_⟩
    · intro other apart
      cases success with
      | true => simp [Event.leaves, apart]
      | false => rfl
    · cases success with
      | true => simp [Event.leaves]
      | false => exact fun _ => List.mem_of_elem_eq_true rfl
  | drop =>
    have busy := held _ _ rfl
    left
    exact ⟨_, _, abandon_moved sound busy, .inl ⟨_, rfl⟩, nofun, fun _ _ => rfl, fun _ => by decide⟩

theorem Step.own {event : Event} (step : Step s (op, event) s') :
    Move s.pool (s.tasks op) event s'.pool (s'.tasks op) ∧
      s'.opened = event.leaves s.opened ∧ ∀ other, other ≠ op → s'.tasks other = s.tasks other := by
  cases step with
  | move move =>
    refine ⟨by simpa using move, rfl, ?_⟩
    exact fun other apart => Function.update_of_ne apart _ _

theorem Shift.alone {place : Place} (coherent : Coherent s)
    (shift : Shift s.pool s.opened (s.tasks op) event p' phase' client place) {other : Nat}
    (apart : other ≠ op) (work : Work) : (s.tasks other).holds ≠ some (client, work) := by
  intro holds
  have busy := coherent.held holds
  rcases shift.before with ⟨_, own⟩ | idle | beyond
  · exact apart (coherent.single holds own)
  · rw [idle] at busy
    contradiction
  · have known := lt_next coherent.sound (by simp [busy] : s.pool.place client ≠ .away)
    omega

theorem step_coherent (coherent : Coherent s) (step : Step s entry s') : Coherent s' := by
  obtain ⟨op, event⟩ := entry
  obtain ⟨move, opened, others⟩ := step.own
  rcases move.shift coherent.sound (fun _ _ => coherent.held) (fun _ => coherent.clean) with
    ⟨client, place, shift⟩ | ⟨thinned, holds, leaves⟩
  · refine ⟨shift.moved.sound, ?_, ?_, ?_⟩
    · intro other client' work has
      rw [shift.moved.places]
      by_cases own : other = op
      · subst own
        obtain ⟨rfl, rfl⟩ := shift.after client' work has
        exact Function.update_self _ _ _
      · rw [others other own] at has
        have apart : client' ≠ client := by
          rintro rfl
          exact shift.alone coherent own work has
        rw [Function.update_of_ne apart]
        exact coherent.held has
    · intro other other' client' work work' has has'
      by_cases own : other = op <;> by_cases own' : other' = op
      · rw [own, own']
      · subst own
        obtain ⟨rfl, -⟩ := shift.after client' work has
        exact absurd (others other' own' ▸ has') (shift.alone coherent own' work')
      · subst own'
        obtain ⟨rfl, -⟩ := shift.after client' work' has'
        exact absurd (others other own ▸ has) (shift.alone coherent own work)
      · exact coherent.single (others other own ▸ has) (others other' own' ▸ has')
    · intro client' open'
      rw [opened] at open'
      rw [shift.moved.places]
      by_cases own : client' = client
      · subst own
        rw [Function.update_self]
        exact ⟨shift.moved.known, shift.clean open'⟩
      · rw [shift.others client' own] at open'
        obtain ⟨known, place⟩ := coherent.clean open'
        rw [Function.update_of_ne own]
        exact ⟨Nat.lt_of_lt_of_le known shift.moved.grows, place⟩
  · have holds : ∀ other, (s'.tasks other).holds = (s.tasks other).holds := by
      intro other
      by_cases own : other = op
      · rw [own, holds]
      · rw [others other own]
    refine ⟨thinned.sound, ?_, ?_, ?_⟩
    · intro other client work has
      have busy := coherent.held (holds other ▸ has)
      rcases thinned.places client with same | ⟨idle, _⟩
      · exact same.trans busy
      · rw [idle] at busy
        contradiction
    · intro other other' client work work' has has'
      exact coherent.single (holds other ▸ has) (holds other' ▸ has')
    · intro client open'
      rw [opened, leaves] at open'
      obtain ⟨known, place⟩ := coherent.clean open'
      rw [thinned.next]
      rcases thinned.places client with same | ⟨_, away⟩
      · exact ⟨known, same ▸ place⟩
      · rw [away]
        exact ⟨known, by decide⟩

/-- A client that was thrown away. -/
def Lost (s : System) (client : Nat) : Prop :=
  client < s.pool.next ∧ s.pool.place client = .away

theorem step_lost (coherent : Coherent s) (lost : Lost s client) (step : Step s entry s') :
    Lost s' client := by
  obtain ⟨op, event⟩ := entry
  obtain ⟨known, away⟩ := lost
  rcases step.own.1.shift coherent.sound (fun _ _ => coherent.held) (fun _ => coherent.clean) with
    ⟨client', place, shift⟩ | ⟨thinned, -, -⟩
  · have apart : client ≠ client' := by
      rintro rfl
      rcases shift.before with ⟨_, own⟩ | idle | beyond
      · have busy := coherent.held own
        rw [away] at busy
        contradiction
      · rw [away] at idle
        contradiction
      · omega
    refine ⟨Nat.lt_of_lt_of_le known shift.moved.grows, ?_⟩
    rw [shift.moved.places, Function.update_of_ne apart]
    exact away
  · refine ⟨thinned.next ▸ known, ?_⟩
    rcases thinned.places client with same | ⟨_, away'⟩
    · exact same.trans away
    · exact away'

/-- The events that leave a transaction without an end. -/
def Event.loses (event : Event) (client : Nat) : Prop :=
  event = .dropped client ∨ event = .ended client false

theorem Move.loses (move : Move p phase event p' phase') (sound : p.Sound)
    (held : ∀ client work, phase.holds = some (client, work) → p.place client = .busy work)
    (loses : event.loses client) : Moved p p' client .away := by
  rcases loses with rfl | rfl
  · cases move with
    | drop => exact abandon_moved sound (held _ _ rfl)
  · cases move with
    | ended => exact answered_moved sound (held _ _ rfl) nofun false

theorem step_loses (coherent : Coherent s) (step : Step s entry s')
    (loses : entry.2.loses client) : Lost s' client := by
  have moved := step.own.1.loses coherent.sound (fun _ _ => coherent.held) loses
  refine ⟨moved.known, ?_⟩
  rw [moved.places, Function.update_self]

theorem Run.coherent (run : Run s trace s') (coherent : Coherent s) : Coherent s' := by
  induction run with
  | nil => exact coherent
  | cons step _ ih => exact ih (step_coherent coherent step)

theorem Run.lost (run : Run s trace s') (coherent : Coherent s) (lost : Lost s client) :
    Lost s' client := by
  induction run with
  | nil => exact lost
  | cons step _ ih => exact ih (step_coherent coherent step) (step_lost coherent lost step)

theorem Run.loses (run : Run s trace s') (coherent : Coherent s) (mem : entry ∈ trace)
    (loses : entry.2.loses client) : Lost s' client := by
  induction run with
  | nil => contradiction
  | cons step rest ih =>
    have later := step_coherent coherent step
    rcases List.mem_cons.mp mem with rfl | mem
    · exact rest.lost later (step_loses coherent step loses)
    · exact ih later mem

theorem start_coherent (sound : p.Sound) : Coherent (.start p) where
  sound := sound
  held := nofun
  single := nofun
  clean := nofun

theorem connect_sound {reachable : Bool} (connected : connect reachable = .ok p) : p.Sound := by
  cases reachable with
  | false => contradiction
  | true =>
    obtain rfl : ⟨[0], [], 1, false⟩ = p := Except.ok.inj connected
    refine ⟨by decide, by decide, ?_⟩
    intro client beyond
    have other : client ≠ 0 := by
      rintro rfl
      contradiction
    simp [place, work?, other]

/-- Of the clients that wait in the pool none has an open transaction, and of all clients each is
    held by one call or session at most. A session that is dropped, or whose end fails, takes its
    client along. -/
theorem pool_clean {reachable : Bool} (connected : connect reachable = .ok p)
    (run : Run (.start p) trace s) :
    (∀ client ∈ s.pool.idle, s.opened client = false) ∧
      (∀ op client, (s.tasks op).client? = some client →
        client ∉ s.pool.idle ∧ ∀ other, (s.tasks other).client? = some client → other = op) ∧
      ∀ entry ∈ trace, ∀ client, entry.2.loses client →
        client ∉ s.pool.idle ∧ ∀ op, (s.tasks op).client? ≠ some client := by
  have first := start_coherent (connect_sound connected)
  have coherent := run.coherent first
  refine ⟨?_, ?_, ?_⟩
  · intro client idle
    by_contra open'
    have place := (coherent.clean (by simpa using open')).2
    rw [place_idle.mpr idle] at place
    contradiction
  · intro op client has
    obtain ⟨work, holds⟩ := Phase.client?_eq_some.mp has
    refine ⟨busy_not_idle (coherent.held holds), ?_⟩
    intro other has'
    obtain ⟨work', holds'⟩ := Phase.client?_eq_some.mp has'
    exact coherent.single holds' holds
  · intro entry mem client loses
    have away := (run.loses first mem loses).2
    constructor
    · intro idle
      rw [place_idle.mpr idle] at away
      contradiction
    · intro op has
      obtain ⟨work, holds⟩ := Phase.client?_eq_some.mp has
      rw [coherent.held holds] at away
      contradiction

/-- A commit that fails between the moves of a statement on another client. -/
theorem pool_clean_failed_commit :
    let p : Pool := ⟨[0], [], 1, false⟩
    let trace : List Entry := [(0, .took 0), (0, .began 0 true), (1, .took 1),
      (0, .finishing 0 .commit), (0, .ended 0 false), (1, .answered 1 true)]
    ∃ s, connect true = .ok p ∧ Run (.start p) trace s ∧ s.pool.idle = [1] ∧ s.opened 0 ∧
      s.opened 1 = false ∧ 0 ∉ s.pool.idle ∧ ∀ op, (s.tasks op).client? ≠ some 0 := by
  intro p trace
  obtain ⟨s, run, idle, first, second⟩ :
      ∃ s, Run (.start p) trace s ∧ s.pool.idle = [1] ∧ s.opened 0 ∧ s.opened 1 = false := by
    refine ⟨_, .cons (.move (.takeFirst rfl)) <| .cons (.move .begin) <|
      .cons (.move (.take rfl)) <| .cons (.move (.finish .commit)) <|
      .cons (.move (.ended false)) <| .cons (.move (.answer true)) <| .nil _, ?_⟩
    exact ⟨rfl, rfl, rfl⟩
  have connected : connect true = .ok p := rfl
  have lost := (pool_clean connected run).2.2 (0, .ended 0 false) (by simp [trace]) 0 (.inr rfl)
  exact ⟨s, connected, run, idle, first, second, lost⟩

end StoreBridge.Postgres.Sharing
