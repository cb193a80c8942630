import StoreBridge.Proofs.Adapter.Interleaving

/-!
What becomes of a session, however its callers interleave. It leaves its slot once, and stays out.
Whoever took it calls it once more, to end it, and everybody who comes later is turned away.
-/
namespace StoreBridge

namespace Lifecycle
variable (l : Lifecycle) (t u : Nat)

def owner? : Option Nat := (l.transactions[t]?).map Transaction.owner

theorem getElem?_change (f : Transaction → Transaction) :
    (l.change u f).transactions[t]? =
      if u = t then (l.transactions[t]?).map f else l.transactions[t]? := by
  rw [change, List.getElem?_modify]
  by_cases same : u = t <;> simp [same]

@[simp] theorem length_change (f : Transaction → Transaction) :
    (l.change u f).transactions.length = l.transactions.length :=
  List.length_modify f l.transactions u

@[simp] theorem length_take : (l.take u).transactions.length = l.transactions.length :=
  length_change l u _

@[simp] theorem length_clear : (l.clear u).transactions.length = l.transactions.length :=
  length_change l u _

theorem map_change {α : Type} {g : Transaction → α} {f : Transaction → Transaction}
    (keeps : ∀ x, g (f x) = g x) :
    ((l.change u f).transactions[t]?).map g = (l.transactions[t]?).map g := by
  rw [getElem?_change]
  split
  · rw [Option.map_map, show g ∘ f = g from funext keeps]
  · rfl

theorem map_change_false {g : Transaction → Bool} {f : Transaction → Transaction}
    (drops : ∀ x, g (f x) = false) :
    (((l.change u f).transactions[t]?).map g == some true) =
      ((l.transactions[t]?).map g == some true && t != u) := by
  rw [getElem?_change]
  by_cases same : u = t
  · cases l.transactions[t]? <;> simp [same, drops]
  · simp [same, Ne.symm same]

theorem holds_eq : l.holds t = ((l.transactions[t]?).map Transaction.held == some true) := by
  unfold holds
  cases l.transactions[t]? <;> simp

theorem isActive_eq :
    l.isActive t = ((l.transactions[t]?).map Transaction.active == some true) := by
  unfold isActive
  cases l.transactions[t]? <;> simp

theorem holds_take : (l.take u).holds t = (l.holds t && t != u) := by
  rw [holds_eq, holds_eq, take, map_change_false]
  exact fun _ => rfl

theorem holds_clear : (l.clear u).holds t = l.holds t := by
  rw [holds_eq, holds_eq, clear, map_change]
  exact fun _ => rfl

theorem isActive_take : (l.take u).isActive t = l.isActive t := by
  rw [isActive_eq, isActive_eq, take, map_change]
  exact fun _ => rfl

theorem isActive_clear : (l.clear u).isActive t = (l.isActive t && t != u) := by
  rw [isActive_eq, isActive_eq, clear, map_change_false]
  exact fun _ => rfl

theorem owner?_take : (l.take u).owner? t = l.owner? t := map_change l t u fun _ => rfl

theorem owner?_clear : (l.clear u).owner? t = l.owner? t := map_change l t u fun _ => rfl

theorem length_opened (backend : Backend) (owner : Nat) :
    (l.opened backend owner).1.transactions.length = l.transactions.length + 1 := by
  simp [opened]

theorem getElem?_opened (backend : Backend) (owner : Nat) :
    (l.opened backend owner).1.transactions[t]? =
      if t = l.transactions.length then some ⟨backend, owner, true, true⟩
      else l.transactions[t]? := by
  simp only [opened, List.getElem?_append]
  by_cases below : t < l.transactions.length
  · simp [below, Nat.ne_of_lt below]
  · by_cases same : t = l.transactions.length
    · simp [same]
    · have behind : t - l.transactions.length ≠ 0 := by omega
      simp [below, same, behind]

/-- The session of a transaction has left its slot. -/
def Gone (l : Lifecycle) (t : Nat) : Prop := t < l.transactions.length ∧ l.holds t = false

end Lifecycle

namespace Interleaving
open Lifecycle

variable {backend : Nat → Backend} {l l' : Lifecycle} {free : Nat → Prop} {event : Event}
  {phase phase' : Phase} {s s' : System} {entry : Entry} {trace : List Entry} {op t : Nat}

theorem move_transactions (move : Move backend l free phase event l' phase') :
    l'.transactions = l.transactions ∨
    (∃ adapter number, phase = .beginning adapter number ∧
      event = .opened adapter l.transactions.length number ∧ phase' = .halted ∧
      l' = (l.opened (backend adapter) number).1) ∨
    (∃ t ending, phase = .finishing t ending ∧ event = .taken t ∧ phase' = .took t ending true ∧
      free t ∧ l.holds t ∧ l' = l.take t) ∨
    ∃ t ending found, phase = .took t ending found ∧ event = .cleared t ∧ l' = l.clear t := by
  cases move with
  | opened => exact .inr (.inl ⟨_, _, rfl, rfl, rfl, rfl⟩)
  | take lock held => exact .inr (.inr (.inl ⟨_, _, rfl, rfl, rfl, lock, held, rfl⟩))
  | clear | clearMissed => exact .inr (.inr (.inr ⟨_, _, _, rfl, rfl, rfl⟩))
  | _ => exact .inl rfl

theorem move_length (move : Move backend l free phase event l' phase') :
    l.transactions.length ≤ l'.transactions.length := by
  rcases move_transactions move with same | ⟨_, _, _, _, _, rfl⟩ | ⟨_, _, _, _, _, _, _, rfl⟩ |
    ⟨_, _, _, _, _, rfl⟩
  · simp [same]
  · simp [length_opened]
  · simp
  · simp

theorem move_holds (move : Move backend l free phase event l' phase')
    (known : t < l.transactions.length) :
    l'.holds t = l.holds t ∨ event = .taken t ∧ free t ∧ l.holds t ∧ l'.holds t = false := by
  rcases move_transactions move with same | ⟨_, _, _, _, _, rfl⟩ |
    ⟨u, _, _, took, _, lock, held, rfl⟩ | ⟨_, _, _, _, _, rfl⟩
  · exact .inl (by rw [holds, holds, same])
  · exact .inl (by rw [holds, holds, getElem?_opened, if_neg (Nat.ne_of_lt known)])
  · rw [holds_take]
    by_cases same : t = u
    · exact .inr ⟨same ▸ took, same ▸ lock, same ▸ held, by simp [same]⟩
    · exact .inl (by simp [same])
  · exact .inl (holds_clear l t _)

theorem move_owner (move : Move backend l free phase event l' phase') {owner : Nat}
    (known : l.owner? t = some owner) : l'.owner? t = some owner := by
  rcases move_transactions move with same | ⟨_, _, _, _, _, rfl⟩ | ⟨_, _, _, _, _, _, _, rfl⟩ |
    ⟨_, _, _, _, _, rfl⟩
  · rwa [owner?, same]
  · obtain ⟨x, there, rfl⟩ := Option.map_eq_some_iff.mp known
    have below := (List.getElem?_eq_some_iff.mp there).1
    rwa [owner?, getElem?_opened, if_neg (Nat.ne_of_lt below)]
  · rwa [owner?_take]
  · rwa [owner?_clear]

theorem move_gone (move : Move backend l free phase event l' phase') (gone : l.Gone t) :
    l'.Gone t := by
  refine ⟨Nat.lt_of_lt_of_le gone.1 (move_length move), ?_⟩
  rcases move_holds move gone.1 with same | ⟨_, _, held, _⟩
  · exact same.trans gone.2
  · simp [gone.2] at held

def Phase.subject? : Phase → Option Nat
  | .waiting _ t | .calling t | .finishing t _ | .took t _ _ | .ready t _ | .ending t => some t
  | _ => none

def Phase.emptied? : Phase → Option Nat
  | .took t _ _ | .ready t _ => some t
  | _ => none

/-- The transaction whose session the operation has in its hands. -/
def Phase.bears? : Phase → Option Nat
  | .took t _ true | .ready t _ => some t
  | _ => none

structure Coherent (s : System) : Prop where
  subject : ∀ {op t}, (s.tasks op).subject? = some t → t < s.life.transactions.length
  calling : ∀ {op t}, s.tasks op = .calling t → s.life.holds t
  emptied : ∀ {op t}, (s.tasks op).emptied? = some t → s.life.holds t = false
  /-- Nobody else has the same session in his hands. -/
  bearer : ∀ {op other t}, (s.tasks op).bears? = some t → (s.tasks other).bears? = some t →
    op = other
  inactive : ∀ {t}, t < s.life.transactions.length → s.life.isActive t = false →
    s.life.holds t = false

theorem emptied_subject (emptied : phase.emptied? = some t) : phase.subject? = some t := by
  cases phase <;> simp_all [Phase.emptied?, Phase.subject?]

theorem bears_emptied (bears : phase.bears? = some t) : phase.emptied? = some t := by
  cases phase with
  | took u ending found => cases found <;> simp_all [Phase.bears?, Phase.emptied?]
  | _ => simp_all [Phase.bears?, Phase.emptied?]

theorem reach_holds {b : Backend} (reached : l.reach b t = .ok ()) : l.holds t := by
  cases found : l.transactions[t]? with
  | none => simp [Lifecycle.reach, transaction, found, bind, Except.bind] at reached
  | some x =>
    simp only [Lifecycle.reach, transaction, found, bind, Except.bind] at reached
    by_cases held : x.held
    · simpa [holds, found] using held
    · simp [Transaction.reach, held] at reached

theorem move_subject (move : Move backend l free phase event l' phase')
    (known : ∀ {t}, phase.subject? = some t → t < l.transactions.length)
    (subject : phase'.subject? = some t) : t < l'.transactions.length := by
  refine Nat.lt_of_lt_of_le ?_ (move_length move)
  cases move with
  | ask there | finish _ there =>
    obtain rfl := Option.some.inj subject
    exact there
  | reach | take | miss | clear | terminal => exact known subject
  | _ => simp [Phase.subject?] at subject

theorem move_calling (move : Move backend l free phase event l' phase')
    (calling : phase' = .calling t) : l'.holds t ∧ event = .statement t := by
  cases move with
  | reach _ reached =>
    obtain rfl := Phase.calling.inj calling
    exact ⟨reach_holds reached, rfl⟩
  | _ => simp at calling

theorem move_emptied (move : Move backend l free phase event l' phase')
    (before : ∀ {t}, phase.emptied? = some t → l.holds t = false)
    (emptied : phase'.emptied? = some t) : l'.holds t = false := by
  cases move with
  | take _ held =>
    obtain rfl := Option.some.inj emptied
    simp [holds_take]
  | miss _ empty =>
    obtain rfl := Option.some.inj emptied
    exact empty
  | clear =>
    rw [holds_clear]
    exact before emptied
  | _ => simp [Phase.emptied?] at emptied

theorem move_bears (move : Move backend l free phase event l' phase')
    (bears : phase'.bears? = some t) : phase.bears? = some t ∨ l.holds t ∧ event = .taken t := by
  cases move with
  | take _ held =>
    obtain rfl := Option.some.inj bears
    exact .inr ⟨held, rfl⟩
  | clear => exact .inl bears
  | _ => simp [Phase.bears?] at bears

theorem move_inactive (move : Move backend l free phase event l' phase')
    (before : ∀ {t}, phase.emptied? = some t → l.holds t = false)
    (inactive : t < l.transactions.length → l.isActive t = false → l.holds t = false)
    (known : t < l'.transactions.length) (cleared : l'.isActive t = false) :
    l'.holds t = false := by
  rcases move_transactions move with same | ⟨_, _, _, _, _, rfl⟩ | ⟨u, _, rfl, _, rfl, _, _, rfl⟩ |
    ⟨u, _, found, rfl, _, rfl⟩
  · rw [same] at known
    rw [isActive, same] at cleared
    rw [holds, same]
    exact inactive known cleared
  · rw [length_opened] at known
    rw [isActive, getElem?_opened] at cleared
    rw [holds, getElem?_opened]
    by_cases new : t = l.transactions.length
    · simp [new] at cleared
    · rw [if_neg new] at cleared ⊢
      exact inactive (by omega) cleared
  · rw [isActive_take] at cleared
    rw [length_take] at known
    simp [holds_take, inactive known cleared]
  · rw [holds_clear]
    by_cases same : t = u
    · exact before (by rw [same]; rfl)
    · rw [isActive_clear] at cleared
      rw [length_clear] at known
      exact inactive known (by simpa [same] using cleared)

/-- Each part is kept by the operation that moves, for itself and for the others. -/
theorem step_coherent (coherent : Coherent s) (step : Step backend s entry s') : Coherent s' := by
  obtain ⟨mover, event⟩ := entry
  have move := step.own
  have others {op : Nat} (other : op ≠ mover) : s'.tasks op = s.tasks op := step.frame other
  have gone {t : Nat} (known : t < s.life.transactions.length) (empty : s.life.holds t = false) :
      s'.life.holds t = false := (move_gone move ⟨known, empty⟩).2
  constructor
  case subject =>
    intro op t subject
    by_cases own : op = mover
    · subst own
      exact move_subject move coherent.subject subject
    · rw [others own] at subject
      exact Nat.lt_of_lt_of_le (coherent.subject subject) (move_length move)
  case calling =>
    intro op t calling
    by_cases own : op = mover
    · subst own
      exact (move_calling move calling).1
    · rw [others own] at calling
      -- A session is not taken while a statement has the lock.
      have known : t < s.life.transactions.length :=
        coherent.subject (congrArg Phase.subject? calling)
      rcases move_holds move known with same | ⟨_, lock, _, _⟩
      · rw [same]
        exact coherent.calling calling
      · exact absurd calling (lock op)
  case emptied =>
    intro op t emptied
    by_cases own : op = mover
    · subst own
      exact move_emptied move coherent.emptied emptied
    · rw [others own] at emptied
      exact gone (coherent.subject (emptied_subject emptied)) (coherent.emptied emptied)
  case bearer =>
    -- Who takes a session finds it in the slot, and so in nobody's hands.
    have fresh {op t : Nat} (bears : (s.tasks op).bears? = some t) (held : s.life.holds t) :
        False := by
      simp [coherent.emptied (bears_emptied bears)] at held
    intro op other t first second
    by_cases own : op = mover
    · by_cases both : other = mover
      · rw [own, both]
      · subst own
        rw [others both] at second
        rcases move_bears move first with before | ⟨held, _⟩
        · exact coherent.bearer before second
        · exact (fresh second held).elim
    · rw [others own] at first
      by_cases both : other = mover
      · subst both
        rcases move_bears move second with before | ⟨held, _⟩
        · exact coherent.bearer first before
        · exact (fresh first held).elim
      · rw [others both] at second
        exact coherent.bearer first second
  case inactive =>
    intro t known cleared
    exact move_inactive move coherent.emptied coherent.inactive known cleared

theorem start_coherent (count : Nat) : Coherent (.start count) := by
  constructor <;> simp [System.start, ofAdapters, Phase.subject?, Phase.emptied?, Phase.bears?]

theorem move_statement (move : Move backend l free phase (.statement t) l' phase') :
    l.holds t := by
  cases move with
  | reach _ reached => exact reach_holds reached

theorem move_taken (move : Move backend l free phase (.taken t) l' phase') :
    l.holds t ∧ l' = l.take t ∧ ∃ ending, phase = .finishing t ending := by
  cases move with
  | take lock held => exact ⟨held, rfl, _, rfl⟩

theorem move_terminal {ending : Ending}
    (move : Move backend l free phase (.terminal t ending) l' phase') :
    phase = .ready t ending ∧ phase' = .ending t := by
  cases move with
  | terminal => exact ⟨rfl, rfl⟩

theorem holds_known (held : l.holds t) : t < l.transactions.length := by
  by_contra beyond
  simp [holds, List.getElem?_eq_none (Nat.le_of_not_lt beyond)] at held

theorem taken_gone (step : Step backend s (op, .taken t) s') : s'.life.Gone t := by
  obtain ⟨held, taken, _⟩ := move_taken step.own
  rw [taken]
  exact ⟨by simpa using holds_known held, by simp [holds_take]⟩

theorem step_gone (gone : s.life.Gone t) (step : Step backend s entry s') :
    s'.life.Gone t ∧ ¬(entry.2 = .statement t ∨ entry.2 = .taken t) := by
  obtain ⟨op, event⟩ := entry
  refine ⟨move_gone step.own gone, ?_⟩
  rintro (rfl | rfl)
  · have held := move_statement step.own
    simp [gone.2] at held
  · have held := (move_taken step.own).1
    simp [gone.2] at held

theorem run_gone (run : Run backend s trace s') (gone : s.life.Gone t) :
    s'.life.Gone t ∧ ∀ entry ∈ trace, ¬(entry.2 = .statement t ∨ entry.2 = .taken t) :=
  ⟨run.keeps (fun gone step => (step_gone gone step).1) gone, run.lacks step_gone gone⟩

/-- Behind the taking of a session nothing reaches it and nobody takes it again. -/
theorem run_sealed (run : Run backend s trace s') :
    trace.Pairwise fun earlier later => ∀ t, earlier.2 = .taken t →
      ¬(later.2 = .statement t ∨ later.2 = .taken t) := by
  refine run.pairwise (P := fun _ => True) (fun _ _ => trivial)
    (fun {s entry middle trace s'} _ step rest later mem t taken => ?_) trivial
  obtain ⟨op, event⟩ := entry
  obtain rfl : event = .taken t := taken
  exact (run_gone rest (taken_gone step)).2 later mem

def Spent (s : System) (t : Nat) : Prop :=
  s.life.Gone t ∧ ∀ op, (s.tasks op).bears? ≠ some t

theorem step_spent (spent : Spent s t) (step : Step backend s entry s') :
    Spent s' t ∧ ¬∃ ending, entry.2 = .terminal t ending := by
  obtain ⟨gone, free⟩ := spent
  obtain ⟨mover, event⟩ := entry
  refine ⟨⟨(step_gone gone step).1, fun op bears => ?_⟩, ?_⟩
  · by_cases own : op = mover
    · subst own
      rcases move_bears step.own bears with before | ⟨held, _⟩
      · exact free op before
      · simp [gone.2] at held
    · rw [step.frame own] at bears
      exact free op bears
  · rintro ⟨ending, rfl⟩
    obtain ⟨ready, _⟩ := move_terminal step.own
    exact free mover (by rw [ready]; rfl)

theorem terminal_spent {ending : Ending} (coherent : Coherent s)
    (step : Step backend s (op, .terminal t ending) s') : Spent s' t := by
  obtain ⟨ready, ended⟩ := move_terminal step.own
  have bears : (s.tasks op).bears? = some t := by rw [ready]; rfl
  have emptied := bears_emptied bears
  have gone : s.life.Gone t :=
    ⟨coherent.subject (emptied_subject emptied), coherent.emptied emptied⟩
  refine ⟨(step_gone gone step).1, fun other second => ?_⟩
  by_cases own : other = op
  · rw [own, ended] at second
    simp [Phase.bears?] at second
  · rw [step.frame own] at second
    exact own (coherent.bearer second bears)

theorem run_ends_once (run : Run backend s trace s') (coherent : Coherent s) :
    trace.Pairwise fun earlier later => ∀ t, (∃ ending, earlier.2 = .terminal t ending) →
      ¬∃ ending, later.2 = .terminal t ending := by
  refine run.pairwise step_coherent
    (fun {s entry middle trace s'} coherent step rest later mem t ended => ?_) coherent
  obtain ⟨op, event⟩ := entry
  obtain ⟨ending, rfl⟩ := ended
  exact rest.lacks step_spent (terminal_spent coherent step) later mem

theorem move_fresh (move : Move backend l free phase event l' phase')
    (beyond : ¬t < l.transactions.length) (known : t < l'.transactions.length) : l'.holds t := by
  rcases move_transactions move with same | ⟨_, _, _, _, _, rfl⟩ | ⟨_, _, _, _, _, _, _, rfl⟩ |
    ⟨_, _, _, _, _, rfl⟩
  · rw [same] at known
    exact absurd known beyond
  · rw [length_opened] at known
    have new : t = l.transactions.length := by omega
    rw [holds, getElem?_opened, if_pos new]
  · rw [length_take] at known
    exact absurd known beyond
  · rw [length_clear] at known
    exact absurd known beyond

theorem run_taken (run : Run backend s trace s')
    (held : t < s.life.transactions.length → s.life.holds t) (gone : s'.life.Gone t) :
    ∃ op, (op, .taken t) ∈ trace := by
  induction run with
  | nil =>
    have held := held gone.1
    simp [gone.2] at held
  | @cons s middle s' entry trace step _ ih =>
    obtain ⟨op, event⟩ := entry
    by_cases taken : event = .taken t
    · exact ⟨op, by simp [taken]⟩
    · have still : t < middle.life.transactions.length → middle.life.holds t := by
        intro known
        by_cases before : t < s.life.transactions.length
        · rcases move_holds step.own before with same | ⟨other, _⟩
          · exact same.trans (held before)
          · exact absurd other taken
        · exact move_fresh step.own before known
      obtain ⟨taker, mem⟩ := ih still gone
      exact ⟨taker, by simp [mem]⟩

theorem run_bears (run : Run backend s trace s') (bears : (s'.tasks op).bears? = some t) :
    (s.tasks op).bears? = some t ∨ (op, .taken t) ∈ trace := by
  induction run with
  | nil => exact .inl bears
  | @cons s middle s' entry trace step _ ih =>
    obtain ⟨mover, event⟩ := entry
    rcases ih bears with before | mem
    · by_cases own : op = mover
      · subst own
        exact (move_bears step.own before).imp_right fun taken => by simp [taken.2]
      · rw [step.frame own] at before
        exact .inl before
    · exact .inr (by simp [mem])

end Interleaving
end StoreBridge
