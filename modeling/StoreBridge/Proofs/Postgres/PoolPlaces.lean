import Mathlib.Data.List.Nodup
import Mathlib.Logic.Function.Basic
import StoreBridge.Postgres.Pool

/-!
Where the clients of a pool are. Each thing that is done to a pool moves one client, and leaves all
others where they were.
-/
namespace StoreBridge.Postgres

inductive Place where
  | idle
  | busy (work : Work)
  | away
  deriving DecidableEq

def Place.work? : Place → Option Work
  | .busy work => some work
  | .idle | .away => none

namespace Pool

def place (p : Pool) (client : Nat) : Place :=
  if client ∈ p.idle then .idle
  else
    match p.work? client with
    | some work => .busy work
    | none => .away

/-- No client waits twice or waits at work, and there is none beyond the next number. -/
structure Sound (p : Pool) : Prop where
  distinct : p.idle.Nodup
  resting : ∀ client ∈ p.idle, p.work? client = none
  numbered : ∀ client, p.next ≤ client → p.place client = .away

variable {p p' : Pool} {client other : Nat} {work : Work}

theorem place_idle : p.place client = .idle ↔ client ∈ p.idle := by
  unfold place
  split
  · simp_all
  · cases p.work? client <;> simp_all

theorem place_busy (sound : p.Sound) :
    p.place client = .busy work ↔ p.work? client = some work := by
  unfold place
  split
  · rename_i idle
    simp [sound.resting client idle]
  · cases p.work? client <;> simp_all

theorem work?_discard (p : Pool) (client other : Nat) :
    (p.discard client).work? other = if other = client then none else p.work? other := by
  simp only [work?, discard, List.find?_filter]
  split
  · rename_i same
    subst same
    simp
  · rename_i apart
    congr 2
    funext b
    by_cases found : b.1 = other
    · simp [found, apart]
    · simp [found]

theorem work?_setWork (p : Pool) (client : Nat) (next : Work) (other : Nat) :
    (p.setWork client next).work? other =
      (p.work? other).map fun work => if other = client then next else work := by
  simp only [work?, setWork]
  induction p.busy with
  | nil => rfl
  | cons b rest ih =>
    by_cases own : b.1 = client <;> by_cases found : b.1 = other <;> simp_all

theorem lt_next (sound : p.Sound) (here : p.place client ≠ .away) : client < p.next := by
  by_contra beyond
  exact here (sound.numbered client (Nat.le_of_not_lt beyond))

theorem busy_not_idle (busy : p.place client = .busy work) : client ∉ p.idle := by
  intro idle
  rw [place_idle.mpr idle] at busy
  contradiction

/-- One client is somewhere else, and all others are where they were. -/
structure Moved (p p' : Pool) (client : Nat) (place : Place) : Prop where
  sound : p'.Sound
  places : p'.place = Function.update p.place client place
  grows : p.next ≤ p'.next
  known : client < p'.next

theorem Moved.of_parts {place : Place} (sound : p.Sound) (grows : p.next ≤ p'.next)
    (known : client < p'.next) (distinct : p'.idle.Nodup)
    (idle : ∀ other, other ∈ p'.idle ↔ if other = client then place = .idle else other ∈ p.idle)
    (works : ∀ other, p'.work? other = if other = client then place.work? else p.work? other) :
    Moved p p' client place := by
  have places : p'.place = Function.update p.place client place := by
    funext other
    by_cases same : other = client
    · subst same
      cases place <;> simp [Pool.place, idle, works, Place.work?]
    · simp [Pool.place, idle, works, same]
  refine ⟨⟨distinct, ?_, ?_⟩, places, grows, known⟩
  · intro other waits
    rw [idle] at waits
    rw [works]
    split at waits
    · rename_i same
      rw [if_pos same, waits]
      rfl
    · rename_i apart
      rw [if_neg apart]
      exact sound.resting other waits
  · intro other beyond
    have apart : other ≠ client := by omega
    rw [places, Function.update_of_ne apart]
    exact sound.numbered other (by omega)

theorem discard_moved (sound : p.Sound) (busy : p.place client = .busy work) :
    Moved p (p.discard client) client .away := by
  have apart := busy_not_idle busy
  have known : client < p.next := lt_next sound (by simp [busy])
  refine .of_parts sound (Nat.le_refl p.next) known sound.distinct ?_ (p.work?_discard client)
  intro other
  change other ∈ p.idle ↔ _
  split <;> simp_all

theorem setWork_moved (sound : p.Sound) (busy : p.place client = .busy work) (next : Work) :
    Moved p (p.setWork client next) client (.busy next) := by
  have apart := busy_not_idle busy
  have known : client < p.next := lt_next sound (by simp [busy])
  refine .of_parts sound (Nat.le_refl p.next) known sound.distinct ?_ ?_
  · intro other
    change other ∈ p.idle ↔ _
    split <;> simp_all
  · intro other
    rw [work?_setWork]
    split
    · rename_i same
      rw [same, (place_busy sound).mp busy]
      rfl
    · exact Option.map_id'

theorem giveBack_moved (sound : p.Sound) (busy : p.place client = .busy work) :
    Moved p (p.giveBack client) client (if p.closed then .away else .idle) := by
  unfold giveBack
  dsimp only
  change Moved p (if p.closed then _ else _) client _
  split
  · exact discard_moved sound busy
  · have apart := busy_not_idle busy
    have known : client < p.next := lt_next sound (by simp [busy])
    have distinct : (p.idle ++ [client]).Nodup := by
      rw [List.nodup_append]
      simp only [List.mem_singleton]
      refine ⟨sound.distinct, List.nodup_singleton client, ?_⟩
      rintro c mem _ rfl rfl
      exact apart mem
    refine .of_parts sound (Nat.le_refl p.next) known distinct ?_ (p.work?_discard client)
    intro other
    change other ∈ p.idle ++ [client] ↔ _
    split <;> simp_all

theorem work?_cons (p : Pool) (client other : Nat) (work : Work) (idle : List Nat) (next : Nat) :
    work? { p with idle, busy := (client, work) :: p.busy, next } other =
      if other = client then some work else p.work? other := by
  simp only [work?, List.find?_cons]
  by_cases own : other = client
  · simp [own]
  · simp [own, beq_false_of_ne (Ne.symm own)]

theorem acquire_cases {isNew : Bool} (taken : p.acquire work = .ok (client, isNew, p')) :
    (∃ rest, p.idle = client :: rest ∧
      p' = { p with idle := rest, busy := (client, work) :: p.busy }) ∨
      p.idle = [] ∧ client = p.next ∧
        p' = { p with next := p.next + 1, busy := (client, work) :: p.busy } := by
  unfold acquire at taken
  split at taken
  · contradiction
  · split at taken
    · rename_i rest waiting
      obtain ⟨rfl, -, rfl⟩ := taken
      exact .inl ⟨rest, waiting, rfl⟩
    · rename_i waiting
      obtain ⟨rfl, -, rfl⟩ := taken
      exact .inr ⟨waiting, rfl, rfl⟩

theorem acquire_moved {isNew : Bool} (sound : p.Sound)
    (taken : p.acquire work = .ok (client, isNew, p')) :
    Moved p p' client (.busy work) ∧ (p.place client = .idle ∨ p.next ≤ client) := by
  rcases acquire_cases taken with ⟨rest, waiting, rfl⟩ | ⟨none, rfl, rfl⟩
  · have idle : p.place client = .idle := place_idle.mpr (by simp [waiting])
    have known : client < p.next := lt_next sound (by simp [idle])
    have distinct := sound.distinct
    rw [waiting, List.nodup_cons] at distinct
    refine ⟨.of_parts sound (Nat.le_refl p.next) known distinct.2 ?_ ?_, .inl idle⟩
    · intro other
      by_cases same : other = client
      · simp [same, distinct.1]
      · simp [same, waiting]
    · exact fun other => work?_cons p client other work rest p.next
  · refine ⟨.of_parts sound (Nat.le_succ p.next) (Nat.lt_succ_self p.next) sound.distinct ?_ ?_,
      .inr (Nat.le_refl p.next)⟩
    · simp [none]
    · exact fun other => work?_cons p p.next other work p.idle (p.next + 1)

def answeredPlace (p : Pool) (work : Work) (success : Bool) : Place :=
  match work, success with
  | .transaction, _ | .beginning, true => .busy .transaction
  | .ending, false => .away
  | .statement, _ | .beginning, false | .ending, true => if p.closed then .away else .idle

theorem answered_moved (sound : p.Sound) (busy : p.place client = .busy work)
    (asked : work ≠ .transaction) (success : Bool) :
    Moved p (p.answered client success) client (p.answeredPlace work success) := by
  have found := (place_busy sound).mp busy
  unfold answered
  rw [found]
  cases work with
  | statement => exact giveBack_moved sound busy
  | beginning =>
    cases success with
    | true => exact setWork_moved sound busy .transaction
    | false => exact giveBack_moved sound busy
  | transaction => contradiction
  | ending =>
    cases success with
    | true => exact giveBack_moved sound busy
    | false => exact discard_moved sound busy

theorem finish_moved (sound : p.Sound) (busy : p.place client = .busy .transaction) :
    Moved p (p.finish client) client (.busy .ending) := by
  rw [finish, if_pos ((place_busy sound).mp busy)]
  exact setWork_moved sound busy .ending

theorem abandon_moved (sound : p.Sound) (busy : p.place client = .busy .transaction) :
    Moved p (p.abandon client) client .away := by
  rw [abandon, if_pos ((place_busy sound).mp busy)]
  exact discard_moved sound busy

/-- Some of the clients that waited are gone, and all others are where they were. -/
structure Thinned (p p' : Pool) : Prop where
  sound : p'.Sound
  places : ∀ client, p'.place client = p.place client ∨
    p.place client = .idle ∧ p'.place client = .away
  next : p'.next = p.next

theorem Thinned.of_sublist {idle : List Nat} (sound : p.Sound) (fewer : idle.Sublist p.idle)
    (closed : Bool) : Thinned p { p with idle, closed } := by
  have places : ∀ client, place { p with idle, closed } client = p.place client ∨
      p.place client = .idle ∧ place { p with idle, closed } client = .away := by
    intro client
    by_cases stays : client ∈ idle
    · exact .inl ((place_idle.mpr stays).trans (place_idle.mpr (fewer.subset stays)).symm)
    · by_cases waited : client ∈ p.idle
      · refine .inr ⟨place_idle.mpr waited, ?_⟩
        have none : work? { p with idle, closed } client = none := sound.resting client waited
        rw [place, if_neg stays, none]
      · left
        rw [place, place, if_neg stays, if_neg waited]
        rfl
  refine ⟨⟨sound.distinct.sublist fewer, ?_, ?_⟩, places, rfl⟩
  · exact fun client stays => sound.resting client (fewer.subset stays)
  · intro client beyond
    have away := sound.numbered client beyond
    rcases places client with same | ⟨idle, _⟩
    · exact same.trans away
    · rw [idle] at away
      contradiction

theorem Thinned.refl (sound : p.Sound) : Thinned p p := ⟨sound, fun _ => .inl rfl, rfl⟩

theorem close_thinned (sound : p.Sound) : Thinned p p.close :=
  .of_sublist sound (List.nil_sublist _) true

end Pool
end StoreBridge.Postgres
