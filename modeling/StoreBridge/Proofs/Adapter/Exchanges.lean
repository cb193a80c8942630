import StoreBridge.Adapter.Plan

/-!
What a plan has asked and what it was told. A trace is a way through a plan, for any answers; each
run follows one. Where plans are chained, the trace of the second stands behind the first one's.
-/
namespace StoreBridge.Plan
variable {C : Type} {Reply : C → Type} {α β σ : Type}

structure Exchange (C : Type) (Reply : C → Type) where
  request : Request C
  answer : Except Error (Reply request.call)

def exchanges (answer : (r : Request C) → σ → Except Error (Reply r.call) × σ) :
    Plan C Reply α → σ → List (Exchange C Reply)
  | .done _, _ => []
  | .fail _, _ => []
  | .ask request next, state =>
    let (reply, state) := answer request state
    ⟨request, reply⟩ :: (next reply).exchanges answer state

/-- Exchanges that lead through a plan to what comes of it. -/
inductive Trace : Plan C Reply α → List (Exchange C Reply) → Except Error α → Prop where
  | done (result : α) : Trace (.done result) [] (.ok result)
  | fail (error : Error) : Trace (.fail error) [] (.error error)
  | ask {request : Request C} {next : Except Error (Reply request.call) → Plan C Reply α}
      {log : List (Exchange C Reply)} {outcome : Except Error α}
      (answer : Except Error (Reply request.call)) (later : Trace (next answer) log outcome) :
      Trace (.ask request next) (⟨request, answer⟩ :: log) outcome

theorem exchanges_trace (answer : (r : Request C) → σ → Except Error (Reply r.call) × σ)
    (plan : Plan C Reply α) (state : σ) :
    plan.Trace (plan.exchanges answer state) (plan.run answer state).1 := by
  induction plan generalizing state with
  | done result => exact .done result
  | fail error => exact .fail error
  | ask request next ih => exact .ask _ (ih _ _)

section Trace
variable {plan : Plan C Reply α} {next : α → Plan C Reply β} {log : List (Exchange C Reply)}
  {outcome : Except Error α}

theorem trace_done {result : α} :
    (.done result : Plan C Reply α).Trace log outcome ↔ log = [] ∧ outcome = .ok result := by
  constructor
  · rintro ⟨⟩
    exact ⟨rfl, rfl⟩
  · rintro ⟨rfl, rfl⟩
    exact .done result

theorem trace_ask {request : Request C} {next : Except Error (Reply request.call) → Plan C Reply α}
    {answer : Except Error (Reply request.call)} :
    (Plan.ask request next).Trace (⟨request, answer⟩ :: log) outcome ↔
      (next answer).Trace log outcome := by
  constructor
  · intro trace
    cases trace with
    | ask _ later => exact later
  · exact .ask answer

theorem trace_fail {error : Error} :
    (.fail error : Plan C Reply α).Trace log outcome ↔ log = [] ∧ outcome = .error error := by
  constructor
  · rintro ⟨⟩
    exact ⟨rfl, rfl⟩
  · rintro ⟨rfl, rfl⟩
    exact .fail error

theorem trace_lift {result : Except Error α} :
    (lift result : Plan C Reply α).Trace log outcome ↔ log = [] ∧ outcome = result := by
  cases result with
  | ok result => exact trace_done
  | error error => exact trace_fail

theorem trace_call {place : Place} {c : C} {outcome : Except Error (Reply c)} :
    (call place c : Plan C Reply (Reply c)).Trace log outcome ↔
      log = [⟨⟨place, c⟩, outcome⟩] := by
  constructor
  · intro trace
    cases trace with
    | ask answer later =>
      cases answer with
      | ok reply =>
        obtain ⟨rfl, rfl⟩ := trace_done.mp later
        rfl
      | error error =>
        cases later
        rfl
  · rintro rfl
    cases outcome with
    | ok reply => exact .ask _ (.done reply)
    | error error => exact .ask _ (.fail error)

theorem trace_bind {outcome : Except Error β} :
    (plan >>= next).Trace log outcome ↔
      (∃ error, plan.Trace log (.error error) ∧ outcome = .error error) ∨
        ∃ result before behind, plan.Trace before (.ok result) ∧
          (next result).Trace behind outcome ∧ log = before ++ behind := by
  induction plan generalizing log with
  | done result =>
    constructor
    · intro trace
      exact .inr ⟨result, [], log, .done result, trace, rfl⟩
    · rintro (⟨error, failed, _⟩ | ⟨_, before, behind, first, later, rfl⟩)
      · cases failed
      · cases first
        exact later
  | fail error =>
    constructor
    · intro trace
      cases trace
      exact .inl ⟨error, .fail error, rfl⟩
    · rintro (⟨_, failed, rfl⟩ | ⟨_, before, behind, first, _, _⟩)
      · cases failed
        exact .fail error
      · cases first
  | ask request rest ih =>
    constructor
    · intro trace
      cases trace with
      | ask answer later =>
        rcases (ih answer).mp later with ⟨error, failed, rfl⟩ | ⟨result, before, behind, first,
          second, rfl⟩
        · exact .inl ⟨error, .ask answer failed, rfl⟩
        · exact .inr ⟨result, _ :: before, behind, .ask answer first, second, rfl⟩
    · rintro (⟨error, failed, rfl⟩ | ⟨result, before, behind, first, later, rfl⟩)
      · cases failed with
        | ask answer later => exact .ask answer ((ih answer).mpr (.inl ⟨error, later, rfl⟩))
      · cases first with
        | ask answer first =>
          exact .ask answer ((ih answer).mpr (.inr ⟨result, _, behind, first, later, rfl⟩))

theorem trace_bind_ok {result : β} :
    (plan >>= next).Trace log (.ok result) ↔ ∃ middle before behind,
      plan.Trace before (.ok middle) ∧ (next middle).Trace behind (.ok result) ∧
        log = before ++ behind := by
  rw [trace_bind]
  exact or_iff_right (by rintro ⟨error, _, ⟨⟩⟩)

theorem trace_map {f : α → β} {outcome : Except Error β}
    (trace : (f <$> plan).Trace log outcome) : ∃ result, plan.Trace log result := by
  rcases trace_bind.mp trace with ⟨error, failed, _⟩ | ⟨result, _, _, first, returned, rfl⟩
  · exact ⟨.error error, failed⟩
  · obtain ⟨rfl, _⟩ := trace_done.mp returned
    exact ⟨.ok result, (List.append_nil _).symm ▸ first⟩

theorem Trace.prefix_unique {other : Except Error α} {before rest behind : List (Exchange C Reply)}
    (one : plan.Trace before outcome) (two : plan.Trace log other)
    (same : before ++ rest = log ++ behind) : before = log ∧ outcome = other := by
  induction one generalizing log with
  | done result =>
    cases two
    exact ⟨rfl, rfl⟩
  | fail error =>
    cases two
    exact ⟨rfl, rfl⟩
  | ask answer _ ih =>
    cases two with
    | ask reply later =>
      obtain ⟨asked, tail⟩ := List.cons.inj same
      cases asked
      obtain ⟨rfl, rfl⟩ := ih later tail
      exact ⟨rfl, rfl⟩

end Trace

/-- No way through the plan asks for anything else. -/
def Only (P : C → Prop) (plan : Plan C Reply α) : Prop :=
  ∀ log outcome, plan.Trace log outcome → ∀ e ∈ log, P e.request.call

section Only
variable {P : C → Prop}

theorem only_done (result : α) : (.done result : Plan C Reply α).Only P := by
  rintro _ _ ⟨⟩
  simp

theorem only_lift {result : Except Error α} {next : α → Plan C Reply β}
    (later : ∀ value, result = .ok value → (next value).Only P) :
    (lift result >>= next).Only P := by
  cases result with
  | ok value => exact later value rfl
  | error error =>
    rintro _ _ ⟨⟩
    simp

theorem only_call (place : Place) {c : C} (fine : P c) :
    (call place c : Plan C Reply (Reply c)).Only P := by
  intro log outcome trace
  rw [trace_call.mp trace]
  simpa using fine

theorem Only.bind {plan : Plan C Reply α} {next : α → Plan C Reply β} (first : plan.Only P)
    (later : ∀ result, (next result).Only P) : (plan >>= next).Only P := by
  intro log outcome trace e mem
  rcases trace_bind.mp trace with ⟨error, failed, _⟩ | ⟨result, before, behind, one, two, rfl⟩
  · exact first _ _ failed e mem
  · rcases List.mem_append.mp mem with early | late
    · exact first _ _ one e early
    · exact later result _ _ two e late

end Only

/-- Every way through the plan makes such a call. -/
def Makes (P : C → Prop) (plan : Plan C Reply α) : Prop :=
  ∀ log outcome, plan.Trace log outcome → ∃ e ∈ log, P e.request.call

section Makes
variable {P : C → Prop}

theorem makes_call (place : Place) {c : C} (such : P c) :
    (call place c : Plan C Reply (Reply c)).Makes P := by
  intro log outcome trace
  rw [trace_call.mp trace]
  exact ⟨_, List.mem_cons_self, such⟩

theorem Makes.bind {plan : Plan C Reply α} {next : α → Plan C Reply β} (first : plan.Makes P) :
    (plan >>= next).Makes P := by
  intro log outcome trace
  rcases trace_bind.mp trace with ⟨error, failed, _⟩ | ⟨result, before, behind, one, _, rfl⟩
  · exact first _ _ failed
  · obtain ⟨e, mem, such⟩ := first _ _ one
    exact ⟨e, List.mem_append_left _ mem, such⟩

/-- Where such a call is made only after a plan that comes to nothing, it is made just where the
    exchanges begin with those of a plan that came to nothing. -/
theorem fallback_iff {plan : Plan C Reply (Option α)} {next : Option α → Plan C Reply β}
    {log : List (Exchange C Reply)} {outcome : Except Error β}
    (never : plan.Only fun c => ¬P c) (found : ∀ result, (next (some result)).Only fun c => ¬P c)
    (missed : (next none).Makes P) (trace : (plan >>= next).Trace log outcome) :
    (∃ e ∈ log, P e.request.call) ↔ ∃ before, before <+: log ∧ plan.Trace before (.ok none) := by
  rcases trace_bind.mp trace with ⟨error, failed, _⟩ | ⟨result, before, behind, first, later, rfl⟩
  · refine iff_of_false ?_ ?_
    · rintro ⟨e, mem, such⟩
      exact never _ _ failed e mem such
    · -- The plan has failed by these answers, so it has not come to nothing by the first of them.
      rintro ⟨early, ⟨rest, whole⟩, came⟩
      rw [← List.append_nil log] at whole
      exact absurd (came.prefix_unique failed whole).2 (by simp)
  · cases result with
    | none =>
      obtain ⟨e, mem, such⟩ := missed _ _ later
      exact iff_of_true ⟨e, List.mem_append_right _ mem, such⟩ ⟨before, ⟨behind, rfl⟩, first⟩
    | some result =>
      refine iff_of_false ?_ ?_
      · rintro ⟨e, mem, such⟩
        rcases List.mem_append.mp mem with early | late
        · exact never _ _ first e early such
        · exact found result _ _ later e late such
      · rintro ⟨early, ⟨rest, whole⟩, came⟩
        exact absurd (came.prefix_unique first whole).2 (by simp)

end Makes

end StoreBridge.Plan
