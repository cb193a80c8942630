import StoreBridge.Proofs.Filter.Questions
import StoreBridge.Proofs.Sql.Meaning
import StoreBridge.Proofs.Unfiltered

/-!
The text of a clause, with the questions of its filter in the places of their tests. Every accepted
filter has such a reading, whatever its combinations lose, so nothing is assumed of them here. The
questions stand in the text in the order in which the filter asks them; none is missing but those
that need no test.
-/
namespace StoreBridge

namespace Question

/-- What a dialect writes for a question. -/
def formula (d : Dialect) (q : Question) : Formula Sql.FieldTest :=
  Sql.Meaning.ofOperator d q.field q.op q.value

/-- Where no list can be bound, membership in an empty list is written without a test. -/
def isTested (d : Dialect) : Question → Bool
  | ⟨_, .isIn, .array []⟩ | ⟨_, .notIn, .array []⟩ => d.bindsLists
  | _ => true

def idle (d : Dialect) : List (Formula Question) → Bool
  | [] => true
  | [.test q] => decide (q.op = .notIn) && !q.isTested d
  | _ => false

end Question

namespace Sql

/-- The text of a clause reads as a formula over the questions of its filter. Their tests stand in
    the text in the order of the filter, each in the place of its own question. -/
structure Clause.Poses (d : Dialect) (start : Nat) (filter : Filter) (clause : Clause)
    (posed : Formula Question) : Prop where
  written : conditionOfText d start (clause.text d start) clause.parameters =
    some (posed.bind (Question.formula d))
  ordered : posed.tests.filter (Question.isTested d) =
    (Filter.questions filter).filter (Question.isTested d)

/-- A predicate reads as what was asked, and is the one that always holds only where that is. -/
structure Predicate.Asks (d : Dialect) (p : Predicate) (asked : Formula Question) : Prop where
  reads : p.Reads (asked.bind (Question.formula d))
  idle : p = .always true ↔ Question.idle d [asked]

namespace Clause
variable {d : Dialect} {filter : List Condition} {clause : Clause}

theorem idle_test {q : Question} :
    Question.idle d [.test q] ↔ q.op = .notIn ∧ q.value = .array [] ∧ d.bindsLists = false := by
  obtain ⟨field, op, value⟩ := q
  simp only [Question.idle, Bool.and_eq_true, decide_eq_true_eq, Bool.not_eq_true']
  refine and_congr_right fun outside => ?_
  subst outside
  cases value with
  | array items =>
    cases items with
    | nil => simp [Question.isTested]
    | cons item rest => simp [Question.isTested]
  | _ => simp [Question.isTested]

theorem idle_single {asked : Formula Question} (idle : Question.idle d [asked]) :
    ∃ q, asked = .test q := by
  cases asked with
  | test q => exact ⟨q, rfl⟩
  | _ => simp [Question.idle] at idle

theorem writes_asks {field : String} {op : Operator} {value : Value} {p : Predicate}
    (written : Writes d field op value p) : p.Asks d (.test ⟨field, op, value⟩) := by
  refine ⟨writes_reads written, ?_⟩
  rw [idle_test]
  constructor
  · rintro rfl
    exact writes_always written
  · rintro ⟨rfl, rfl, single⟩
    cases written with
    | notIn => simp [ofMembers, single]

theorem matchesAll_idle_iff {asked : List (Formula Question)}
    (each : List.Forall₂ (Predicate.Asks d) clause asked) :
    clause.matchesAll = Question.idle d asked := by
  cases each with
  | nil => rfl
  | @cons p f rest others first later =>
    cases later with
    | nil =>
      rw [Bool.eq_iff_iff, ← first.idle, matchesAll_cons]
      exact and_iff_left rfl
    | cons second _ =>
      rw [Bool.eq_iff_iff, matchesAll_cons]
      simp [Question.idle]

theorem reads_asked {asked : List (Formula Question)}
    (each : List.Forall₂ (Predicate.Asks d) clause asked) :
    clause.Reads ((Formula.all asked).bind (Question.formula d)) := by
  rw [Formula.bind_all]
  refine reads_all ?_
  rw [List.forall₂_map_right_iff]
  exact each.imp fun _ _ asks => asks.reads

theorem grouped_asks {joiner : Joiner} {join : List (Formula Question) → Formula Question}
    (joined : ∀ parts, (join parts).bind (Question.formula d) =
      joiner.formula (parts.map (Formula.bind (Question.formula d))))
    (alone : ∀ {parts q}, join parts = .test q → parts = [.test q])
    {branches : List (List Condition)} {clauses : List Clause}
    (each : List.Forall₂ (fun branch clause =>
      List.Forall₂ (Predicate.Asks d) clause (Filter.posed (Question.idle d) branch))
      branches clauses) :
    List.Forall₂ (Predicate.Asks d) (grouped joiner clauses)
      (Filter.combined (Question.idle d) join
        (Filter.posedBranches (Question.idle d) branches)) := by
  have asked : List.Forall₂ (List.Forall₂ (Predicate.Asks d)) clauses
      (Filter.posedBranches (Question.idle d) branches) := by
    rw [Filter.posedBranches_eq, List.forall₂_map_right_iff]
    exact each.flip
  have kept := List.rel_filter (p := fun clause => !matchesAll clause)
    (q := fun branch => !Question.idle d branch)
    (fun clause _ asks => by simp only [matchesAll_idle_iff asks]) asked
  have whole : ∀ branch ∈ (Filter.posedBranches (Question.idle d) branches).filter
      (fun branch => !Question.idle d branch), Question.idle d branch = false := by
    intro branch mem
    simpa using (List.mem_filter.mp mem).2
  unfold grouped Filter.combined
  generalize clauses.filter (fun clause => !matchesAll clause) = left at kept ⊢
  generalize (Filter.posedBranches (Question.idle d) branches).filter
    (fun branch => !Question.idle d branch) = right at kept whole ⊢
  cases kept with
  | nil => exact .nil
  | @cons clause branch clauses branches first later =>
    simp only [List.isEmpty_cons, Bool.false_eq_true, if_false]
    refine .cons ⟨?reads, ?idle⟩ .nil
    case reads =>
      rw [joined, List.map_map]
      refine Predicate.reads_group joiner ?_ (by simp)
      rw [List.forall₂_map_right_iff]
      exact (List.Forall₂.cons first later).imp fun _ _ asks => reads_asked asks
    case idle =>
      constructor
      · intro wrong
        simp at wrong
      · intro idle
        -- A test alone would be that of a single branch, which is kept only where it is not idle.
        obtain ⟨q, test⟩ := idle_single idle
        have single := alone test
        simp only [List.map_cons, List.cons.injEq, List.map_eq_nil_iff] at single
        have busy := whole branch (by simp)
        rw [Formula.all_eq_test single.1, ← test, idle] at busy
        exact absurd busy (by simp)

theorem ofConditions_asks (built : ofConditions d filter = .ok clause) :
    List.Forall₂ (Predicate.Asks d) clause (Filter.posed (Question.idle d) filter) := by
  refine compiled_induct (motive := fun filter clause =>
    List.Forall₂ (Predicate.Asks d) clause (Filter.posed (Question.idle d) filter))
    ?nil ?leaf ?operator ?and ?or ?not built
  case nil => exact .nil
  case leaf =>
    intro field value rest tail ih
    exact .cons (writes_asks (ofLeaf_writes d field value)) ih
  case operator =>
    intro field op value p rest tail made ih
    exact .cons (writes_asks (ofOperator_writes made)) ih
  case and =>
    intro branches clauses rest tail _ each ih
    exact List.rel_append (grouped_asks (Formula.bind_all _) Formula.all_eq_test each) ih
  case or =>
    intro branches clauses rest tail _ each ih
    exact List.rel_append (grouped_asks (Formula.bind_any _) Formula.any_eq_test each) ih
  case not =>
    intro inner clause rest tail each ih
    refine .cons ⟨Predicate.reads_not (reads_asked each), ?_⟩ ih
    simp [Question.idle]

theorem idle_untested {asked : List (Formula Question)} (idle : Question.idle d asked) :
    (asked.flatMap Formula.tests).filter (Question.isTested d) = [] := by
  match asked, idle with
  | [], _ => rfl
  | [.test q], idle =>
    simp only [Question.idle, Bool.and_eq_true, Bool.not_eq_true'] at idle
    simp [Formula.tests, idle.2]

/-- The text of a clause reads as what is left of its filter. -/
theorem text_poses (built : ofFilter d filter = .ok clause) (start : Nat) :
    clause.Poses d start filter (.all (Filter.posed (Question.idle d) filter)) := by
  obtain ⟨sql, built⟩ := ofFilter_ok.mp built
  constructor
  · have bound : Lexeme.bound start clause.parameters 0 (Token.lexemes d start clause.tokens) =
        some (Token.read clause.tokens) :=
      Lexeme.bound_lexemes d start [] clause.tokens
    have whole := Grammar.condition_read
      (Grammar.reads_conjunctionAlone (reads_asked (ofConditions_asks built)))
    rw [conditionOfText, text_read sql, Option.bind_some, bound, Option.bind_some, whole]
  · rw [Formula.tests_all]
    exact Filter.tests_posed (fun _ idle => idle_untested idle) filter

end Clause
end Sql
end StoreBridge
