import StoreBridge.Proofs.Sql.Acceptance
import StoreBridge.Proofs.Sql.Posed

/-!
One filter in two dialects. Their clauses ask the same questions, and they are equally true as long
as no OR loses a branch in one dialect that it keeps in the other. Only an empty list can make that
difference: being outside of it is a test where lists are bound, and nothing at all elsewhere, so
an OR drops there the one branch that makes it true.
-/
namespace StoreBridge

/-- Nothing is in an empty list and everything is outside of it. -/
structure Question.EmptyLists (value : Question → Truth) : Prop where
  inside : ∀ field, value ⟨field, .isIn, .array []⟩ = .false
  outside : ∀ field, value ⟨field, .notIn, .array []⟩ = .true

/-- Whether a dialect writes a filter as the clause that holds for every row. -/
def Filter.Vanishes (d : Dialect) (filter : Filter) : Prop :=
  ∃ clause, Sql.Clause.ofFilter d filter = .ok clause ∧ clause.text d 1 = Sql.Clause.marker

/-- Whether an OR loses the same branches in two dialects, or has none but those that are lost in
    one of them. -/
def Condition.LosesAlike (d₁ d₂ : Dialect) : Condition → Prop
  | .or branches => (∀ branch ∈ branches, Filter.Vanishes d₁ branch ↔ Filter.Vanishes d₂ branch) ∨
      ∀ branch ∈ branches, Filter.Vanishes d₁ branch ∨ Filter.Vanishes d₂ branch
  | _ => True

namespace Sql.Clause
variable {d d₁ d₂ : Dialect} {filter : List Condition} {value : Question → Truth}

theorem vanishes_iff (sql : d.isSql) (taken : ∀ q ∈ Filter.questions filter, q.op.takes q.value) :
    Filter.Vanishes d filter ↔ Question.idle d (Filter.posed (Question.idle d) filter) := by
  obtain ⟨clause, built⟩ := ofConditions_ok (d := d) taken
  have made : ofFilter d filter = .ok clause := ofFilter_ok.mpr ⟨sql, built⟩
  rw [← matchesAll_idle_iff (ofConditions_asks built), ← text_eq_marker sql 1]
  constructor
  · rintro ⟨other, again, marked⟩
    rw [made, Except.ok.injEq] at again
    rwa [again]
  · exact fun marked => ⟨clause, made, marked⟩

theorem idle_truth (lists : Question.EmptyLists value) {asked : List (Formula Question)}
    (idle : Question.idle d asked) : (Formula.all asked).truth value = .true := by
  match asked, idle with
  | [], _ => rfl
  | [.test q], idle =>
    obtain ⟨outside, empty, _⟩ := idle_test.mp idle
    obtain ⟨field, op, operand⟩ := q
    simp only at outside empty
    subst outside empty
    exact lists.outside field

theorem idle_congr (same : d₁.bindsLists = d₂.bindsLists) :
    Question.idle d₁ = Question.idle d₂ := by
  have tested : Question.isTested d₁ = Question.isTested d₂ := by
    funext q
    unfold Question.isTested
    rw [same]
  funext asked
  unfold Question.idle
  rw [tested]

theorem any_truth {branches : List (List Condition)} (sql₁ : d₁.isSql) (sql₂ : d₂.isSql)
    (lists : Question.EmptyLists value)
    (taken : ∀ branch ∈ branches, ∀ q ∈ Filter.questions branch, q.op.takes q.value)
    (each : ∀ branch ∈ branches,
      (Formula.all (Filter.posed (Question.idle d₁) branch)).truth value =
        (Formula.all (Filter.posed (Question.idle d₂) branch)).truth value)
    (alike : (Condition.or branches).LosesAlike d₁ d₂) :
    (Formula.all ((Condition.or branches).posed (Question.idle d₁))).truth value =
      (Formula.all ((Condition.or branches).posed (Question.idle d₂))).truth value := by
  have lost₁ branch (mem : branch ∈ branches) := vanishes_iff sql₁ (taken branch mem)
  have lost₂ branch (mem : branch ∈ branches) := vanishes_iff sql₂ (taken branch mem)
  simp only [Condition.posed, Filter.posedBranches_eq]
  rcases alike with same | all
  · -- Both keep the same branches, which are equally true.
    have kept : (branches.filter fun branch =>
          !Question.idle d₁ (Filter.posed (Question.idle d₁) branch)) =
        branches.filter fun branch =>
          !Question.idle d₂ (Filter.posed (Question.idle d₂) branch) := by
      refine List.filter_congr fun branch mem => ?_
      have both := (lost₁ branch mem).symm.trans ((same branch mem).trans (lost₂ branch mem))
      rw [Bool.eq_iff_iff.mpr both]
    unfold Filter.combined
    simp only [Filter.kept_eq, kept, List.isEmpty_map]
    split
    · rfl
    · rw [List.map_map, List.map_map]
      refine Formula.truth_any_map_congr fun branch mem => ?_
      exact each branch (List.mem_filter.mp mem).1
  · -- Every branch is true, since one of the two dialects has lost it.
    have holds₁ : ∀ branch ∈ branches,
        (Formula.all (Filter.posed (Question.idle d₁) branch)).truth value = .true := by
      intro branch mem
      rcases all branch mem with lost | lost
      · exact idle_truth lists ((lost₁ branch mem).mp lost)
      · rw [each branch mem]
        exact idle_truth lists ((lost₂ branch mem).mp lost)
    have holds₂ : ∀ branch ∈ branches,
        (Formula.all (Filter.posed (Question.idle d₂) branch)).truth value = .true := by
      intro branch mem
      rw [← each branch mem]
      exact holds₁ branch mem
    rw [Filter.truth_combined_any_true (List.forall_mem_map.mpr holds₁),
      Filter.truth_combined_any_true (List.forall_mem_map.mpr holds₂)]

theorem posed_truth (sql₁ : d₁.isSql) (sql₂ : d₂.isSql) (lists : Question.EmptyLists value)
    (taken : ∀ q ∈ Filter.questions filter, q.op.takes q.value)
    (alike : ∀ c ∈ Filter.nested filter, c.LosesAlike d₁ d₂) :
    (Formula.all (Filter.posed (Question.idle d₁) filter)).truth value =
      (Formula.all (Filter.posed (Question.idle d₂) filter)).truth value := by
  have all_truth {d : Dialect} (branches : List (List Condition)) :
      (Formula.all ((Condition.and branches).posed (Question.idle d))).truth value =
        (Formula.all (branches.map fun branch =>
          .all (Filter.posed (Question.idle d) branch))).truth value := by
    rw [Condition.posed, Filter.truth_combined_all fun _ _ => idle_truth lists,
      Filter.posedBranches_eq, List.map_map]
    rfl
  induction filter using Filter.induct with
  | nil => rfl
  | leaf field operand rest ih | operator field op operand rest ih =>
    rw [Filter.questions, List.forall_mem_append] at taken
    rw [Filter.forall_nested_cons] at alike
    rw [Filter.posed, Filter.posed, Formula.truth_all_append, Formula.truth_all_append,
      ih taken.2 alike.2]
    rfl
  | and branches rest each ih =>
    rw [Filter.questions, List.forall_mem_append, Condition.questions, Filter.branchQuestions_eq,
      List.forall_mem_flatMap] at taken
    rw [Filter.forall_nested_cons, Filter.forall_nested_and] at alike
    obtain ⟨⟨_, inside⟩, behind⟩ := alike
    rw [Filter.posed, Filter.posed, Formula.truth_all_append, Formula.truth_all_append,
      ih taken.2 behind, all_truth, all_truth]
    refine congrArg (Truth.and · _) (Formula.truth_all_map_congr fun branch mem => ?_)
    exact each branch mem (taken.1 branch mem) (inside branch mem)
  | or branches rest each ih =>
    rw [Filter.questions, List.forall_mem_append, Condition.questions, Filter.branchQuestions_eq,
      List.forall_mem_flatMap] at taken
    rw [Filter.forall_nested_cons, Filter.forall_nested_or] at alike
    obtain ⟨⟨own, inside⟩, behind⟩ := alike
    rw [Filter.posed, Filter.posed, Formula.truth_all_append, Formula.truth_all_append,
      ih taken.2 behind]
    refine congrArg (Truth.and · _) (any_truth sql₁ sql₂ lists taken.1 (fun branch mem => ?_) own)
    exact each branch mem (taken.1 branch mem) (inside branch mem)
  | not inner rest each ih =>
    rw [Filter.questions, List.forall_mem_append] at taken
    rw [Filter.forall_nested_cons, Filter.forall_nested_not] at alike
    obtain ⟨⟨_, inside⟩, behind⟩ := alike
    rw [Filter.posed, Filter.posed, Formula.truth_all_append, Formula.truth_all_append,
      ih taken.2 behind]
    exact congrArg (fun t => Truth.and (Truth.not t) _) (each taken.1 inside)

/-- Any two dialects have clauses for the same filters. The clauses are equally true, whatever the
    truth of the questions, where the dialects bind lists alike or lose the branches of each OR
    alike. -/
theorem dialects_agree {d₁ d₂ : Dialect} {filter : Filter} {clause : Clause}
    (built : ofFilter d₁ filter = .ok clause) (sql : d₂.isSql)
    (alike : d₁.bindsLists = d₂.bindsLists ∨
      ∀ c ∈ Filter.nested filter, c.LosesAlike d₁ d₂) (start₁ start₂ : Nat) :
    ∃ other posed₁ posed₂, ofFilter d₂ filter = .ok other ∧
      clause.Poses d₁ start₁ filter posed₁ ∧ other.Poses d₂ start₂ filter posed₂ ∧
      ∀ value, Question.EmptyLists value → posed₁.truth value = posed₂.truth value := by
  obtain ⟨other, again⟩ := ofFilter_accepts built sql rfl
  refine ⟨other, _, _, again, text_poses built start₁, text_poses again start₂, ?_⟩
  intro value lists
  rcases alike with same | alike
  · rw [idle_congr same]
  · obtain ⟨sql₁, made⟩ := ofFilter_ok.mp built
    exact posed_truth sql₁ sql lists (ofConditions_takes made) alike

/-- One OR loses all of its branches in one of the dialects, the other OR loses none in either. -/
theorem dialects_agree_lost_alike :
    ∃ posed₁ posed₂, Poses .postgres 1
        [.not [.or [[.operator "a" .notIn (.array [])], []]],
          .or [[.leaf "b" (.int 1)], [.operator "c" .isIn (.array [])]]]
        [.not [.group .or [[.inList "a" true []]]],
          .group .or [[.compare "b" .eq (.int 1)], [.inList "c" false []]]] posed₁ ∧
      Poses .mysql 3
        [.not [.or [[.operator "a" .notIn (.array [])], []]],
          .or [[.leaf "b" (.int 1)], [.operator "c" .isIn (.array [])]]]
        [.not [], .group .or [[.compare "b" .eq (.int 1)], [.always false]]] posed₂ ∧
      ∀ value, Question.EmptyLists value → posed₁.truth value = posed₂.truth value := by
  have outside : Filter.Vanishes .mysql [.operator "a" .notIn (.array [])] := ⟨_, rfl, by decide⟩
  have test {d : Dialect} (sql : d.isSql) : ¬Filter.Vanishes d [.leaf "b" (.int 1)] := by
    rw [vanishes_iff sql (by simp [Filter.questions, Condition.questions, Operator.takes])]
    simp [Filter.posed, Condition.posed, Question.idle]
  have inside {d : Dialect} (sql : d.isSql) :
      ¬Filter.Vanishes d [.operator "c" .isIn (.array [])] := by
    rw [vanishes_iff sql
      (by simp [Filter.questions, Condition.questions, Operator.takes, Value.items?])]
    simp [Filter.posed, Condition.posed, Question.idle]
  have alike : ∀ c ∈ Filter.nested [.not [.or [[.operator "a" .notIn (.array [])], []]],
      .or [[.leaf "b" (.int 1)], [.operator "c" .isIn (.array [])]]],
      c.LosesAlike .postgres .mysql := by
    simp only [Filter.nested, Condition.nested, Filter.nestedBranches, List.append_nil,
      List.cons_append, List.nil_append, List.forall_mem_cons, List.not_mem_nil, false_implies,
      implies_true, and_true, Condition.LosesAlike, true_and]
    refine ⟨.inr ⟨.inr outside, .inr ⟨_, rfl, by decide⟩⟩, .inl ⟨?_, ?_⟩⟩
    · exact iff_of_false (test rfl) (test rfl)
    · exact iff_of_false (inside rfl) (inside rfl)
  have built : ofFilter .postgres [.not [.or [[.operator "a" .notIn (.array [])], []]],
      .or [[.leaf "b" (.int 1)], [.operator "c" .isIn (.array [])]]] = .ok _ := rfl
  obtain ⟨other, posed₁, posed₂, again, first, second, same⟩ :=
    dialects_agree built (by rfl) (.inr alike) 1 3
  cases again
  exact ⟨posed₁, posed₂, first, second, same⟩

/-- An OR of being outside an empty list and of a test. Where lists are bound it always holds, and
    elsewhere it holds with the test. -/
theorem dialects_disagree_lost_branch :
    ∃ clause other posed₁ posed₂,
      ofFilter .postgres [.or [[.operator "a" .notIn (.array [])], [.leaf "b" (.int 1)]]] =
        .ok clause ∧
      ofFilter .mysql [.or [[.operator "a" .notIn (.array [])], [.leaf "b" (.int 1)]]] =
        .ok other ∧
      clause.text .postgres 1 = "((\"a\" != ALL($1)) OR (\"b\" = $2))" ∧
      other.text .mysql 1 = "((`b` = ?))" ∧
      Poses .postgres 1 [.or [[.operator "a" .notIn (.array [])], [.leaf "b" (.int 1)]]] clause
        posed₁ ∧
      Poses .mysql 1 [.or [[.operator "a" .notIn (.array [])], [.leaf "b" (.int 1)]]] other
        posed₂ ∧
      ∃ value, Question.EmptyLists value ∧ posed₁.truth value = .true ∧
        posed₂.truth value = .false := by
  refine ⟨_, _, _, _, rfl, rfl, rfl, rfl, text_poses rfl 1, text_poses rfl 1, ?_⟩
  exact ⟨fun q => if q.op = .notIn then .true else .false, ⟨fun _ => rfl, fun _ => rfl⟩, rfl, rfl⟩

end Sql.Clause
end StoreBridge
