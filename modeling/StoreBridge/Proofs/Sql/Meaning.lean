import StoreBridge.Proofs.Sql.Compilation
import StoreBridge.Proofs.Sql.Readings
import StoreBridge.Proofs.Sql.StatementText

/-!
The meaning of a filter, and the meaning of the text that it is compiled to. A filter is read as it
is given: its conditions all hold, an AND holds with all of its branches and an OR with any of
them. The two agree under every truth of the tests, as long as no OR loses a branch: a branch that
holds for every row is left out of an OR too, which then says less than it was given.
-/
namespace StoreBridge.Sql

namespace Meaning

/-- Membership. Where no list can be bound, the empty one needs no test. -/
def ofMembers (d : Dialect) (field : String) (negated : Bool) (items : List Value) :
    Formula FieldTest :=
  if items.isEmpty && !d.bindsLists then .always negated
  else .test (.member field negated (items.map d.stored))

def ofOperator (d : Dialect) (field : String) (op : Operator) (value : Value) :
    Formula FieldTest :=
  match op with
  | .eq =>
    if value.isNull then .test (.null field false) else .test (.compare field .eq (d.stored value))
  | .ne =>
    if value.isNull then .test (.null field true) else .test (.compare field .ne (d.stored value))
  | .gt => .test (.compare field .gt (d.stored value))
  | .gte => .test (.compare field .gte (d.stored value))
  | .lt => .test (.compare field .lt (d.stored value))
  | .lte => .test (.compare field .lte (d.stored value))
  | .isIn => (value.items?.map (ofMembers d field false)).getD (.always false)
  | .notIn => (value.items?.map (ofMembers d field true)).getD (.always false)
  | .like => .test (.like field false (d.stored value))
  | .ilike => .test (.like field true (d.stored value))
  | .between =>
    match value with
    | .array [low, high] => .test (.between field (d.stored low) (d.stored high))
    | _ => .always false
  | .exists => (value.bool?.map fun present => .test (.null field present)).getD (.always false)
  | .regex => .always false

mutual

def ofCondition (d : Dialect) : Condition → Formula FieldTest
  | .leaf field value => ofOperator d field .eq value
  | .operator field op value => ofOperator d field op value
  | .and branches => ofAll d branches
  | .or branches => ofAny d branches
  | .not inner => .not (ofFilter d inner)

def ofFilter (d : Dialect) : List Condition → Formula FieldTest
  | [] => .always true
  | condition :: rest => .and (ofCondition d condition) (ofFilter d rest)

def ofAll (d : Dialect) : List (List Condition) → Formula FieldTest
  | [] => .always true
  | branch :: rest => .and (ofFilter d branch) (ofAll d rest)

def ofAny (d : Dialect) : List (List Condition) → Formula FieldTest
  | [] => .always false
  | branch :: rest => .or (ofFilter d branch) (ofAny d rest)

end

end Meaning

namespace Clause
open Grammar

/-- An OR has branches, and none of them is left out. -/
def KeepsBranches (d : Dialect) (start : Nat) : Condition → Prop
  | .or branches => branches ≠ [] ∧ ∀ branch ∈ branches, ∀ clause,
      ofFilter d branch = .ok clause → clause.text d start ≠ marker
  | _ => True

theorem ofMembers_reads (d : Dialect) (field : String) (negated : Bool) (items : List Value) :
    (ofMembers d field negated items).Reads (Meaning.ofMembers d field negated items) := by
  unfold ofMembers Meaning.ofMembers
  by_cases lists : d.bindsLists
  · simp only [lists, if_true, Bool.not_true, Bool.and_false, Bool.false_eq_true, if_false]
    exact Predicate.reads_inList field negated _
  · cases items with
    | nil =>
      simp only [lists, Bool.false_eq_true, if_false, List.isEmpty_nil, Bool.not_false,
        Bool.and_self, if_true]
      exact Predicate.reads_always negated
    | cons item rest =>
      simp only [lists, Bool.false_eq_true, if_false, List.isEmpty_cons, Bool.false_and]
      exact Predicate.reads_among field negated (by simp)

theorem writes_reads {d : Dialect} {field : String} {op : Operator} {value : Value}
    {p : Predicate} (written : Writes d field op value p) :
    p.Reads (Meaning.ofOperator d field op value) := by
  cases written with
  | isNull | notNull | present => exact Predicate.reads_null field _
  | eq some | ne some =>
    rw [Meaning.ofOperator, some]
    exact Predicate.reads_compare field _ _
  | gt | gte | lt | lte => exact Predicate.reads_compare field _ _
  | isIn | notIn => exact ofMembers_reads d field _ _
  | like => exact Predicate.reads_matching field .like _
  | ilike =>
    cases d.hasCaselessLike with
    | true => exact Predicate.reads_matching field .caseless _
    | false => exact Predicate.reads_matching field .lowered _
  | between => exact Predicate.reads_between field _ _

/-- The predicates of a clause read as tests that together mean a filter. -/
def Means (d : Dialect) (filter : List Condition) (clause : Clause) : Prop :=
  ∃ formulas, List.Forall₂ Predicate.Reads clause formulas ∧
    ∀ σ, (Formula.all formulas).truth σ = (Meaning.ofFilter d filter).truth σ

variable {d : Dialect} {filter : List Condition} {clause : Clause}

theorem means_cons {condition : Condition} {p : Predicate} {f : Formula FieldTest}
    (read : p.Reads f) (same : ∀ σ, f.truth σ = (Meaning.ofCondition d condition).truth σ)
    (later : Means d filter clause) : Means d (condition :: filter) (p :: clause) := by
  obtain ⟨formulas, each, truth⟩ := later
  refine ⟨f :: formulas, .cons read each, fun σ => ?_⟩
  rw [Formula.truth_all_cons, same, truth, Meaning.ofFilter, Formula.truth]

/-- A condition that is left out must hold whatever the tests say. -/
theorem means_omitted {condition : Condition}
    (holds : ∀ σ, (Meaning.ofCondition d condition).truth σ = .true)
    (later : Means d filter clause) : Means d (condition :: filter) clause := by
  obtain ⟨formulas, each, truth⟩ := later
  refine ⟨formulas, each, fun σ => ?_⟩
  rw [truth, Meaning.ofFilter, Formula.truth, holds, Truth.true_and]

theorem means_reads (means : Means d filter clause) :
    ∃ f, clause.Reads f ∧ ∀ σ, f.truth σ = (Meaning.ofFilter d filter).truth σ := by
  obtain ⟨formulas, each, truth⟩ := means
  exact ⟨.all formulas, reads_all each, truth⟩

theorem means_matchesAll (means : Means d filter clause) (every : clause.matchesAll)
    (σ : FieldTest → Truth) : (Meaning.ofFilter d filter).truth σ = .true := by
  obtain ⟨formulas, each, truth⟩ := means
  rw [← truth]
  match clause, each, every with
  | [], .nil, _ => rfl
  | [.always true], .cons first .nil, _ =>
    rw [reads_unique first (Predicate.reads_always true)]
    rfl

theorem means_all {branches : List (List Condition)} {clauses : List Clause}
    (each : List.Forall₂ (Means d) branches clauses) :
    ∃ formulas,
      List.Forall₂ Clause.Reads (clauses.filter fun clause => !clause.matchesAll) formulas ∧
      ∀ σ, (Formula.all formulas).truth σ = (Meaning.ofAll d branches).truth σ := by
  induction each with
  | nil => exact ⟨[], .nil, fun σ => rfl⟩
  | @cons branch clause _ _ first _ ih =>
    obtain ⟨formulas, later, truth⟩ := ih
    cases every : clause.matchesAll with
    | true =>
      refine ⟨formulas, by simpa [every] using later, fun σ => ?_⟩
      rw [truth, Meaning.ofAll, Formula.truth, means_matchesAll first every, Truth.true_and]
    | false =>
      obtain ⟨f, read, same⟩ := means_reads first
      refine ⟨f :: formulas, by simpa [every] using List.Forall₂.cons read later, fun σ => ?_⟩
      rw [Formula.truth_all_cons, same, truth, Meaning.ofAll, Formula.truth]

theorem means_any {branches : List (List Condition)} {clauses : List Clause}
    (each : List.Forall₂ (Means d) branches clauses) :
    ∃ formulas, List.Forall₂ Clause.Reads clauses formulas ∧
      ∀ σ, (Formula.any formulas).truth σ = (Meaning.ofAny d branches).truth σ := by
  induction each with
  | nil => exact ⟨[], .nil, fun σ => rfl⟩
  | cons first _ ih =>
    obtain ⟨formulas, later, truth⟩ := ih
    obtain ⟨f, read, same⟩ := means_reads first
    refine ⟨f :: formulas, .cons read later, fun σ => ?_⟩
    rw [Formula.truth_any_cons, same, truth, Meaning.ofAny, Formula.truth]

theorem grouped_append_means (joiner : Joiner) {condition : Condition} {clauses : List Clause}
    {formulas : List (Formula FieldTest)}
    (each : List.Forall₂ Clause.Reads (clauses.filter fun clause => !clause.matchesAll) formulas)
    (truth : ∀ σ, (joiner.formula formulas).truth σ = (Meaning.ofCondition d condition).truth σ)
    (empty : formulas = [] → joiner = .and) (later : Means d filter clause) :
    Means d (condition :: filter) (grouped joiner clauses ++ clause) := by
  cases survivors : clauses.filter fun clause => !clause.matchesAll with
  | nil =>
    rw [survivors] at each
    cases each
    -- Without survivors nothing is written, which is right for an AND only.
    obtain rfl := empty rfl
    have none : grouped .and clauses = [] := by simp [grouped, survivors]
    rw [none]
    exact means_omitted (fun σ => (truth σ).symm) later
  | cons branch rest =>
    have one : grouped joiner clauses = [.group joiner (branch :: rest)] := by
      simp [grouped, survivors]
    rw [survivors] at each
    rw [one]
    exact means_cons (Predicate.reads_group joiner each (by simp)) truth later

theorem means_branches {start : Nat} {branches : List (List Condition)} {clauses : List Clause}
    (inside : ∀ branch ∈ branches, ∀ c ∈ Filter.nested branch, KeepsBranches d start c)
    (each : List.Forall₂ (fun branch clause =>
      (∀ c ∈ Filter.nested branch, KeepsBranches d start c) → Means d branch clause)
      branches clauses) : List.Forall₂ (Means d) branches clauses := by
  have both := (List.forall₂_and_left branches clauses).mpr ⟨inside, each⟩
  exact both.imp fun _ _ pair => pair.2 pair.1

theorem ofConditions_means {start : Nat} (sql : d.isSql)
    (kept : ∀ c ∈ Filter.nested filter, KeepsBranches d start c)
    (built : ofConditions d filter = .ok clause) : Means d filter clause := by
  refine compiled_induct (motive := fun filter clause =>
    (∀ c ∈ Filter.nested filter, KeepsBranches d start c) → Means d filter clause)
    ?nil ?leaf ?operator ?and ?or ?not built kept
  case nil => exact fun _ => ⟨[], .nil, fun σ => rfl⟩
  case leaf =>
    intro field value rest tail ih kept
    rw [Filter.forall_nested_cons] at kept
    exact means_cons (writes_reads (ofLeaf_writes d field value)) (fun σ => rfl) (ih kept.2)
  case operator =>
    intro field op value p rest tail made ih kept
    rw [Filter.forall_nested_cons] at kept
    exact means_cons (writes_reads (ofOperator_writes made)) (fun σ => rfl) (ih kept.2)
  case and =>
    intro branches clauses rest tail _ each ih kept
    rw [Filter.forall_nested_cons, Filter.forall_nested_and] at kept
    obtain ⟨⟨_, inside⟩, behind⟩ := kept
    obtain ⟨formulas, read, same⟩ := means_all (means_branches inside each)
    exact grouped_append_means .and read same (fun _ => rfl) (ih behind)
  case or =>
    intro branches clauses rest tail compiled each ih kept
    rw [Filter.forall_nested_cons, Filter.forall_nested_or] at kept
    obtain ⟨⟨⟨some, whole⟩, inside⟩, behind⟩ := kept
    obtain ⟨formulas, read, same⟩ := means_any (means_branches inside each)
    -- No branch is the marker, so the group has kept them all.
    have all : (clauses.filter fun clause => !clause.matchesAll) = clauses := by
      rw [List.filter_eq_self]
      intro clause mem
      obtain ⟨branch, inside, built⟩ := Filter.branch_of_compiled compiled mem
      have other := whole branch inside clause (ofFilter_ok.mpr ⟨sql, built⟩)
      rw [Ne, text_eq_marker sql start clause] at other
      simpa using other
    refine grouped_append_means .or (by rwa [all]) same (fun empty => ?_) (ih behind)
    subst empty
    cases read
    cases each
    exact absurd rfl some
  case not =>
    intro inner clause rest tail each ih kept
    rw [Filter.forall_nested_cons, Filter.forall_nested_not] at kept
    obtain ⟨⟨_, inside⟩, behind⟩ := kept
    obtain ⟨f, read, same⟩ := means_reads (each inside)
    refine means_cons (Predicate.reads_not read) (fun σ => ?_) (ih behind)
    rw [Meaning.ofCondition, Formula.truth, Formula.truth, same]

theorem means_text (sql : d.isSql) (means : Means d filter clause) (start : Nat)
    (σ : FieldTest → Truth) :
    (conditionOfText d start (clause.text d start) clause.parameters).map (·.truth σ) =
      some ((Meaning.ofFilter d filter).truth σ) := by
  obtain ⟨f, read, same⟩ := means_reads means
  have bound : Lexeme.bound start clause.parameters 0 (Token.lexemes d start clause.tokens) =
      some (Token.read clause.tokens) :=
    Lexeme.bound_lexemes d start [] clause.tokens
  have whole : Grammar.condition (Token.read clause.tokens) = some f :=
    condition_read (reads_conjunctionAlone read)
  rw [conditionOfText, text_read sql, Option.bind_some, bound, Option.bind_some, whole,
    Option.map_some, same]

/-- The text of a clause, read by the grammar of SQL, is as true as the filter is. -/
theorem text_truth {d : Dialect} {start : Nat} {filter : Filter} {clause : Clause}
    (built : ofFilter d filter = .ok clause)
    (kept : ∀ c ∈ Filter.nested filter, KeepsBranches d start c)
    (σ : FieldTest → Truth) :
    (conditionOfText d start (clause.text d start) clause.parameters).map (·.truth σ) =
      some ((Meaning.ofFilter d filter).truth σ) := by
  obtain ⟨sql, built⟩ := ofFilter_ok.mp built
  exact means_text sql (ofConditions_means sql kept built) start σ

/-- An OR inside a NOT, with numbers from three on. -/
theorem text_truth_nested :
    (conditionOfText .mssql 3 "NOT ((([a] = @p3) OR ([b] IS NOT NULL)))" [.int 1]).map
      (·.truth fun | .null .. => .unknown | _ => .false) =
    some ((Meaning.ofFilter .mssql
      [.not [.or [[.leaf "a" (.int 1)], [.operator "b" .ne .null]]]]).truth
      fun | .null .. => .unknown | _ => .false) := by
  have built : ofFilter .mssql [.not [.or [[.leaf "a" (.int 1)], [.operator "b" .ne .null]]]] =
      .ok [.not [.group .or [[.compare "a" .eq (.int 1)], [.null "b" true]]]] := rfl
  have kept : ∀ c ∈ Filter.nested
      [.not [.or [[.leaf "a" (.int 1)], [.operator "b" .ne .null]]]], KeepsBranches .mssql 3 c := by
    simp only [Filter.nested, Condition.nested, Filter.nestedBranches, List.append_nil,
      List.cons_append, List.nil_append, List.forall_mem_cons, List.not_mem_nil, KeepsBranches,
      true_and, and_true, false_implies, implies_true]
    refine ⟨by simp, ?_, ?_⟩
    · rintro clause ⟨⟩
      decide
    · rintro clause ⟨⟩
      decide
  exact text_truth built kept _

end Clause
end StoreBridge.Sql
