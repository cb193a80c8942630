import Mathlib.Data.List.Forall2
import StoreBridge.Proofs.Filter.Nested
import StoreBridge.Sql.Clause

/-!
What compiling a filter can do. The induction over compiled filters follows the filter: each
condition adds its predicates in front of those of the rest, and a combination adds one group of
the clauses of its branches or nothing. The text of a clause is the marker exactly where the
clause counts as one that holds for every row.
-/
namespace StoreBridge.Sql.Clause

/-- The predicate of an operator with an operand that it accepts. -/
inductive Writes (d : Dialect) (field : String) : Operator → Value → Predicate → Prop where
  | isNull : Writes d field .eq .null (.null field false)
  | notNull : Writes d field .ne .null (.null field true)
  | eq {value : Value} (some : value.isNull = false) :
    Writes d field .eq value (.compare field .eq (d.stored value))
  | ne {value : Value} (some : value.isNull = false) :
    Writes d field .ne value (.compare field .ne (d.stored value))
  | gt (value : Value) : Writes d field .gt value (.compare field .gt (d.stored value))
  | gte (value : Value) : Writes d field .gte value (.compare field .gte (d.stored value))
  | lt (value : Value) : Writes d field .lt value (.compare field .lt (d.stored value))
  | lte (value : Value) : Writes d field .lte value (.compare field .lte (d.stored value))
  | isIn (items : List Value) : Writes d field .isIn (.array items) (ofMembers d field false items)
  | notIn (items : List Value) : Writes d field .notIn (.array items) (ofMembers d field true items)
  | like (pattern : String) :
    Writes d field .like (.text pattern) (.matching field .like (d.stored (.text pattern)))
  | ilike (pattern : String) :
    Writes d field .ilike (.text pattern)
      (.matching field (if d.hasCaselessLike then .caseless else .lowered)
        (d.stored (.text pattern)))
  | between (low high : Value) :
    Writes d field .between (.array [low, high]) (.between field (d.stored low) (d.stored high))
  | present (flag : Bool) : Writes d field .exists (.bool flag) (.null field flag)

theorem ofLeaf_writes (d : Dialect) (field : String) (value : Value) :
    Writes d field .eq value (ofLeaf d field value) := by
  cases value with
  | null => exact .isNull
  | _ => exact .eq rfl

theorem ofOperator_writes {d : Dialect} {field : String} {op : Operator} {value : Value}
    {p : Predicate} (built : ofOperator d field op value = .ok p) : Writes d field op value p := by
  cases op with
  | eq =>
    cases value with
    | null => cases built; exact .isNull
    | _ => cases built; exact .eq rfl
  | ne =>
    cases value with
    | null => cases built; exact .notNull
    | _ => cases built; exact .ne rfl
  | gt => cases built; exact .gt value
  | gte => cases built; exact .gte value
  | lt => cases built; exact .lt value
  | lte => cases built; exact .lte value
  | isIn =>
    cases value <;> cases built
    exact .isIn _
  | notIn =>
    cases value <;> cases built
    exact .notIn _
  | like =>
    cases value <;> cases built
    exact .like _
  | ilike =>
    cases value <;> cases built
    exact .ilike _
  | between =>
    simp only [ofOperator] at built
    split at built
    · cases built
      exact .between _ _
    · cases built
  | «exists» =>
    cases value <;> cases built
    exact .present _
  | regex => cases built

theorem writes_ofOperator {d : Dialect} {field : String} {op : Operator} {value : Value}
    {p : Predicate} (written : Writes d field op value p) :
    ofOperator d field op value = .ok p := by
  cases written with
  | eq some | ne some =>
    rw [ofOperator, some]
    rfl
  | _ => rfl

abbrev Compiled (d : Dialect) : List (List Condition) → List Clause → Prop :=
  List.Forall₂ fun branch clause => ofConditions d branch = .ok clause

theorem ofBranches_compiled {d : Dialect} {branches : List (List Condition)}
    {clauses : List Clause} (built : ofBranches d branches = .ok clauses) :
    Compiled d branches clauses := by
  induction branches generalizing clauses with
  | nil =>
    simp only [ofBranches, Except.ok.injEq] at built
    subst built
    exact .nil
  | cons branch rest ih =>
    rw [ofBranches] at built
    cases first : ofConditions d branch with
    | error e => simp [first, bind, Except.bind] at built
    | ok clause =>
      cases later : ofBranches d rest with
      | error e => simp [first, later, bind, Except.bind] at built
      | ok tail =>
        simp only [first, later, bind, Except.bind, Except.ok.injEq] at built
        subst built
        exact .cons first (ih later)

theorem ofConditions_split {d : Dialect} {condition : Condition} {rest : List Condition}
    {clause : Clause} (built : ofConditions d (condition :: rest) = .ok clause) :
    ∃ first tail, ofCondition d condition = .ok first ∧ ofConditions d rest = .ok tail ∧
      clause = first ++ tail := by
  rw [ofConditions] at built
  cases first : ofCondition d condition with
  | error e => simp [first, bind, Except.bind] at built
  | ok predicates =>
    cases later : ofConditions d rest with
    | error e => simp [first, later, bind, Except.bind] at built
    | ok tail =>
      simp only [first, later, bind, Except.bind, Except.ok.injEq] at built
      exact ⟨predicates, tail, rfl, rfl, built.symm⟩

theorem compiled_induct {d : Dialect} {motive : List Condition → Clause → Prop}
    (nil : motive [] [])
    (leaf : ∀ field value rest tail, motive rest tail →
      motive (.leaf field value :: rest) (ofLeaf d field value :: tail))
    (operator : ∀ field op value predicate rest tail,
      ofOperator d field op value = .ok predicate → motive rest tail →
      motive (.operator field op value :: rest) (predicate :: tail))
    (and : ∀ branches clauses rest tail, Compiled d branches clauses →
      List.Forall₂ motive branches clauses → motive rest tail →
      motive (.and branches :: rest) (grouped .and clauses ++ tail))
    (or : ∀ branches clauses rest tail, Compiled d branches clauses →
      List.Forall₂ motive branches clauses → motive rest tail →
      motive (.or branches :: rest) (grouped .or clauses ++ tail))
    (not : ∀ inner clause rest tail, motive inner clause → motive rest tail →
      motive (.not inner :: rest) (.not clause :: tail))
    {filter : List Condition} {clause : Clause} (built : ofConditions d filter = .ok clause) :
    motive filter clause := by
  have lift {branches : List (List Condition)} {clauses : List Clause}
      (each : ∀ branch ∈ branches, ∀ {clause}, ofConditions d branch = .ok clause →
        motive branch clause)
      (compiled : Compiled d branches clauses) : List.Forall₂ motive branches clauses := by
    induction compiled with
    | nil => exact .nil
    | cons first _ ih =>
      exact .cons (each _ (by simp) first) (ih fun branch mem => each branch (by simp [mem]))
  induction filter using Filter.induct generalizing clause with
  | nil =>
    simp only [ofConditions, Except.ok.injEq] at built
    subst built
    exact nil
  | leaf field value rest ih =>
    obtain ⟨first, tail, head, later, rfl⟩ := ofConditions_split built
    simp only [ofCondition, Except.ok.injEq] at head
    subst head
    exact leaf field value rest tail (ih later)
  | operator field op value rest ih =>
    obtain ⟨first, tail, head, later, rfl⟩ := ofConditions_split built
    rw [ofCondition] at head
    cases made : ofOperator d field op value with
    | error e => simp [made, Except.map] at head
    | ok predicate =>
      simp only [made, Except.map, Except.ok.injEq] at head
      subst head
      exact operator field op value predicate rest tail made (ih later)
  | and branches rest each ih =>
    obtain ⟨first, tail, head, later, rfl⟩ := ofConditions_split built
    rw [ofCondition] at head
    cases made : ofBranches d branches with
    | error e => simp [made, Except.map] at head
    | ok clauses =>
      simp only [made, Except.map, Except.ok.injEq] at head
      subst head
      have compiled := ofBranches_compiled made
      exact and branches clauses rest tail compiled (lift each compiled) (ih later)
  | or branches rest each ih =>
    obtain ⟨first, tail, head, later, rfl⟩ := ofConditions_split built
    rw [ofCondition] at head
    cases made : ofBranches d branches with
    | error e => simp [made, Except.map] at head
    | ok clauses =>
      simp only [made, Except.map, Except.ok.injEq] at head
      subst head
      have compiled := ofBranches_compiled made
      exact or branches clauses rest tail compiled (lift each compiled) (ih later)
  | not inner rest each ih =>
    obtain ⟨first, tail, head, later, rfl⟩ := ofConditions_split built
    rw [ofCondition] at head
    cases made : ofConditions d inner with
    | error e => simp [made, Except.map] at head
    | ok clause =>
      simp only [made, Except.map, Except.ok.injEq] at head
      subst head
      exact not inner clause rest tail (each made) (ih later)

theorem ofFilter_ok {d : Dialect} {filter : Filter} {clause : Clause} :
    ofFilter d filter = .ok clause ↔ d.isSql ∧ ofConditions d filter = .ok clause := by
  unfold ofFilter
  split
  · simp_all
  · simp_all [refuse]

theorem matchesAll_cons {p : Predicate} {tail : Clause} :
    matchesAll (p :: tail) ↔ p = .always true ∧ tail = [] := by
  constructor
  · intro every
    match p, tail, every with
    | .always true, [], _ => exact ⟨rfl, rfl⟩
  · rintro ⟨rfl, rfl⟩
    rfl

/-- The text of a clause that holds for every row. -/
def marker : String := "1=1"

theorem render_tokens_head {d : Dialect} (sql : d.isSql) (index : Nat) {p : Predicate}
    (tests : ∀ holds, p ≠ .always holds) (rest : List Token) :
    ∃ c cs, Token.render d index (p.tokens ++ rest) = c :: cs ∧ c ≠ '1' := by
  have quote (column : String) (behind : List Token) :
      ∃ c cs, Token.render d index (.name column :: behind) = c :: cs ∧ c ≠ '1' := by
    have written : (d.quoteName column).toList =
        d.quotes.1 :: (Dialect.doubleClosing d.quotes.2 column.toList ++ [d.quotes.2]) := by
      simp [Dialect.quoteName, sql]
    have other : d.quotes.1 ≠ '1' := by cases d <;> decide
    rw [Token.render, Token.chars, written]
    exact ⟨_, _, rfl, other⟩
  cases p with
  | always holds => exact absurd rfl (tests holds)
  | null | compare | among | inList | between => exact quote _ _
  | matching column test pattern =>
    cases test with
    | like | caseless => exact quote _ _
    | lowered => exact ⟨'L', _, rfl, by decide⟩
  | group joiner branches => exact ⟨'(', _, by rw [Predicate.tokens]; rfl, by decide⟩
  | not inner => exact ⟨'N', _, by rw [Predicate.tokens]; rfl, by decide⟩

/-- The text is the marker exactly where the clause counts as one that holds for every row. -/
theorem text_eq_marker {d : Dialect} (sql : d.isSql) (index : Nat) (c : Clause) :
    c.text d index = marker ↔ c.matchesAll := by
  have chars : c.text d index = marker ↔ Token.render d index c.tokens = ['1', '=', '1'] := by
    rw [text, ← String.toList_inj, String.toList_ofList]
    rfl
  rw [chars]
  cases c with
  | nil => exact ⟨fun _ => rfl, fun _ => rfl⟩
  | cons p rest =>
    by_cases constant : ∃ holds, p = .always holds
    · obtain ⟨holds, rfl⟩ := constant
      cases rest with
      | nil => cases holds <;> simp [tokens, Predicate.clauseTokens, Predicate.conjoined,
          Predicate.tokens, Predicate.constant, Token.render, Token.chars, matchesAll]
      | cons next rest =>
        simp only [tokens, Predicate.clauseTokens, Predicate.conjoined, Predicate.tokens,
          Predicate.constant, List.isEmpty_cons, List.intercalate_cons_cons]
        cases holds <;> simp [Token.render, Token.chars, matchesAll]
    · have tests : ∀ holds, p ≠ .always holds := fun holds same => constant ⟨holds, same⟩
      have other : ¬matchesAll (p :: rest) := by
        cases p with
        | always holds => exact absurd rfl (tests holds)
        | _ => simp [matchesAll]
      have first : ∃ tail, tokens (p :: rest) = p.tokens ++ tail := by
        cases rest with
        | nil => exact ⟨[], by simp [tokens, Predicate.clauseTokens, Predicate.conjoined]⟩
        | cons next rest =>
          refine ⟨[.space, .word "AND", .space] ++ tokens (next :: rest), ?_⟩
          simp [tokens, Predicate.clauseTokens, Predicate.conjoined, List.intercalate_cons_cons]
      obtain ⟨tail, whole⟩ := first
      obtain ⟨c, cs, written, letter⟩ := render_tokens_head sql index tests tail
      rw [whole, written]
      simp [letter, other]

end StoreBridge.Sql.Clause
