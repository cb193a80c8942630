import StoreBridge.Proofs.Sql.Picked

/-!
The operands of a filter, and the parameters of the clause that it is compiled to. They are the
same list, for a predicate binds what its question has for an operand.
-/
namespace StoreBridge.Sql

namespace Operands

/-- What an operator binds. A test for null binds nothing, and neither does an empty list where
    the items are bound one by one. -/
def ofOperator (d : Dialect) (op : Operator) (value : Value) : List Value :=
  match op with
  | .eq | .ne => if value.isNull then [] else [d.stored value]
  | .gt | .gte | .lt | .lte | .like | .ilike => [d.stored value]
  | .isIn | .notIn =>
    match value with
    | .array items =>
      if d = .postgres then [.array (items.map d.stored)] else items.map d.stored
    | _ => []
  | .between =>
    match value with
    | .array bounds => bounds.map d.stored
    | _ => []
  | .exists | .regex => []

mutual

def ofCondition (d : Dialect) : Condition → List Value
  | .leaf _ value => ofOperator d .eq value
  | .operator _ op value => ofOperator d op value
  | .and branches | .or branches => ofBranches d branches
  | .not inner => ofFilter d inner

def ofFilter (d : Dialect) : List Condition → List Value
  | [] => []
  | condition :: rest => ofCondition d condition ++ ofFilter d rest

def ofBranches (d : Dialect) : List (List Condition) → List Value
  | [] => []
  | branch :: rest => ofFilter d branch ++ ofBranches d rest

end

variable {d : Dialect}

theorem ofBranches_eq (branches : List (List Condition)) :
    ofBranches d branches = branches.flatMap (ofFilter d) := by
  induction branches with
  | nil => rfl
  | cons branch rest ih => rw [ofBranches, List.flatMap_cons, ih]

theorem ofFilter_questions (filter : List Condition) :
    ofFilter d filter = (Filter.questions filter).flatMap fun q => ofOperator d q.op q.value := by
  induction filter using Filter.induct with
  | nil => rfl
  | leaf field value rest ih | operator field op value rest ih =>
    rw [ofFilter, ih, Filter.questions, List.flatMap_append]
    simp [ofCondition, Condition.questions]
  | and branches rest each ih | or branches rest each ih =>
    rw [ofFilter, ih, Filter.questions, List.flatMap_append, ofCondition, Condition.questions,
      ofBranches_eq, Filter.branchQuestions_eq, List.flatMap_assoc, List.flatMap_congr each]
  | not inner rest each ih =>
    rw [ofFilter, ih, Filter.questions, List.flatMap_append, ofCondition, each]
    rfl

end Operands

def Token.Pick.values : Pick Value where
  of := parameter?
  word _ := rfl
  symbol _ := rfl
  number _ := rfl
  space := rfl

namespace Clause
variable {d : Dialect}

theorem ofMembers_parameters (field : String) (negated : Bool) (items : List Value) :
    Token.parameters (ofMembers d field negated items).tokens =
      if d = .postgres then [.array (items.map d.stored)] else items.map d.stored := by
  by_cases postgres : d = .postgres
  · subst postgres
    cases negated <;> rfl
  · have one : d.bindsLists = false := by cases d <;> simp_all +decide
    simp only [ofMembers, one, Bool.false_eq_true, if_false, postgres]
    cases items with
    | nil => cases negated <;> rfl
    | cons item rest =>
      exact (Token.Pick.values.all_among field negated _).trans List.filterMap_some

theorem writes_parameters {field : String} {op : Operator} {value : Value} {p : Predicate}
    (written : Writes d field op value p) :
    Token.parameters p.tokens = Operands.ofOperator d op value := by
  cases written with
  | isNull | notNull => rfl
  | present flag => cases flag <;> rfl
  | eq some | ne some =>
    rw [Operands.ofOperator, some]
    rfl
  | gt | gte | lt | lte | like | between => rfl
  | isIn items | notIn items => exact ofMembers_parameters field _ items
  | ilike => cases d.hasCaselessLike <;> rfl

theorem matchesAll_parameters {c : Clause} (every : c.matchesAll) : parameters c = [] :=
  Token.Pick.values.inClause_matchesAll every

theorem ofConditions_parameters {filter : List Condition} {clause : Clause}
    (built : ofConditions d filter = .ok clause) :
    clause.parameters = Operands.ofFilter d filter := by
  rw [Operands.ofFilter_questions]
  exact Token.Pick.values.inClause_ofConditions writes_parameters built

end Clause
end StoreBridge.Sql
