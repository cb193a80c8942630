import StoreBridge.Proofs.Sql.Operands

/-!
Filters compiled in one pass with a counter. The pass writes the text of a clause piece by piece:
it takes the next number for each value that it binds, puts the value behind those bound before,
and tells a branch that holds for every row by its text. It comes to the text and the parameters
of the clause that is built first and written afterwards, and refuses what that refuses, with the
same error.
-/
namespace StoreBridge.Sql
open Token

/-- How far a pass has come: the number of its next parameter and the values that it has bound. -/
structure Progress where
  next : Nat
  bound : List Value
  deriving Repr

abbrev Pass (α : Type) := StateT Progress (Except Error) α

namespace Pass

def refused {α : Type} (cause : CompileError) : Pass α := StateT.lift (refuse cause)

def push (d : Dialect) (value : Value) : Pass String := fun s =>
  .ok (d.placeholder s.next, ⟨s.next + 1, s.bound ++ [value]⟩)

def bind (d : Dialect) (value : Value) : Pass String := push d (d.stored value)

def compare (d : Dialect) (field symbol : String) (value : Value) : Pass String := do
  let p ← bind d value
  pure (d.quoteName field ++ " " ++ symbol ++ " " ++ p)

def leaf (d : Dialect) (field : String) (value : Value) : Pass String :=
  if value.isNull then pure (d.quoteName field ++ " IS NULL") else compare d field "=" value

def members (d : Dialect) (field : String) (negated : Bool) (items : List Value) : Pass String :=
  if d.bindsLists then do
    let p ← push d (.array (d.storedItems items))
    pure (d.quoteName field ++ (if negated then " != ALL(" else " = ANY(") ++ p ++ ")")
  else if items.isEmpty then pure (if negated then "1=1" else "1=0")
  else do
    let placeholders ← items.mapM (bind d)
    pure (d.quoteName field ++ (if negated then " NOT IN (" else " IN (") ++
      String.intercalate ", " placeholders ++ ")")

def expectText (field : String) (op : Operator) : Value → Pass Unit
  | .text _ => pure ()
  | value => refused (.patternNotText op field value.kind)

def operator (d : Dialect) (field : String) (op : Operator) (value : Value) : Pass String :=
  let column := d.quoteName field
  match op with
  | .eq => if value.isNull then pure (column ++ " IS NULL") else compare d field "=" value
  | .ne => if value.isNull then pure (column ++ " IS NOT NULL") else compare d field "!=" value
  | .gt => compare d field ">" value
  | .gte => compare d field ">=" value
  | .lt => compare d field "<" value
  | .lte => compare d field "<=" value
  | .isIn | .notIn =>
    match value.items? with
    | some items => members d field (op == .notIn) items
    | none => refused (.operandNotList op field)
  | .like => do
    expectText field op value
    compare d field "LIKE" value
  | .ilike => do
    expectText field op value
    let p ← bind d value
    pure (if d.hasCaselessLike then column ++ " ILIKE " ++ p
      else "LOWER(" ++ column ++ ") LIKE LOWER(" ++ p ++ ")")
  | .between =>
    match value with
    | .array [low, high] => do
      let low ← bind d low
      let high ← bind d high
      pure (column ++ " BETWEEN " ++ low ++ " AND " ++ high)
    | _ => refused (.boundsNotPair field)
  | .exists =>
    match value.bool? with
    | some true => pure (column ++ " IS NOT NULL")
    | some false => pure (column ++ " IS NULL")
    | none => refused (.flagNotBoolean field)
  | .regex => refused (.noRegex field d)

def conjunction (parts : List String) : String :=
  if parts.isEmpty then Clause.marker else String.intercalate " AND " parts

/-- A branch between parentheses, unless it holds for every row. -/
def enclosed (branch : String) : Option String :=
  if branch = Clause.marker then none else some ("(" ++ branch ++ ")")

def group (joiner : Joiner) (branches : List String) : Option String :=
  if branches.isEmpty then none
  else some ("(" ++ String.intercalate (" " ++ joiner.keyword ++ " ") branches ++ ")")

mutual

def condition (d : Dialect) : Condition → Pass (Option String)
  | .leaf field value => some <$> leaf d field value
  | .operator field op value => some <$> operator d field op value
  | .and branches => group .and <$> survivors d branches
  | .or branches => group .or <$> survivors d branches
  | .not inner => (fun parts => some ("NOT (" ++ conjunction parts ++ ")")) <$> conditions d inner

def conditions (d : Dialect) : List Condition → Pass (List String)
  | [] => pure []
  | first :: rest => do
    let part ← condition d first
    let parts ← conditions d rest
    pure (part.toList ++ parts)

def survivors (d : Dialect) : List (List Condition) → Pass (List String)
  | [] => pure []
  | branch :: rest => do
    let parts ← conditions d branch
    let others ← survivors d rest
    pure ((enclosed (conjunction parts)).toList ++ others)

end

def compile (d : Dialect) (f : Filter) (start : Nat) : Except Error (String × Progress) :=
  if d.isSql then (conjunction <$> conditions d f).run ⟨start, []⟩ else refuse (.noWhereClause d)

end Pass

/-! What tokens add to a pass that writes them. -/

namespace Progress
variable {d : Dialect}

def after (s : Progress) (tokens : List Token) : Progress :=
  ⟨s.next + (parameters tokens).length, s.bound ++ parameters tokens⟩

theorem after_append (s : Progress) (before behind : List Token) :
    s.after (before ++ behind) = (s.after before).after behind := by
  simp [after, parameters_append, Nat.add_assoc]

theorem after_bare (s : Progress) {tokens : List Token} (bare : parameters tokens = []) :
    s.after tokens = s := by
  simp [after, bare]

@[simp] theorem after_nil (s : Progress) : s.after [] = s := s.after_bare rfl

def text (d : Dialect) (s : Progress) (tokens : List Token) : String :=
  String.ofList (render d s.next tokens)

theorem text_append (s : Progress) (before behind : List Token) :
    s.text d (before ++ behind) = s.text d before ++ (s.after before).text d behind := by
  rw [text, render_append, String.ofList_append]
  rfl

/-- The texts of parts, each numbered behind those before it. -/
def texts (d : Dialect) (s : Progress) : List (List Token) → List String
  | [] => []
  | part :: rest => s.text d part :: (s.after part).texts d rest

theorem texts_append (s : Progress) (before behind : List (List Token)) :
    s.texts d (before ++ behind) = s.texts d before ++ (s.after before.flatten).texts d behind := by
  induction before generalizing s with
  | nil => rw [List.flatten_nil, after_nil]; rfl
  | cons part rest ih =>
    rw [List.cons_append, texts, texts, ih, List.flatten_cons, after_append, List.cons_append]

def write (d : Dialect) (s : Progress) (tokens : List Token) : String × Progress :=
  (s.text d tokens, s.after tokens)

def writeEach (d : Dialect) (s : Progress) (parts : List (List Token)) : List String × Progress :=
  (s.texts d parts, s.after parts.flatten)

theorem writeEach_nil (s : Progress) : s.writeEach d [] = ([], s) := by
  rw [writeEach, List.flatten_nil, after_nil]
  rfl

theorem writeEach_singleton (s : Progress) (tokens : List Token) :
    s.writeEach d [tokens] = ([s.text d tokens], s.after tokens) := by
  rw [writeEach, List.flatten_singleton]
  rfl

theorem text_intercalate {between : List Token} {separator : String}
    (bare : parameters between = []) (same : ∀ s : Progress, s.text d between = separator)
    (s : Progress) (parts : List (List Token)) :
    s.text d (List.intercalate between parts) = String.intercalate separator (s.texts d parts) := by
  induction parts generalizing s with
  | nil => rfl
  | cons part rest ih =>
    cases rest with
    | nil => simp [texts]
    | cons next rest =>
      rw [List.intercalate_cons_cons, text_append, text_append, same, after_append,
        after_bare _ bare, ih]
      exact String.intercalate_cons_cons.symm

theorem after_intercalate {between : List Token} (bare : parameters between = []) (s : Progress)
    (parts : List (List Token)) :
    s.after (List.intercalate between parts) = s.after parts.flatten := by
  have values : parameters (List.intercalate between parts) = parameters parts.flatten := by
    rw [parameters, parameters, List.filterMap_flatten]
    exact Pick.values.all_intercalate bare parts
  rw [after, values, after]

theorem text_inParens (s : Progress) (tokens : List Token) :
    s.text d (inParens tokens) = "(" ++ s.text d tokens ++ ")" := by
  rw [text, text, inParens, List.cons_append, render, render_append, String.ofList_append,
    String.ofList_append, String.append_assoc]
  rfl

theorem after_inParens (s : Progress) (tokens : List Token) :
    s.after (inParens tokens) = s.after tokens := by
  have values : parameters (inParens tokens) = parameters tokens := Pick.values.all_inParens tokens
  rw [after, values, after]

theorem text_joined (joiner : Joiner) (s : Progress) (parts : List (List Token)) :
    s.text d (List.intercalate [.space, .word joiner.keyword, .space] parts) =
      String.intercalate (" " ++ joiner.keyword ++ " ") (s.texts d parts) :=
  text_intercalate rfl (fun _ => by cases joiner <;> rfl) s parts

end Progress

namespace Pass
open Progress

variable {α β γ : Type} {d : Dialect}

/-- Wherever it stands, a pass comes to what there is to say of a thing that is made apart from it,
and refuses what that refuses. -/
def Follows (say : Progress → β → α × Progress) (pass : Pass α) (made : Except Error β) : Prop :=
  ∀ s, pass.run s = made.map (say s)

abbrev Writes (d : Dialect) (tokens : β → List Token) : Pass String → Except Error β → Prop :=
  Follows fun s b => s.write d (tokens b)

abbrev WritesEach (d : Dialect) (parts : β → List (List Token)) :
    Pass (List String) → Except Error β → Prop :=
  Follows fun s b => s.writeEach d (parts b)

theorem Follows.map {say : Progress → β → α × Progress} {pass : Pass α} {made : Except Error β}
    (follows : Follows say pass made) {tell : Progress → β → γ × Progress} {f : α → γ}
    (same : ∀ s b, (f (say s b).1, (say s b).2) = tell s b) : Follows tell (f <$> pass) made := by
  intro s
  rw [StateT.run_map, follows]
  cases made with
  | error e => rfl
  | ok b => exact congrArg Except.ok (same s b)

theorem Follows.made {say : Progress → γ → α × Progress} {pass : Pass α} {made : Except Error β}
    {g : β → γ} (follows : Follows (fun s b => say s (g b)) pass made) :
    Follows say pass (made.map g) := by
  intro s
  rw [follows]
  cases made <;> rfl

theorem single_writes {tokens : β → List Token} {pass : Pass String} {made : Except Error β}
    (writes : Writes d tokens pass made) :
    WritesEach d (fun b => [tokens b]) ((fun text => [text]) <$> pass) made :=
  writes.map fun s b => (s.writeEach_singleton (tokens b)).symm

theorem nothing_writes {parts : β → List (List Token)} {b : β} (none : parts b = []) :
    WritesEach d parts (pure []) (.ok b) := by
  intro s
  have still : s.writeEach d (parts b) = ([], s) := by rw [none, writeEach_nil]
  exact congrArg Except.ok still.symm

theorem append_writes {front : α → List (List Token)} {behind : β → List (List Token)}
    {whole : γ → List (List Token)} {join : α → β → γ}
    (joins : ∀ a b, whole (join a b) = front a ++ behind b)
    {first later : Pass (List String)} {made : Except Error α} {others : Except Error β}
    (head : WritesEach d front first made) (tail : WritesEach d behind later others) :
    WritesEach d whole (do
      let parts ← first
      let rest ← later
      pure (parts ++ rest)) (do
      let a ← made
      let b ← others
      .ok (join a b)) := by
  intro s
  rw [StateT.run_bind, head]
  cases made with
  | error e => rfl
  | ok a =>
    let middle := s.after (front a).flatten
    have run := congrArg (fun run => run.map fun found => (s.texts d (front a) ++ found.1, found.2))
      (tail middle)
    cases others with
    | error e => exact run
    | ok b =>
      have text := s.texts_append (d := d) (front a) (behind b)
      have after : middle.after (behind b).flatten = s.after (front a ++ behind b).flatten := by
        rw [List.flatten_append, s.after_append]
      rw [← joins] at text after
      exact run.trans (congrArg Except.ok (Prod.ext text.symm after))

/-! ### Conditions on one field -/

theorem writes_ok {tokens : β → List Token} {pass : Pass String} {b : β}
    (ran : ∀ s, ∃ text, pass.run s = .ok (text, s.after (tokens b)) ∧
      text.toList = render d s.next (tokens b)) : Writes d tokens pass (.ok b) := by
  intro s
  obtain ⟨text, run, same⟩ := ran s
  have whole : text = s.text d (tokens b) := by rw [Progress.text, ← same, String.ofList_toList]
  rw [run, whole]
  rfl

theorem writes_bare {tokens : β → List Token} {text : String} {b : β}
    (bare : parameters (tokens b) = [])
    (same : ∀ index, text.toList = render d index (tokens b)) :
    Writes d tokens (pure text) (.ok b) :=
  writes_ok fun s => ⟨text, by rw [s.after_bare bare]; rfl, same s.next⟩

theorem compare_writes (d : Dialect) (field : String) (comparison : Comparison) (value : Value) :
    Writes d Predicate.tokens (compare d field comparison.symbol value)
      (.ok (.compare field comparison (d.stored value))) :=
  writes_ok fun s => ⟨_, rfl, by simp [Predicate.tokens, render, Token.chars, parameter?]⟩

theorem like_writes (d : Dialect) (field : String) (value : Value) :
    Writes d Predicate.tokens (compare d field "LIKE" value)
      (.ok (.matching field .like (d.stored value))) :=
  writes_ok fun s => ⟨_, rfl, by
    simp [Predicate.tokens, Predicate.matchingTokens, render, Token.chars, parameter?]⟩

theorem null_writes (d : Dialect) (field : String) (negated : Bool) :
    Writes d Predicate.tokens
      (pure (d.quoteName field ++ if negated then " IS NOT NULL" else " IS NULL"))
      (.ok (.null field negated)) := by
  refine writes_bare (by cases negated <;> rfl) fun index => ?_
  cases negated <;> simp [Predicate.tokens, words, render, Token.chars]

theorem leaf_writes (d : Dialect) (field : String) (value : Value) :
    Writes d Predicate.tokens (leaf d field value) (.ok (Clause.ofLeaf d field value)) := by
  cases value with
  | null => exact null_writes d field false
  | _ => exact compare_writes d field .eq _

theorem binds_write (d : Dialect) (items : List Value) :
    WritesEach d (fun operands => operands.map fun operand => [.parameter operand])
      (items.mapM (bind d)) (.ok (items.map d.stored)) := by
  induction items with
  | nil => exact nothing_writes rfl
  | cons item rest ih =>
    have one : Writes d (fun operand => [.parameter operand]) (bind d item) (.ok (d.stored item)) :=
      writes_ok fun s => ⟨_, rfl, by simp [render, Token.chars]⟩
    have joins (value : Value) (rest : List Value) :
        (value :: rest).map (fun operand => [parameter operand]) =
          [[parameter value]] ++ rest.map fun operand => [parameter operand] := rfl
    have both := append_writes joins (single_writes one) ih
    rw [bind_map_left] at both
    rw [List.mapM_cons]
    exact both

theorem among_writes (d : Dialect) (field : String) (negated : Bool) (items : List Value) :
    Writes d Predicate.tokens (do
      let placeholders ← items.mapM (bind d)
      pure (d.quoteName field ++ (if negated then " NOT IN (" else " IN (") ++
        String.intercalate ", " placeholders ++ ")"))
      (.ok (.among field negated (items.map d.stored))) := by
  let front :=
    [.name field, .space] ++ words (if negated then ["NOT", "IN"] else ["IN"]) ++ [.space]
  have bare : parameters front = [] := by cases negated <;> rfl
  have opening (s : Progress) : d.quoteName field ++ (if negated then " NOT IN (" else " IN (") =
      s.text d front ++ "(" := by
    rw [text, ← String.toList_inj]
    cases negated <;> simp [front, words, render, Token.chars]
  rw [bind_pure_comp]
  refine Follows.made ((binds_write d items).map fun s operands => ?_)
  let parts := operands.map fun operand => [Token.parameter operand]
  have tokens : (Predicate.among field negated operands).tokens =
      front ++ inParens (listed parts) := by
    simp [Predicate.tokens, front, parts]
  have text : s.text d (listed parts) = String.intercalate ", " (s.texts d parts) :=
    text_intercalate rfl (fun _ => rfl) s parts
  have after : s.after (listed parts) = s.after parts.flatten := after_intercalate rfl s parts
  rw [tokens, write, text_append, s.after_bare bare, s.after_append, s.after_bare bare,
    text_inParens, after_inParens, text, after, opening s, ← String.append_assoc,
    ← String.append_assoc]
  rfl

theorem members_writes (d : Dialect) (field : String) (negated : Bool) (items : List Value) :
    Writes d Predicate.tokens (members d field negated items)
      (.ok (Clause.ofMembers d field negated items)) := by
  unfold members Clause.ofMembers
  split
  · refine writes_ok fun s => ⟨_, rfl, ?_⟩
    cases negated <;> simp [Predicate.tokens, inParens, render, Token.chars, parameter?]
  · split
    · cases negated <;> exact writes_bare rfl fun _ => rfl
    · exact among_writes d field negated items

theorem lower_writes (d : Dialect) (field : String) (value : Value) :
    Writes d Predicate.tokens (do
      let p ← bind d value
      pure (if d.hasCaselessLike then d.quoteName field ++ " ILIKE " ++ p
        else "LOWER(" ++ d.quoteName field ++ ") LIKE LOWER(" ++ p ++ ")"))
      (.ok (.matching field (if d.hasCaselessLike then .caseless else .lowered)
        (d.stored value))) := by
  cases d.hasCaselessLike <;> refine writes_ok fun s => ⟨_, rfl, ?_⟩ <;>
    simp [Predicate.tokens, Predicate.matchingTokens, inParens, render, Token.chars, parameter?]

theorem between_writes (d : Dialect) (field : String) (low high : Value) :
    Writes d Predicate.tokens (do
      let low ← bind d low
      let high ← bind d high
      pure (d.quoteName field ++ " BETWEEN " ++ low ++ " AND " ++ high))
      (.ok (.between field (d.stored low) (d.stored high))) := by
  refine writes_ok fun s => ?_
  have after : s.after (Predicate.between field (d.stored low) (d.stored high)).tokens =
      (s.after [.parameter (d.stored low)]).after [.parameter (d.stored high)] :=
    s.after_append [.parameter (d.stored low)] [.parameter (d.stored high)]
  rw [after]
  exact ⟨_, rfl, by simp [Predicate.tokens, render, Token.chars, parameter?]⟩

theorem operator_writes (d : Dialect) (field : String) (op : Operator) (value : Value) :
    Writes d Predicate.tokens (operator d field op value) (Clause.ofOperator d field op value) := by
  cases op with
  | eq => cases value with
    | null => exact null_writes d field false
    | _ => exact compare_writes d field .eq _
  | ne => cases value with
    | null => exact null_writes d field true
    | _ => exact compare_writes d field .ne _
  | gt => exact compare_writes d field .gt value
  | gte => exact compare_writes d field .gte value
  | lt => exact compare_writes d field .lt value
  | lte => exact compare_writes d field .lte value
  | isIn => cases value with
    | array items => exact members_writes d field false items
    | _ => exact fun s => rfl
  | notIn => cases value with
    | array items => exact members_writes d field true items
    | _ => exact fun s => rfl
  | like => cases value with
    | text pattern => exact like_writes d field _
    | _ => exact fun s => rfl
  | ilike => cases value with
    | text pattern => exact lower_writes d field _
    | _ => exact fun s => rfl
  | between => cases value with
    | array items => match items with
      | [low, high] => exact between_writes d field low high
      | [] | [_] | _ :: _ :: _ :: _ => exact fun s => rfl
    | _ => exact fun s => rfl
  | «exists» => cases value with
    | bool present => cases present with
      | false => exact null_writes d field false
      | true => exact null_writes d field true
    | _ => exact fun s => rfl
  | regex => exact fun s => rfl

/-! ### Whole filters -/

variable {made : Except Error Clause}

theorem clause_writes {pass : Pass (List String)}
    (writes : WritesEach d Predicate.clauseTokens pass made) :
    Writes d Clause.tokens (conjunction <$> pass) made := by
  refine writes.map fun s clause => ?_
  cases clause with
  | nil => rfl
  | cons p rest =>
    have text := s.text_joined (d := d) .and (Predicate.clauseTokens (p :: rest))
    exact Prod.ext text.symm (after_intercalate rfl s _).symm

theorem negated_writes {pass : Pass String} (writes : Writes d Clause.tokens pass made) :
    Writes d (fun clause => (Predicate.not clause).tokens)
      ((fun text => "NOT (" ++ text ++ ")") <$> pass) made := by
  refine writes.map fun s clause => ?_
  have bare : parameters [.word "NOT", .space] = [] := rfl
  show ("NOT (" ++ s.text d clause.tokens ++ ")", s.after clause.tokens) =
    s.write d ([.word "NOT", .space] ++ inParens clause.tokens)
  rw [write, text_append, s.after_append, s.after_bare bare, text_inParens, after_inParens,
    ← String.append_assoc, ← String.append_assoc]
  rfl

theorem clauseTokens_append (front behind : Clause) :
    Predicate.clauseTokens (front ++ behind) =
      Predicate.clauseTokens front ++ Predicate.clauseTokens behind := by
  induction front with
  | nil => rfl
  | cons p rest ih => exact congrArg (p.tokens :: ·) ih

def branchesLeft (clauses : List Clause) : List (List Token) :=
  Predicate.branchTokens (clauses.filter fun clause => !Clause.matchesAll clause)

theorem branchesLeft_cons (clause : Clause) (rest : List Clause) :
    branchesLeft (clause :: rest) = branchesLeft [clause] ++ branchesLeft rest := by
  by_cases every : Clause.matchesAll clause <;> simp [branchesLeft, every, Predicate.branchTokens]

theorem group_writes (joiner : Joiner) {pass : Pass (List String)}
    {made : Except Error (List Clause)} (writes : WritesEach d branchesLeft pass made) :
    WritesEach d Predicate.clauseTokens ((fun branches => (group joiner branches).toList) <$> pass)
      (made.map (Clause.grouped joiner)) := by
  refine Follows.made (writes.map fun s clauses => ?_)
  simp only [branchesLeft, Clause.grouped]
  cases clauses.filter fun clause => !Clause.matchesAll clause with
  | nil => rfl
  | cons clause rest =>
    let parts := Predicate.branchTokens (clause :: rest)
    let inside := List.intercalate [.space, .word joiner.keyword, .space] parts
    have tokens : Predicate.clauseTokens [.group joiner (clause :: rest)] = [inParens inside] := rfl
    have after : s.after inside = s.after parts.flatten := after_intercalate rfl s parts
    simp only [List.isEmpty_cons, Bool.false_eq_true, if_false]
    rw [tokens, writeEach_singleton, text_inParens, after_inParens, text_joined, after]
    rfl

/-- A branch is left out by its text where its clause is left out. -/
theorem enclosed_writes (sql : d.isSql) {pass : Pass String}
    (writes : Writes d Clause.tokens pass made) :
    WritesEach d (fun clause => branchesLeft [clause])
      ((fun text => (enclosed text).toList) <$> pass) made := by
  refine writes.map fun s clause => ?_
  have known : s.text d clause.tokens = Clause.marker ↔ clause.matchesAll :=
    Clause.text_eq_marker sql s.next clause
  simp only [write]
  by_cases every : Clause.matchesAll clause
  · have left : branchesLeft [clause] = [] := by simp [branchesLeft, every, Predicate.branchTokens]
    have bare : parameters clause.tokens = [] := Clause.matchesAll_parameters every
    rw [left, enclosed, if_pos (known.mpr every), s.after_bare bare, writeEach_nil]
    rfl
  · have left : branchesLeft [clause] = [inParens clause.tokens] := by
      simp [branchesLeft, every, Predicate.branchTokens, Clause.tokens]
    rw [left, enclosed, if_neg (mt known.mp every), writeEach_singleton, text_inParens,
      after_inParens]
    rfl

theorem cons_writes {first : Condition} {rest : List Condition}
    (head : WritesEach d Predicate.clauseTokens (Option.toList <$> condition d first)
      (Clause.ofCondition d first))
    (tail : WritesEach d Predicate.clauseTokens (conditions d rest) (Clause.ofConditions d rest)) :
    WritesEach d Predicate.clauseTokens (conditions d (first :: rest))
      (Clause.ofConditions d (first :: rest)) := by
  have both := append_writes clauseTokens_append head tail
  rw [bind_map_left] at both
  rw [conditions, Clause.ofConditions]
  exact both

theorem survivors_write (sql : d.isSql) {branches : List (List Condition)}
    (each : ∀ branch ∈ branches, WritesEach d Predicate.clauseTokens (conditions d branch)
      (Clause.ofConditions d branch)) :
    WritesEach d branchesLeft (survivors d branches) (Clause.ofBranches d branches) := by
  induction branches with
  | nil => exact nothing_writes rfl
  | cons branch rest ih =>
    obtain ⟨first, others⟩ := List.forall_mem_cons.mp each
    have both := append_writes branchesLeft_cons (enclosed_writes sql (clause_writes first))
      (ih others)
    rw [bind_map_left, bind_map_left] at both
    rw [survivors, Clause.ofBranches]
    exact both

theorem conditions_write (sql : d.isSql) (filter : List Condition) :
    WritesEach d Predicate.clauseTokens (conditions d filter) (Clause.ofConditions d filter) := by
  induction filter using Filter.induct with
  | nil => exact nothing_writes rfl
  | leaf field value rest ih =>
    refine cons_writes ?_ ih
    rw [condition, ← comp_map]
    exact single_writes (leaf_writes d field value)
  | operator field op value rest ih =>
    refine cons_writes ?_ ih
    rw [condition, ← comp_map, Clause.ofCondition]
    exact Follows.made (single_writes (operator_writes d field op value))
  | and branches rest each ih =>
    refine cons_writes ?_ ih
    rw [condition, ← comp_map, Clause.ofCondition]
    exact group_writes .and (survivors_write sql each)
  | or branches rest each ih =>
    refine cons_writes ?_ ih
    rw [condition, ← comp_map, Clause.ofCondition]
    exact group_writes .or (survivors_write sql each)
  | not inner rest each ih =>
    refine cons_writes ?_ ih
    have one := single_writes (negated_writes (clause_writes each))
    rw [← comp_map, ← comp_map] at one
    rw [condition, ← comp_map, Clause.ofCondition]
    exact Follows.made one

theorem compile_written (d : Dialect) (f : Filter) (start : Nat) :
    compile d f start = (Clause.ofFilter d f).map fun clause =>
      (clause.text d start, ⟨start + clause.parameters.length, clause.parameters⟩) := by
  unfold compile Clause.ofFilter
  split
  · rename_i sql
    rw [clause_writes (conditions_write sql f)]
    cases Clause.ofConditions d f <;> rfl
  · rfl

example : (compile .mysql [.or [[.operator "a" .notIn (.array [])],
    [.leaf "b" (.text "x"), .not [.leaf "c" .null]]]] 1).toOption.map Prod.fst =
      some "((\x60b\x60 = ? AND NOT (\x60c\x60 IS NULL)))" := by
  decide +kernel

end Pass

end StoreBridge.Sql
