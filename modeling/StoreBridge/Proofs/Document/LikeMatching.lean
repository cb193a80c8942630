import Mathlib.Data.List.Infix
import StoreBridge.Proofs.Document.Expressions
import StoreBridge.Proofs.Document.Reading

/-!
What the expression of a LIKE pattern matches. The store searches a text for the expression: a
point takes any character but a line break, and the end of the text may stand before a last line
break. So the expression matches just the texts that are like the pattern with wildcards that take
no line break, and those texts with one more line break behind them. Where a text has no line
break, that is LIKE itself.
-/
namespace StoreBridge.LikePattern
variable {fold : Char → Char} {takes : Char → Prop}

/-- Texts that are like a pattern: `%` stands for any run, `_` for any one character, and any other
    character for itself, where characters that fold to the same one are not told apart. The
    wildcards stand for such characters only as they take. -/
inductive Like (fold : Char → Char) (takes : Char → Prop) : List Char → List Char → Prop where
  | done : Like fold takes [] []
  | run {pattern taken rest : List Char} (each : ∀ x ∈ taken, takes x)
      (later : Like fold takes pattern rest) : Like fold takes ('%' :: pattern) (taken ++ rest)
  | one {pattern rest : List Char} {x : Char} (each : takes x)
      (later : Like fold takes pattern rest) : Like fold takes ('_' :: pattern) (x :: rest)
  | literal {pattern rest : List Char} {c x : Char} (run : c ≠ '%') (one : c ≠ '_')
      (same : fold x = fold c) (later : Like fold takes pattern rest) :
      Like fold takes (c :: pattern) (x :: rest)

/-! The store's search. -/

def behindRuns : List Char → List (List Char)
  | [] => [[]]
  | x :: rest => (x :: rest) :: if x = '\n' then [] else behindRuns rest

/-- Whether tokens match from one place of a text on. The text has so many characters, and the
    rest of it begins at the place. -/
def matchesAt (fold : Char → Char) (size : Nat) : List RegexToken → List Char → Bool
  | [], _ => true
  | .start :: tokens, rest => rest.length == size && matchesAt fold size tokens rest
  | .stop :: tokens, rest => (rest == [] || rest == ['\n']) && matchesAt fold size tokens rest
  | .anyRun :: tokens, rest => (behindRuns rest).any (matchesAt fold size tokens)
  | .anyChar :: tokens, x :: rest => x != '\n' && matchesAt fold size tokens rest
  | .literal c :: tokens, x :: rest => fold x == fold c && matchesAt fold size tokens rest
  | .anyChar :: _, [] | .literal _ :: _, [] => false

def found (fold : Char → Char) (tokens : List RegexToken) (text : List Char) : Bool :=
  text.tails.any (matchesAt fold text.length tokens)

/-- Whether a stored text passes a pattern test. Of the options there is `i`, which asks for no
    difference between characters that fold to the same one. -/
def passes (fold : Char → Char) (text : String) : StoredTest → Bool
  | .pattern _ (.string regex) options =>
    match readTokens regex.toList, options with
    | some tokens, some (.string "i") => found fold tokens text.toList
    | some tokens, none => found id tokens text.toList
    | _, _ => false
  | _ => false

theorem mem_behindRuns {rest text : List Char} :
    rest ∈ behindRuns text ↔ ∃ taken, text = taken ++ rest ∧ ∀ x ∈ taken, x ≠ '\n' := by
  induction text with
  | nil =>
    simp only [behindRuns, List.mem_singleton, List.nil_eq_append_iff]
    constructor
    · intro same
      exact ⟨[], ⟨rfl, same⟩, by simp⟩
    · intro ⟨_, ⟨_, same⟩, _⟩
      exact same
  | cons x text ih =>
    simp only [behindRuns, List.mem_cons]
    constructor
    · intro mem
      rcases mem with whole | later
      · exact ⟨[], whole.symm, by simp⟩
      · split at later
        · cases later
        · rename_i other
          obtain ⟨taken, same, each⟩ := ih.mp later
          exact ⟨x :: taken, by rw [same]; rfl, by simpa [other] using each⟩
    · intro ⟨taken, same, each⟩
      cases taken with
      | nil => exact .inl same.symm
      | cons first taken =>
        obtain ⟨rfl, behind⟩ := List.cons.inj same
        rw [List.forall_mem_cons] at each
        rw [if_neg each.1]
        exact .inr (ih.mpr ⟨taken, behind, each.2⟩)

theorem found_start (tokens : List RegexToken) (text : List Char) :
    found fold (.start :: tokens) text = matchesAt fold text.length tokens text := by
  rw [Bool.eq_iff_iff, found, List.any_eq_true]
  constructor
  · intro ⟨rest, mem, matched⟩
    simp only [matchesAt, Bool.and_eq_true, beq_iff_eq] at matched
    have whole : rest = text := ((List.mem_tails rest text).mp mem).eq_of_length matched.1
    rw [whole] at matched
    exact matched.2
  · intro matched
    refine ⟨text, (List.mem_tails text text).mpr (List.suffix_refl text), ?_⟩
    simpa [matchesAt] using matched

/-! Patterns. -/

def EndsLine (text line : List Char) : Prop := text = line ∨ text = line ++ ['\n']

theorem endsLine_append {text line : List Char} (front : List Char) (ends : EndsLine text line) :
    EndsLine (front ++ text) (front ++ line) := by
  rcases ends with same | same
  · exact .inl (by rw [same])
  · exact .inr (by rw [same, List.append_assoc])

theorem endsLine_split {text front behind : List Char} (ends : EndsLine text (front ++ behind)) :
    ∃ rest, text = front ++ rest ∧ EndsLine rest behind := by
  rcases ends with same | same
  · exact ⟨behind, same, .inl rfl⟩
  · exact ⟨behind ++ ['\n'], by rw [same, List.append_assoc], .inr rfl⟩

def LikeLine (fold : Char → Char) (pattern text : List Char) : Prop :=
  ∃ line, EndsLine text line ∧ Like fold (· ≠ '\n') pattern line

theorem likeLine_nil {text : List Char} :
    LikeLine fold [] text ↔ text = [] ∨ text = ['\n'] := by
  constructor
  · intro ⟨line, ends, like⟩
    cases like
    exact ends
  · intro ends
    exact ⟨[], ends, .done⟩

theorem likeLine_run {pattern text : List Char} :
    LikeLine fold ('%' :: pattern) text ↔
      ∃ rest ∈ behindRuns text, LikeLine fold pattern rest := by
  constructor
  · intro ⟨line, ends, like⟩
    cases like with
    | run each later =>
      obtain ⟨rest, same, behind⟩ := endsLine_split ends
      exact ⟨rest, mem_behindRuns.mpr ⟨_, same, each⟩, _, behind, later⟩
    | literal run _ _ _ => exact absurd rfl run
  · intro ⟨rest, mem, line, ends, like⟩
    obtain ⟨taken, same, each⟩ := mem_behindRuns.mp mem
    refine ⟨taken ++ line, ?_, .run each like⟩
    rw [same]
    exact endsLine_append taken ends

theorem likeLine_cons {c : Char} {pattern text : List Char} {stands : Char → Prop}
    (one : ∀ line, Like fold (· ≠ '\n') (c :: pattern) line ↔
      ∃ x rest, line = x :: rest ∧ stands x ∧ Like fold (· ≠ '\n') pattern rest) :
    LikeLine fold (c :: pattern) text ↔
      ∃ x rest, text = x :: rest ∧ stands x ∧ LikeLine fold pattern rest := by
  constructor
  · intro ⟨line, ends, like⟩
    obtain ⟨x, behind, rfl, first, later⟩ := (one line).mp like
    have front : EndsLine text ([x] ++ behind) := ends
    obtain ⟨rest, same, last⟩ := endsLine_split front
    exact ⟨x, rest, same, first, behind, last, later⟩
  · intro ⟨x, rest, same, first, line, ends, like⟩
    refine ⟨x :: line, ?_, (one _).mpr ⟨x, line, rfl, first, like⟩⟩
    rw [same]
    exact endsLine_append [x] ends

theorem like_one {pattern text : List Char} :
    Like fold takes ('_' :: pattern) text ↔
      ∃ x rest, text = x :: rest ∧ takes x ∧ Like fold takes pattern rest := by
  constructor
  · intro like
    cases like with
    | one each later => exact ⟨_, _, rfl, each, later⟩
    | literal _ one _ _ => exact absurd rfl one
  · intro ⟨x, rest, same, each, later⟩
    rw [same]
    exact .one each later

theorem like_literal {c : Char} {pattern text : List Char} (run : c ≠ '%') (one : c ≠ '_') :
    Like fold takes (c :: pattern) text ↔
      ∃ x rest, text = x :: rest ∧ fold x = fold c ∧ Like fold takes pattern rest := by
  constructor
  · intro like
    cases like with
    | run => exact absurd rfl run
    | one => exact absurd rfl one
    | literal _ _ same later => exact ⟨_, _, rfl, same, later⟩
  · intro ⟨x, rest, text, same, later⟩
    rw [text]
    exact .literal run one same later

theorem matchesAt_pattern (fold : Char → Char) (size : Nat) (pattern text : List Char) :
    matchesAt fold size (pattern.map tokenOf ++ [.stop]) text ↔ LikeLine fold pattern text := by
  induction pattern generalizing text with
  | nil => simp [matchesAt, likeLine_nil]
  | cons c pattern ih =>
    rw [List.map_cons, List.cons_append]
    by_cases run : c = '%'
    · subst run
      have token : tokenOf '%' = .anyRun := rfl
      simp only [token, matchesAt, List.any_eq_true, ih, likeLine_run]
    · by_cases one : c = '_'
      · subst one
        have token : tokenOf '_' = .anyChar := rfl
        rw [token, likeLine_cons fun _ => like_one]
        cases text <;> simp [matchesAt, ih]
      · have token : tokenOf c = .literal c := by simp [tokenOf, run, one]
        rw [token, likeLine_cons fun _ => like_literal run one]
        cases text <;> simp [matchesAt, ih]

theorem found_tokens (fold : Char → Char) (pattern text : List Char) :
    found fold (tokens pattern) text ↔ LikeLine fold pattern text := by
  rw [tokens, List.cons_append, found_start, matchesAt_pattern]

theorem like_restricted {other : Char → Prop} {pattern text : List Char}
    (like : Like fold takes pattern text) (each : ∀ x ∈ text, takes x → other x) :
    Like fold other pattern text := by
  induction like with
  | done => exact .done
  | run taken _ ih =>
    refine .run ?_ (ih fun x mem => each x (List.mem_append_right _ mem))
    exact fun x mem => each x (List.mem_append_left _ mem) (taken x mem)
  | one taken _ ih =>
    rw [List.forall_mem_cons] at each
    exact .one (each.1 taken) (ih each.2)
  | literal run one same _ ih =>
    rw [List.forall_mem_cons] at each
    exact .literal run one same (ih each.2)

theorem likeLine_unbroken {pattern text : List Char} (unbroken : '\n' ∉ text) :
    LikeLine fold pattern text ↔ Like fold (fun _ => True) pattern text := by
  constructor
  · intro ⟨line, ends, like⟩
    rcases ends with same | same
    · rw [same]
      exact like_restricted like fun _ _ _ => trivial
    · rw [same] at unbroken
      exact absurd (by simp) unbroken
  · intro like
    refine ⟨text, .inl rfl, like_restricted like ?_⟩
    intro x mem _ same
    rw [same] at mem
    exact unbroken mem

/-- The query of a LIKE finds just the texts that are like the pattern, in any letter case, with
    wildcards that take no line break, and those texts with one more line break behind them. Of the
    texts without a line break it finds just those that are like the pattern. -/
theorem like_matched (fold : Char → Char) (mode : IdentityMode) (field pattern text : String)
    {op : Operator} (like : op = .like ∨ op = .ilike) :
    ∃ query, Query.ofFilter mode [.operator field op (.text pattern)] = .ok query ∧
      (Query.holds (passes fold text) query ↔ ∃ line,
        (text.toList = line ∨ text.toList = line ++ ['\n']) ∧
          Like fold (· ≠ '\n') pattern.toList line) ∧
      ('\n' ∉ text.toList → (Query.holds (passes fold text) query ↔
        Like fold (fun _ => True) pattern.toList text.toList)) := by
  have operators : Query.operatorsOf mode field op (.text pattern) =
      .ok [("$regex", .string (toRegex pattern)), ("$options", .string "i")] := by
    rcases like with same | same <;> rw [same] <;> rfl
  have compiled : Query.ofFilter mode [.operator field op (.text pattern)] =
      .ok [(IdentityMode.fieldName field,
        .document [("$regex", .string (toRegex pattern)), ("$options", .string "i")])] := by
    rw [Query.ofFilter, Query.addConditions, Query.addCondition, operators]
    rfl
  have read : passes fold text (.pattern (IdentityMode.fieldName field)
      (.string (toRegex pattern)) (some (.string "i"))) =
      found fold (tokens pattern.toList) text.toList := by
    simp only [passes, readTokens_toRegex]
  have lines : Query.holds (passes fold text) [(IdentityMode.fieldName field,
      .document [("$regex", .string (toRegex pattern)), ("$options", .string "i")])] ↔
      LikeLine fold pattern.toList text.toList := by
    rw [← found_tokens, ← read]
    simp [Query.holds, Query.entryHolds, Query.isOperators, IdentityMode.isOperatorName,
      Query.operatorsHold, Query.operatorHolds, Entries.get?]
  exact ⟨_, compiled, lines, fun unbroken => lines.trans (likeLine_unbroken unbroken)⟩

/-- A point in the pattern is a point, and letter case is ignored. -/
theorem like_matched_point :
    ∃ query, Query.ofFilter .raw [.operator "name" .ilike (.text "J_n.%")] = .ok query ∧
      Query.holds (passes Char.toLower "JAN.a") query := by
  obtain ⟨query, compiled, _, plain⟩ :=
    like_matched Char.toLower .raw "name" "J_n.%" "JAN.a" (.inr rfl)
  have run : Like Char.toLower (fun _ => True) ['%'] (['a'] ++ []) := .run (by simp) .done
  have like : Like Char.toLower (fun _ => True) "J_n.%".toList "JAN.a".toList := by
    refine .literal (by decide) (by decide) rfl (.one trivial ?_)
    exact .literal (by decide) (by decide) rfl (.literal (by decide) (by decide) rfl run)
  exact ⟨query, compiled, (plain (by decide)).mpr like⟩

/-- A run may take a line break, but the expression's does not. A text with a last line break is not
    like a pattern without wildcards, but the expression matches it. -/
theorem line_breaks_told_apart :
    ∃ query other,
      Query.ofFilter .raw [.operator "a" .like (.text "a%b")] = .ok query ∧
      Like Char.toLower (fun _ => True) "a%b".toList "a\nb".toList ∧
      ¬Query.holds (passes Char.toLower "a\nb") query ∧
      Query.ofFilter .raw [.operator "a" .like (.text "a")] = .ok other ∧
      Query.holds (passes Char.toLower "a\n") other ∧
      ¬Like Char.toLower (fun _ => True) "a".toList "a\n".toList := by
  have last : Like Char.toLower (fun _ => True) ['b'] ['b'] :=
    .literal (by decide) (by decide) rfl .done
  have run : Like Char.toLower (fun _ => True) ['%', 'b'] (['\n'] ++ ['b']) := .run (by simp) last
  refine ⟨_, _, rfl, ?_, by decide +kernel, rfl, by decide +kernel, ?_⟩
  · exact .literal (by decide) (by decide) rfl run
  · intro like
    cases like with
    | literal _ _ _ later => cases later

end StoreBridge.LikePattern
