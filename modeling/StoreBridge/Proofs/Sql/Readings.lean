import Mathlib.Data.List.Forall2
import StoreBridge.Proofs.Sql.Placeholders

/-!
What SQL's grammar makes of the predicates of a clause. A part of a text reads as a formula when
the reader takes that part and nothing behind it, whatever follows; a chain must not be followed
by a keyword that would go on with it. Each predicate is a part of the closest level, so a chain of
them needs no brackets, and a group brings its own.
-/
namespace StoreBridge.Sql.Grammar

abbrev Level := Nat → Lexemes → Option (Formula FieldTest × Lexemes)

/-- A level reads a part as a formula, whatever stands behind it but the keywords. -/
def Reads (level : Level) (extra : Nat) (keywords : List String) (part : Lexemes)
    (f : Formula FieldTest) : Prop :=
  ∀ fuel rest, 3 * part.length + extra ≤ fuel →
    (∀ keyword ∈ keywords, rest.head? ≠ some (.word keyword)) →
    level fuel (part ++ rest) = some (f, rest)

abbrev ReadsClosest : Lexemes → Formula FieldTest → Prop := Reads negation 0 []

abbrev ReadsConjunction : Lexemes → Formula FieldTest → Prop := Reads conjunction 1 ["AND"]

abbrev ReadsDisjunction : Lexemes → Formula FieldTest → Prop := Reads disjunction 2 ["OR", "AND"]

theorem reads_unique {level : Level} {extra : Nat} {keywords : List String} {part : Lexemes}
    {f g : Formula FieldTest} (first : Reads level extra keywords part f)
    (second : Reads level extra keywords part g) : f = g := by
  have left := first (3 * part.length + extra) [] (Nat.le_refl _) (by simp)
  have right := second (3 * part.length + extra) [] (Nat.le_refl _) (by simp)
  rw [left] at right
  simpa using right

theorem reads_primary {first : Lexeme Value} {tail : Lexemes} {f : Formula FieldTest}
    (noNot : first ≠ .word "NOT") (noBracket : first ≠ .symbol "(")
    (read : ∀ rest, primary (first :: tail ++ rest) = some (f, rest)) :
    ReadsClosest (first :: tail) f := by
  intro fuel rest enough _
  cases fuel with
  | zero => simp at enough
  | succ fuel =>
    rw [← read rest, List.cons_append]
    rw [negation]
    · intro inner same
      injection same with same
      exact noNot same
    · intro inner same
      injection same with same
      exact noBracket same

/-- Parts of one level with its keyword between them read as their chain. -/
theorem reads_chain {level next : Level} {keyword : String} {extra : Nat} {keywords : List String}
    {join : Formula FieldTest → Formula FieldTest → Formula FieldTest} {empty : Formula FieldTest}
    (step : ∀ fuel lexemes,
      level (fuel + 1) lexemes = joined keyword join (level fuel) (next fuel lexemes))
    (fresh : keyword ∉ keywords) {parts : List Lexemes} {formulas : List (Formula FieldTest)}
    (each : List.Forall₂ (Reads next extra keywords) parts formulas) (some : parts ≠ []) :
    Reads level (extra + 1) (keyword :: keywords) (List.intercalate [.word keyword] parts)
      (Formula.chain join empty formulas) := by
  induction each with
  | nil => exact absurd rfl some
  | @cons part f _ _ first others ih =>
    intro fuel rest enough ends
    obtain ⟨fuel, rfl⟩ : ∃ n, fuel = n + 1 := ⟨fuel - 1, by omega⟩
    cases others with
    | nil =>
      simp only [List.intercalate_singleton] at enough ⊢
      have read := first fuel rest (by omega) fun k mem => ends k (by simp [mem])
      rw [step, read]
      cases rest with
      | nil => rfl
      | cons lexeme rest =>
        have other := ends keyword (by simp)
        cases lexeme with
        | word text =>
          have different : text ≠ keyword := by simpa using other
          simp [joined, different, Formula.chain]
        | _ => rfl
    | @cons second g parts formulas _ _ =>
      rw [List.intercalate_cons_cons] at enough ⊢
      simp only [List.append_assoc, List.length_append, List.singleton_append,
        List.length_cons] at enough ⊢
      -- The keyword behind a part is none that the tighter level would go on with.
      have behind : ∀ k ∈ keywords,
          (Lexeme.word keyword :: (List.intercalate [.word keyword] (second :: parts) ++
            rest)).head? ≠ Option.some (.word k) := by
        intro k mem same
        simp only [List.head?_cons, Option.some.injEq, Lexeme.word.injEq] at same
        exact fresh (same ▸ mem)
      have read := first fuel _ (by omega) behind
      have later := ih (by simp) fuel rest (by omega) ends
      rw [step, List.cons_append, read, joined, if_pos rfl, later]
      rfl

theorem reads_conjunction {parts : List Lexemes} {formulas : List (Formula FieldTest)}
    (each : List.Forall₂ ReadsClosest parts formulas) (some : parts ≠ []) :
    ReadsConjunction (List.intercalate [.word "AND"] parts) (.all formulas) :=
  reads_chain (fun fuel lexemes => by rw [conjunction]) (by simp) each some

theorem reads_disjunction {parts : List Lexemes} {formulas : List (Formula FieldTest)}
    (each : List.Forall₂ ReadsConjunction parts formulas) (some : parts ≠ []) :
    ReadsDisjunction (List.intercalate [.word "OR"] parts) (.any formulas) :=
  reads_chain (fun fuel lexemes => by rw [disjunction]) (by decide) each some

theorem reads_alone {part : Lexemes} {f : Formula FieldTest} (read : ReadsClosest part f) :
    ReadsConjunction part f := by
  simpa [Formula.chain] using reads_conjunction (.cons read .nil) (by simp)

theorem reads_conjunctionAlone {part : Lexemes} {f : Formula FieldTest}
    (read : ReadsConjunction part f) : ReadsDisjunction part f := by
  simpa [Formula.chain] using reads_disjunction (.cons read .nil) (by simp)

theorem reads_brackets {part : Lexemes} {f : Formula FieldTest} (read : ReadsDisjunction part f) :
    ReadsClosest (.symbol "(" :: part ++ [.symbol ")"]) f := by
  intro fuel rest enough _
  simp only [List.cons_append, List.append_assoc, List.nil_append, List.length_cons,
    List.length_append] at enough ⊢
  obtain ⟨fuel, rfl⟩ : ∃ n, fuel = n + 1 := ⟨fuel - 1, by omega⟩
  have inner := read fuel (.symbol ")" :: rest) (by omega) (by simp)
  rw [negation, inner]
  rfl

theorem reads_negation {part : Lexemes} {f : Formula FieldTest} (read : ReadsClosest part f) :
    ReadsClosest (.word "NOT" :: part) (.not f) := by
  intro fuel rest enough _
  simp only [List.cons_append, List.length_cons] at enough ⊢
  obtain ⟨fuel, rfl⟩ : ∃ n, fuel = n + 1 := ⟨fuel - 1, by omega⟩
  have inner := read fuel rest (by omega) (by simp)
  rw [negation, inner]
  rfl

theorem operands_listed {values : List Value} (some : values ≠ []) (rest : Lexemes) :
    operands (List.intercalate [.symbol ","] (values.map fun v => [.placeholder v]) ++
      .symbol ")" :: rest) = .some (values, rest) := by
  induction values with
  | nil => exact absurd rfl some
  | cons value others ih =>
    cases others with
    | nil => rfl
    | cons next others =>
      have later := ih (by simp)
      simp only [List.map_cons, List.intercalate_cons_cons, List.cons_append,
        List.nil_append] at later ⊢
      rw [operands, later]
      rfl

theorem condition_read {part : Lexemes} {f : Formula FieldTest} (read : ReadsDisjunction part f) :
    condition part = some f := by
  have whole := read (3 * part.length + 2) [] (by omega) (by simp)
  rw [List.append_nil] at whole
  rw [condition, whole]

end StoreBridge.Sql.Grammar

namespace StoreBridge.Sql
open Grammar

abbrev Token.read (tokens : List Token) : Lexemes := tokens.flatMap Token.meant

namespace Predicate

abbrev Reads (p : Predicate) (f : Formula FieldTest) : Prop := ReadsClosest (Token.read p.tokens) f

theorem reads_always (holds : Bool) : Reads (.always holds) (.always holds) := by
  cases holds <;> exact reads_primary (by simp) (by simp) fun rest => rfl

theorem reads_null (column : String) (negated : Bool) :
    Reads (.null column negated) (.test (.null column negated)) := by
  cases negated <;> exact reads_primary (by simp) (by simp) fun rest => rfl

theorem reads_compare (column : String) (comparison : Comparison) (operand : Value) :
    Reads (.compare column comparison operand) (.test (.compare column comparison operand)) := by
  cases comparison <;> exact reads_primary (by simp) (by simp) fun rest => rfl

theorem reads_inList (column : String) (negated : Bool) (items : List Value) :
    Reads (.inList column negated items) (.test (.member column negated items)) := by
  cases negated <;> exact reads_primary (by simp) (by simp) fun rest => rfl

theorem reads_matching (column : String) (test : PatternTest) (pattern : Value) :
    Reads (.matching column test pattern) (.test (.like column (test != .like) pattern)) := by
  cases test <;> exact reads_primary (by simp) (by simp) fun rest => rfl

theorem reads_between (column : String) (low high : Value) :
    Reads (.between column low high) (.test (.between column low high)) :=
  reads_primary (by simp) (by simp) fun rest => rfl

theorem read_intercalate (between : List Token) (parts : List (List Token)) :
    Token.read (List.intercalate between parts) =
      List.intercalate (Token.read between) (parts.map Token.read) := by
  induction parts with
  | nil => rfl
  | cons part rest ih =>
    cases rest with
    | nil => simp
    | cons next rest =>
      rw [List.intercalate_cons_cons, List.map_cons, List.map_cons, List.intercalate_cons_cons]
      simp only [Token.read, List.flatMap_append] at ih ⊢
      rw [ih, List.map_cons]

theorem reads_among (column : String) (negated : Bool) {values : List Value}
    (some : values ≠ []) :
    Reads (.among column negated values) (.test (.member column negated values)) := by
  have list : Token.read (Token.listed (values.map fun v => [.parameter v])) =
      List.intercalate [.symbol ","] (values.map fun v => [.placeholder v]) := by
    rw [Token.listed, read_intercalate, List.map_map]
    rfl
  have written : Token.read (Predicate.among column negated values).tokens =
      .name column :: ((if negated then [.word "NOT", .word "IN"] else [.word "IN"]) ++
        (.symbol "(" :: List.intercalate [.symbol ","] (values.map fun v => [.placeholder v]) ++
          [.symbol ")"])) := by
    rw [← list]
    cases negated <;> simp [tokens, Token.words, Token.inParens, Token.meant]
  have taken (rest : Lexemes) := operands_listed some rest
  rw [Reads, written]
  cases negated with
  | false | true =>
    refine reads_primary (by simp) (by simp) fun rest => ?_
    simp only [Bool.false_eq_true, if_false, if_true, List.cons_append, List.append_assoc,
      List.nil_append, primary, columnTest, taken]
    rfl

end Predicate

def Joiner.formula : Joiner → List (Formula FieldTest) → Formula FieldTest
  | .and => .all
  | .or => .any

namespace Clause

abbrev Reads (c : Clause) (f : Formula FieldTest) : Prop := ReadsConjunction (Token.read c.tokens) f

theorem reads_all {c : Clause} {formulas : List (Formula FieldTest)}
    (each : List.Forall₂ Predicate.Reads c formulas) : Reads c (.all formulas) := by
  have parts : List.Forall₂ ReadsClosest ((Predicate.clauseTokens c).map Token.read) formulas := by
    induction each with
    | nil => exact .nil
    | cons first _ ih => exact .cons first ih
  cases c with
  | nil =>
    cases each
    exact reads_alone (Predicate.reads_always true)
  | cons p rest =>
    have whole := reads_conjunction parts (by simp [Predicate.clauseTokens])
    have written : Token.read (tokens (p :: rest)) = List.intercalate [.word "AND"]
        ((Predicate.clauseTokens (p :: rest)).map Token.read) :=
      Predicate.read_intercalate [.space, .word "AND", .space] _
    rw [Reads, written]
    exact whole

end Clause

namespace Predicate

theorem reads_not {inner : Clause} {f : Formula FieldTest} (read : inner.Reads f) :
    Reads (.not inner) (.not f) := by
  have bracketed := reads_negation (reads_brackets (reads_conjunctionAlone read))
  have written : Token.read (Predicate.not inner).tokens =
      .word "NOT" :: (.symbol "(" :: Token.read inner.tokens ++ [.symbol ")"]) := by
    simp [tokens, Token.inParens, Token.meant, Clause.tokens]
  rw [Reads, written]
  exact bracketed

theorem reads_group (joiner : Joiner) {branches : List Clause}
    {formulas : List (Formula FieldTest)} (each : List.Forall₂ Clause.Reads branches formulas)
    (some : branches ≠ []) :
    Reads (.group joiner branches) (joiner.formula formulas) := by
  have parts : List.Forall₂ ReadsClosest ((branchTokens branches).map Token.read) formulas := by
    clear some
    induction each with
    | nil => exact .nil
    | @cons branch f _ _ first _ ih =>
      have bracketed := reads_brackets (reads_conjunctionAlone first)
      have written : Token.read (Token.inParens (conjoined (clauseTokens branch))) =
          .symbol "(" :: Token.read branch.tokens ++ [.symbol ")"] := by
        simp [Token.inParens, Token.meant, Clause.tokens]
      refine .cons ?_ ih
      rw [written]
      exact bracketed
  have filled : (branchTokens branches).map Token.read ≠ [] := by
    cases branches with
    | nil => exact absurd rfl some
    | cons => simp [branchTokens]
  have chain : ReadsDisjunction
      (List.intercalate [.word joiner.keyword] ((branchTokens branches).map Token.read))
      (joiner.formula formulas) := by
    cases joiner with
    | and => exact reads_conjunctionAlone (reads_conjunction parts filled)
    | or => exact reads_disjunction (parts.imp fun _ _ => reads_alone) filled
  have written : Token.read (Predicate.group joiner branches).tokens =
      .symbol "(" :: List.intercalate [.word joiner.keyword]
        ((branchTokens branches).map Token.read) ++ [.symbol ")"] := by
    have inner : Token.read [.space, .word joiner.keyword, .space] = [.word joiner.keyword] := rfl
    rw [tokens, Token.inParens, ← inner, ← read_intercalate]
    simp [Token.meant]
  rw [Reads, written]
  exact reads_brackets chain

end Predicate
end StoreBridge.Sql
