import Mathlib.Data.List.Basic
import Mathlib.Tactic.SplitIfs
import StoreBridge.Document.LikePattern

/-!
The expressions of LIKE patterns, read back token by token. The reader knows how an expression is
spelled and nothing of patterns. It gives up where an expression asks for what no token says: a
repetition, a group, a choice, or a class of characters. What is written of an expression and what
is pending are, at each character of the pattern, together the tokens of the characters so far.
-/
namespace StoreBridge.LikePattern

inductive RegexToken where
  | start
  | stop
  | anyRun
  | anyChar
  | literal (c : Char)
  deriving DecidableEq, Repr

def RegexToken.chars : RegexToken → List Char
  | .start => ['^']
  | .stop => ['$']
  | .anyRun => ['.', '*']
  | .anyChar => ['.']
  | .literal c => if metacharacters.contains c then ['\\', c] else [c]

def tokenOf (c : Char) : RegexToken :=
  if c = '%' then .anyRun else if c = '_' then .anyChar else .literal c

def tokens (pattern : List Char) : List RegexToken := .start :: pattern.map tokenOf ++ [.stop]

/-- The characters that never stand for themselves without a backslash. -/
def reserved : List Char :=
  ['\\', '^', '$', '.', '[', ']', '|', '(', ')', '?', '*', '+', '\x7b', '\x7d']

def readTokens : List Char → Option (List RegexToken)
  | [] => some []
  | '^' :: rest => (readTokens rest).map (.start :: ·)
  | '$' :: rest => (readTokens rest).map (.stop :: ·)
  | '.' :: '*' :: rest => (readTokens rest).map (.anyRun :: ·)
  | '.' :: rest => (readTokens rest).map (.anyChar :: ·)
  -- Behind a backslash, letters and digits are classes, places or references.
  | '\\' :: c :: rest => if c.isAlphanum then none else (readTokens rest).map (.literal c :: ·)
  | c :: rest => if reserved.contains c then none else (readTokens rest).map (.literal c :: ·)

theorem reserved_subset : reserved ⊆ metacharacters := by decide

theorem metacharacters_bare {c : Char} (mark : c ∈ metacharacters) : c.isAlphanum = false := by
  have bare : metacharacters.all fun c => !c.isAlphanum := by decide
  simpa using List.all_eq_true.mp bare c mark

theorem readTokens_plain {c : Char} (plain : c ∉ metacharacters) (rest : List Char) :
    readTokens (c :: rest) = (readTokens rest).map (.literal c :: ·) := by
  have unreserved : c ∉ reserved := fun mem => plain (reserved_subset mem)
  have other : ∀ x ∈ reserved, c ≠ x := by
    intro x mem same
    subst same
    exact unreserved mem
  rw [readTokens]
  · simp [unreserved]
  · exact other '^' (by decide)
  · exact other '$' (by decide)
  · intro _ same
    exact absurd same (other '.' (by decide))
  · exact other '.' (by decide)
  · intro _ _ same
    exact absurd same (other '\\' (by decide))

theorem readTokens_escaped {c : Char} (mark : c ∈ metacharacters) (rest : List Char) :
    readTokens ('\\' :: c :: rest) = (readTokens rest).map (.literal c :: ·) := by
  simp [readTokens, metacharacters_bare mark]

theorem readTokens_point {rest : List Char} (single : rest.head? ≠ some '*') :
    readTokens ('.' :: rest) = (readTokens rest).map (.anyChar :: ·) := by
  cases rest with
  | nil => rfl
  | cons c rest =>
    have other : c ≠ '*' := by simpa using single
    rw [readTokens]
    intro behind same
    exact other (List.cons.inj same).1

theorem readTokens_chars (token : RegexToken) {rest : List Char}
    (single : rest.head? ≠ some '*') :
    readTokens (token.chars ++ rest) = (readTokens rest).map (token :: ·) := by
  cases token with
  | start | stop | anyRun => rfl
  | anyChar => exact readTokens_point single
  | literal c =>
    by_cases mark : c ∈ metacharacters
    · simpa [RegexToken.chars, mark] using readTokens_escaped mark rest
    · simpa [RegexToken.chars, mark] using readTokens_plain mark rest

theorem chars_head (token : RegexToken) (rest : List Char) :
    (token.chars ++ rest).head? ≠ some '*' := by
  cases token with
  | literal c =>
    by_cases mark : c ∈ metacharacters
    · simp [RegexToken.chars, mark]
    · have other : c ≠ '*' := by
        intro same
        subst same
        exact mark (by decide)
      simpa [RegexToken.chars, mark] using other
  | _ => simp [RegexToken.chars]

theorem readTokens_spelled (tokens : List RegexToken) :
    readTokens (tokens.flatMap RegexToken.chars) = some tokens := by
  induction tokens with
  | nil => rfl
  | cons token rest ih =>
    have single : (rest.flatMap RegexToken.chars).head? ≠ some '*' := by
      cases rest with
      | nil => simp
      | cons next others => exact chars_head next _
    rw [List.flatMap_cons, readTokens_chars token single, ih]
    rfl

/-! The loop over a pattern's characters. -/

/-- An expression so far, with what is pending, spells the tokens. -/
def Spelling.Spells (s : Spelling) (tokens : List RegexToken) : Prop :=
  s.flushed.toList = tokens.flatMap RegexToken.chars

theorem escape_empty : escape "" = "" := rfl

theorem escape_push (text : String) (c : Char) :
    (escape (text.push c)).toList = (escape text).toList ++ (RegexToken.literal c).chars := by
  simp [escape, RegexToken.chars]

theorem next_spells {s : Spelling} {tokens : List RegexToken} (spells : s.Spells tokens)
    (c : Char) : (s.next c).Spells (tokens ++ [tokenOf c]) := by
  unfold Spelling.Spells at spells ⊢
  rw [List.flatMap_append, ← spells, List.flatMap_singleton, Spelling.next, tokenOf]
  split_ifs
  · simp [Spelling.flushed, escape_empty, RegexToken.chars]
  · simp [Spelling.flushed, escape_empty, RegexToken.chars]
  · simp only [Spelling.flushed, String.toList_append, escape_push, List.append_assoc]

theorem foldl_spells {s : Spelling} {tokens : List RegexToken} (spells : s.Spells tokens)
    (pattern : List Char) :
    (pattern.foldl Spelling.next s).Spells (tokens ++ pattern.map tokenOf) := by
  induction pattern generalizing s tokens with
  | nil => simpa using spells
  | cons c pattern ih =>
    have later := ih (next_spells spells c)
    simpa using later

theorem toRegex_spelled (pattern : String) :
    (toRegex pattern).toList = (tokens pattern.toList).flatMap RegexToken.chars := by
  have opened : Spelling.Spells ⟨"^", ""⟩ [.start] := rfl
  have whole := foldl_spells opened pattern.toList
  rw [Spelling.Spells] at whole
  rw [toRegex, String.toList_append, whole]
  simp [tokens, RegexToken.chars]

theorem readTokens_toRegex (pattern : String) :
    readTokens (toRegex pattern).toList = some (tokens pattern.toList) := by
  rw [toRegex_spelled, readTokens_spelled]

theorem tokenOf_injective : Function.Injective tokenOf := by
  intro a b same
  unfold tokenOf at same
  split_ifs at same <;> simp_all

theorem tokens_injective : Function.Injective tokens := by
  intro p q same
  have middle : p.map tokenOf = q.map tokenOf := by
    simpa [tokens] using same
  exact List.map_injective_iff.mpr tokenOf_injective middle

/-- An expression reads as one token for each character of its pattern, between the two anchors.
    So no two patterns have one expression. -/
theorem toRegex_reads :
    (∀ pattern : String, readTokens (toRegex pattern).toList =
      some (.start :: pattern.toList.map (fun c =>
        if c = '%' then .anyRun else if c = '_' then .anyChar else .literal c) ++ [.stop])) ∧
    Function.Injective toRegex := by
  constructor
  · exact readTokens_toRegex
  · intro p q same
    have read : some (tokens p.toList) = some (tokens q.toList) := by
      rw [← readTokens_toRegex, ← readTokens_toRegex, same]
    exact String.toList_inj.mp (tokens_injective (Option.some.inj read))

end StoreBridge.LikePattern
