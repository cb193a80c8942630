import Mathlib.Data.List.Infix
import StoreBridge.Text.Blank

/-!
Parts, ends and lines of a text. Trimming takes nothing from a part that shows at both ends, and a
text that is written line by line is read as the same lines.
-/
namespace StoreBridge.Text

theorem hasPart_iff {part s : List Char} : hasPart part s ↔ part <:+: s := by
  induction s with
  | nil => simp [hasPart]
  | cons c rest ih => rw [hasPart, Bool.or_eq_true, ih, List.isPrefixOf_iff_prefix,
      List.infix_cons_iff]

/-! Text without white space at its ends. -/

/-- There is no white space in front. -/
def Starts (s : List Char) : Prop := ∀ c ∈ s.head?, isBlank c = false

-- The instance is named, since one over all characters would be found before it.
instance : DecidablePred Starts := fun s => Option.decidableForallMem s.head?

/-- There is white space neither in front nor behind. -/
def IsTrimmed (s : List Char) : Prop := Starts s ∧ Starts s.reverse

instance : DecidablePred IsTrimmed := fun s =>
  inferInstanceAs (Decidable (Starts s ∧ Starts s.reverse))

theorem starts_dropBlanks (s : List Char) : Starts (dropBlanks s) := by
  intro c first
  have shown := List.head?_dropWhile_not isBlank s
  rw [← dropBlanks, first] at shown
  exact shown

theorem dropBlanks_isSuffix (s : List Char) : dropBlanks s <:+ s := List.dropWhile_suffix isBlank

theorem Starts.front {front s : List Char} (starts : Starts s) (within : front <+: s) :
    Starts front := by
  obtain ⟨behind, rfl⟩ := within
  intro c first
  refine starts c ?_
  rw [Option.mem_def] at first ⊢
  rw [List.head?_append, first, Option.some_or]

theorem trimmed_isPrefix (s : List Char) : trimmed s <+: dropBlanks s := by
  have behind := dropBlanks_isSuffix (dropBlanks s).reverse
  rwa [← List.reverse_prefix, List.reverse_reverse] at behind

theorem trimmed_isInfix (s : List Char) : trimmed s <:+: s :=
  (trimmed_isPrefix s).isInfix.trans (dropBlanks_isSuffix s).isInfix

theorem isTrimmed_trimmed (s : List Char) : IsTrimmed (trimmed s) := by
  constructor
  · exact (starts_dropBlanks s).front (trimmed_isPrefix s)
  · rw [trimmed, List.reverse_reverse]
    exact starts_dropBlanks _

variable {part s : List Char}

theorem infix_dropBlanks (some : part ≠ []) (starts : Starts part) (within : part <:+: s) :
    part <:+: dropBlanks s := by
  induction s with
  | nil => exact within
  | cons c rest ih =>
    unfold dropBlanks
    cases blank : isBlank c with
    | false => rwa [List.dropWhile_cons_of_neg (by simp [blank])]
    | true =>
      rw [List.dropWhile_cons_of_pos blank]
      refine ih ((List.infix_cons_iff.mp within).resolve_left fun front => ?_)
      obtain ⟨first, more, rfl⟩ := List.exists_cons_of_ne_nil some
      obtain ⟨rfl, _⟩ := List.cons_prefix_cons.mp front
      have shown := starts first rfl
      rw [blank] at shown
      contradiction

theorem infix_trimmed_iff (some : part ≠ []) (shown : IsTrimmed part) :
    part <:+: trimmed s ↔ part <:+: s := by
  constructor
  · exact fun within => within.trans (trimmed_isInfix s)
  · intro within
    have front : part.reverse <:+: (dropBlanks s).reverse :=
      List.reverse_infix.mpr (infix_dropBlanks some shown.1 within)
    have both := infix_dropBlanks (by simpa using some) shown.2 front
    rwa [← List.reverse_infix, List.reverse_reverse] at both

/-! Lines. -/

/-- A line from its characters, the last one first. -/
def closed : List Char → List Char
  | '\r' :: line => line.reverse
  | line => line.reverse

theorem lines_eq (s : List Char) : lines s = lines.go closed s [] := rfl

theorem mem_of_mem_closed {c : Char} {line : List Char} (mem : c ∈ closed line) : c ∈ line := by
  unfold closed at mem
  split at mem
  · exact List.mem_cons_of_mem _ (List.mem_reverse.mp mem)
  · exact List.mem_reverse.mp mem

theorem closed_reverse {line : List Char} (starts : Starts line.reverse) :
    closed line.reverse = line := by
  unfold closed
  split
  · rename_i ends
    rw [ends] at starts
    exact absurd (starts '\r' rfl) (by decide)
  · exact List.reverse_reverse line

variable {line behind : List Char}

theorem newline_not_mem_go (whole : '\n' ∉ behind) (mem : line ∈ lines.go closed s behind) :
    '\n' ∉ line := by
  -- What stands behind is a line under way, so it is any text without a line end.
  induction s generalizing behind with
  | nil =>
    cases behind with
    | nil => contradiction
    | cons c behind =>
      rw [lines.go, List.mem_singleton] at mem
      · rwa [mem, List.mem_reverse]
      · simp
  | cons c rest ih =>
    by_cases ends : c = '\n'
    · subst ends
      rcases List.mem_cons.mp mem with rfl | later
      · exact fun inside => whole (mem_of_mem_closed inside)
      · exact ih List.not_mem_nil later
    · rw [lines.go] at mem
      · exact ih (by simp [whole, Ne.symm ends]) mem
      · exact ends

theorem newline_not_mem_lines (mem : line ∈ lines s) : '\n' ∉ line :=
  newline_not_mem_go List.not_mem_nil mem

theorem go_append (whole : '\n' ∉ line) (rest behind : List Char) :
    lines.go closed (line ++ '\n' :: rest) behind =
      closed (line.reverse ++ behind) :: lines.go closed rest [] := by
  induction line generalizing behind with
  | nil => rfl
  | cons c line ih =>
    rw [List.mem_cons, not_or] at whole
    rw [List.cons_append, lines.go, ih whole.2, List.reverse_cons, List.append_assoc,
      List.singleton_append]
    exact fun ends => whole.1 ends.symm

theorem lines_cons (whole : '\n' ∉ line) (trim : IsTrimmed line) (rest : List Char) :
    lines (line ++ '\n' :: rest) = line :: lines rest := by
  rw [lines_eq, go_append whole, List.append_nil, closed_reverse trim.2, lines_eq]

theorem lines_flatMap {all : List (List Char)}
    (each : ∀ line ∈ all, '\n' ∉ line ∧ IsTrimmed line) :
    lines (all.flatMap fun line => line ++ ['\n']) = all := by
  induction all with
  | nil => rfl
  | cons line rest ih =>
    rw [List.forall_mem_cons] at each
    obtain ⟨⟨whole, trim⟩, others⟩ := each
    rw [List.flatMap_cons, List.append_assoc, List.singleton_append, lines_cons whole trim,
      ih others]

end StoreBridge.Text
