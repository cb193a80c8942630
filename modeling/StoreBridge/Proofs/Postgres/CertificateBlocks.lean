import StoreBridge.Postgres.Bytes
import StoreBridge.Postgres.Certificates
import StoreBridge.Proofs.Postgres.Frames
import StoreBridge.Proofs.Text.Lines

/-!
The certificates of a text, apart from how it is read: the stretches of lines that begin where the
begin marker stands, end where the end marker stands, and have neither of them in between. One pass
over the lines finds each of them once and in order, and nothing else.
-/
namespace StoreBridge.Postgres.Certificates
open Text

def Begins (line : List Char) : Prop := beginMarker.toList <:+: line

def Ends (line : List Char) : Prop := endMarker.toList <:+: line

instance : DecidablePred Begins := fun _ => decidable_of_iff _ hasPart_iff

instance : DecidablePred Ends := fun _ => decidable_of_iff _ hasPart_iff

/-- The first line begins a certificate, and no other does. -/
structure IsBegun (front : List (List Char)) : Prop where
  begun : ∃ line ∈ front.head?, Begins line
  once : ∀ line ∈ front.tail, ¬Begins line

/-- The lines of a certificate that is not ended. -/
structure IsOpen (front : List (List Char)) : Prop extends IsBegun front where
  still : ∀ line ∈ front, ¬Ends line

/-- The lines of a certificate. The first one and no other begins it, and the last one and no other
    ends it. -/
structure IsBlock (block : List (List Char)) : Prop extends IsBegun block where
  ended : ∃ line ∈ block.getLast?, Ends line
  still : ∀ line ∈ block.dropLast, ¬Ends line

instance : DecidablePred IsBlock := fun block =>
  decidable_of_iff ((∃ line ∈ block.head?, Begins line) ∧ (∀ line ∈ block.tail, ¬Begins line) ∧
      (∃ line ∈ block.getLast?, Ends line) ∧ ∀ line ∈ block.dropLast, ¬Ends line)
    ⟨fun ⟨begun, once, ended, still⟩ => ⟨⟨begun, once⟩, ended, still⟩,
      fun ⟨⟨begun, once⟩, ended, still⟩ => ⟨begun, once, ended, still⟩⟩

/-- The certificates among lines: each stretch of them that is one, in the order in which they
    start. -/
def blocks (all : List (List Char)) : List (List (List Char)) :=
  (all.tails.flatMap List.inits).filter IsBlock

def blockText (block : List (List Char)) : String :=
  String.ofList (block.flatMap fun line => trimmed line ++ ['\n'])

def blocksFrom (front rest : List (List Char)) : List (List (List Char)) :=
  (rest.inits.map (front ++ ·)).filter IsBlock

section
variable {line : List Char} {front block rest all more : List (List Char)}

theorem mem_blocks : block ∈ blocks all ↔ block <:+: all ∧ IsBlock block := by
  simp only [blocks, List.mem_filter, List.mem_flatMap, List.mem_tails, List.mem_inits,
    decide_eq_true_eq, List.infix_iff_prefix_suffix, and_comm]

theorem IsBlock.not_nil : ¬IsBlock [] := by
  rintro ⟨⟨⟨_, first, _⟩, _⟩, _⟩
  contradiction

theorem IsOpen.not_block (opened : IsOpen front) : ¬IsBlock front := by
  rintro ⟨_, ⟨line, last, ends⟩, _⟩
  exact opened.still line (List.mem_of_getLast? last) ends

theorem IsBlock.no_more (block : IsBlock front) (longer : IsBlock (front ++ more)) : more = [] := by
  obtain ⟨line, last, ends⟩ := block.ended
  by_contra further
  refine longer.still line ?_ ends
  rw [List.dropLast_append_of_ne_nil further]
  exact List.mem_append_left _ (List.mem_of_getLast? last)

/-! Certificates that consist of given lines and of some that follow. -/

theorem blocksFrom_cons (unended : ¬IsBlock front) :
    blocksFrom front (line :: rest) = blocksFrom (front ++ [line]) rest := by
  simp [blocksFrom, unended, Function.comp_def]

theorem blocksFrom_block (block : IsBlock front) : blocksFrom front rest = [front] := by
  cases rest with
  | nil => simp [blocksFrom, block]
  | cons line rest =>
    have behind : (rest.inits.map fun more => front ++ line :: more).filter IsBlock = [] := by
      rw [List.filter_eq_nil_iff, List.forall_mem_map]
      intro more _ longer
      exact List.cons_ne_nil line more (block.no_more (of_decide_eq_true longer))
    simpa [blocksFrom, block, Function.comp_def] using behind

theorem blocksFrom_none (none : ∀ more, ¬IsBlock (front ++ more)) : blocksFrom front rest = [] := by
  rw [blocksFrom, List.filter_eq_nil_iff, List.forall_mem_map]
  intro more _ block
  exact none more (of_decide_eq_true block)

theorem blocksFrom_open (opened : IsOpen front) : blocksFrom front [] = [] := by
  simp [blocksFrom, opened.not_block]

theorem blocks_cons (line : List Char) (rest : List (List Char)) :
    blocks (line :: rest) = blocksFrom [line] rest ++ blocks rest := by
  have first : (line :: rest).inits.filter IsBlock = blocksFrom [line] rest := by
    rw [← List.nil_append [line], ← blocksFrom_cons IsBlock.not_nil, blocksFrom]
    simp only [List.nil_append, List.map_id']
  rw [blocks, List.tails_cons, List.flatMap_cons, List.filter_append, first, blocks]

/-! One line more. -/

theorem IsBegun.not_nil (begun : IsBegun front) : front ≠ [] := by
  rintro rfl
  obtain ⟨_, first, _⟩ := begun.begun
  contradiction

theorem IsBegun.append (begun : IsBegun front) (other : ¬Begins line) :
    IsBegun (front ++ [line]) := by
  obtain ⟨first, more, rfl⟩ := List.exists_cons_of_ne_nil begun.not_nil
  refine ⟨begun.begun, ?_⟩
  rw [List.cons_append, List.tail_cons, List.forall_mem_append]
  exact ⟨begun.once, by simpa using other⟩

theorem IsBegun.not_continued (begun : IsBegun front) (begins : Begins line) :
    ¬IsBlock (front ++ [line] ++ more) := by
  obtain ⟨first, others, rfl⟩ := List.exists_cons_of_ne_nil begun.not_nil
  intro block
  exact block.once line (by simp) begins

def taken (current : Option (List (List Char))) (line : List Char) : Option (List (List Char)) :=
  if Begins line then some [line] else current.map (· ++ [line])

/-- The lines of the certificate under way as they are kept: trimmed, the last one first. -/
def kept (front : List (List Char)) : List (List Char) := (front.map trimmed).reverse

theorem extend_kept (current : Option (List (List Char))) (line : List Char) :
    extend (current.map kept) line = (taken current line).map kept := by
  unfold extend taken
  by_cases begins : Begins line
  · simp [hasPart_iff.mpr begins, begins, kept]
  · have other : hasPart beginMarker.toList line = false :=
      Bool.eq_false_iff.mpr fun part => begins (hasPart_iff.mp part)
    cases current <;> simp [other, begins, kept]

theorem joined_kept (block : List (List Char)) : joined (kept block) = blockText block := by
  rw [joined, kept, List.reverse_reverse, List.flatMap_map, blockText]

/-- The certificates that are still to come: the one under way and those behind it. -/
def ahead (current : Option (List (List Char))) (rest : List (List Char)) :
    List (List (List Char)) :=
  current.elim [] (blocksFrom · rest) ++ blocks rest

variable {current : Option (List (List Char))} (opened : ∀ front ∈ current, IsOpen front)
include opened

theorem taken_shape (mem : front ∈ taken current line) :
    IsBegun front ∧ ∃ before, front = before ++ [line] ∧ ∀ line ∈ before, ¬Ends line := by
  unfold taken at mem
  split at mem
  · rename_i begins
    obtain rfl := Option.some.inj mem
    exact ⟨⟨⟨line, rfl, begins⟩, by simp⟩, [], rfl, by simp⟩
  · rename_i other
    obtain ⟨before, inside, rfl⟩ := Option.map_eq_some_iff.mp mem
    have own := opened before inside
    exact ⟨own.toIsBegun.append other, before, rfl, own.still⟩

theorem taken_block (ends : Ends line) : ∀ front ∈ taken current line, IsBlock front := by
  intro front mem
  obtain ⟨begun, before, rfl, still⟩ := taken_shape opened mem
  refine ⟨begun, ⟨line, by simp, ends⟩, ?_⟩
  rwa [List.dropLast_concat]

theorem taken_open (unended : ¬Ends line) : ∀ front ∈ taken current line, IsOpen front := by
  intro front mem
  obtain ⟨begun, before, rfl, still⟩ := taken_shape opened mem
  refine ⟨begun, ?_⟩
  rw [List.forall_mem_append]
  exact ⟨still, by simpa using unended⟩

theorem ahead_cons (line : List Char) (rest : List (List Char)) :
    ahead current (line :: rest) = ahead (taken current line) rest := by
  unfold ahead taken
  rw [blocks_cons]
  split
  · -- What was under way is given up, and the line begins a certificate of its own.
    rename_i begins
    have gone : current.elim [] (blocksFrom · (line :: rest)) = [] := by
      cases current with
      | none => rfl
      | some front =>
        have own := opened front rfl
        rw [Option.elim_some, blocksFrom_cons own.not_block]
        exact blocksFrom_none fun _ => own.toIsBegun.not_continued begins
    rw [gone, List.nil_append, Option.elim_some]
  · rename_i other
    have unbegun : blocksFrom [line] rest = [] := by
      refine blocksFrom_none fun more block => ?_
      obtain ⟨first, mem, begins⟩ := block.begun
      obtain rfl := Option.some.inj mem
      exact other begins
    rw [unbegun, List.nil_append]
    cases current with
    | none => rfl
    | some front =>
      rw [Option.elim_some, blocksFrom_cons (opened front rfl).not_block]
      rfl

/-- A pass over lines gives every certificate that is still to come. It goes by the lines that are
    left, and what it keeps is that the certificate under way is open. -/
theorem ofLines_ahead (rest : List (List Char)) :
    ofLines (current.map kept) rest = (ahead current rest).map blockText := by
  induction rest generalizing current with
  | nil =>
    have behind : blocks [] = [] := by
      simp [blocks, IsBlock.not_nil]
    cases current with
    | none => simp [ofLines, ahead, behind]
    | some front => simp [ofLines, ahead, behind, blocksFrom_open (opened front rfl)]
  | cons line rest ih =>
    rw [ofLines, extend_kept, ahead_cons opened]
    have idle := @ih none (by simp)
    cases next : taken current line with
    | none => exact idle
    | some front =>
      rw [Option.map_some]
      by_cases ends : Ends line
      · have block := taken_block opened ends front next
        have first : ahead (some front) rest = front :: ahead none rest := by
          rw [ahead, Option.elim_some, blocksFrom_block block]
          rfl
        rw [first, List.map_cons, ← idle, ← joined_kept]
        exact if_pos (hasPart_iff.mpr ends)
      · have own := taken_open opened ends
        rw [next] at own
        rw [← ih own]
        exact if_neg fun part => ends (hasPart_iff.mp part)

omit opened

theorem ofLines_blocks (all : List (List Char)) :
    ofLines none all = (blocks all).map blockText :=
  @ofLines_ahead none (by simp) all

/-! The lines of what is found. -/

theorem begins_trimmed_iff : Begins (trimmed line) ↔ Begins line :=
  infix_trimmed_iff (by decide) (by decide)

theorem ends_trimmed_iff : Ends (trimmed line) ↔ Ends line :=
  infix_trimmed_iff (by decide) (by decide)

theorem IsBlock.map_trimmed (own : IsBlock block) : IsBlock (block.map trimmed) where
  begun := by
    obtain ⟨line, first, begins⟩ := own.begun
    refine ⟨trimmed line, ?_, begins_trimmed_iff.mpr begins⟩
    rw [List.head?_map]
    exact Option.mem_map_of_mem trimmed first
  once := by
    rw [← List.map_tail, List.forall_mem_map]
    exact fun line mem begins => own.once line mem (begins_trimmed_iff.mp begins)
  ended := by
    obtain ⟨line, last, ends⟩ := own.ended
    refine ⟨trimmed line, ?_, ends_trimmed_iff.mpr ends⟩
    rw [List.getLast?_map]
    exact Option.mem_map_of_mem trimmed last
  still := by
    rw [← List.map_dropLast, List.forall_mem_map]
    exact fun line mem ends => own.still line mem (ends_trimmed_iff.mp ends)

theorem lines_blockText (within : ∀ line ∈ block, '\n' ∉ line) :
    lines (blockText block).toList = block.map trimmed := by
  have each : ∀ line ∈ block.map trimmed, '\n' ∉ line ∧ IsTrimmed line := by
    rw [List.forall_mem_map]
    intro line mem
    refine ⟨fun inside => within line mem ?_, isTrimmed_trimmed line⟩
    exact (trimmed_isInfix line).subset inside
  have written := lines_flatMap each
  rwa [List.flatMap_map, ← String.toList_ofList (l := block.flatMap _)] at written

end

/-- The certificates of a text are found, each once and in order, and where there are none the text
    is refused. A certificate that is found has its markers in its first and its last line and
    nowhere else, and its lines are trimmed. -/
theorem certificates_found (text : String) :
    let found := (blocks (lines text.toList)).map blockText
    ofBytes (Bytes.ofText text) =
        (if found = [] then .error (.config .noCertificates) else .ok found) ∧
      ∀ certificate ∈ found, IsBlock (lines certificate.toList) ∧
        ∀ line ∈ lines certificate.toList, IsTrimmed line := by
  intro found
  constructor
  · have read : String.fromUTF8? ⟨(Bytes.ofText text).toArray⟩ = some text :=
      Bytes.toText?_ofText text
    rw [ofBytes, read]
    dsimp only
    rw [ofLines_blocks]
    split
    · rename_i empty
      exact (if_pos empty).symm
    · rename_i some
      exact (if_neg some).symm
  · rw [List.forall_mem_map]
    intro block mem
    obtain ⟨within, own⟩ := mem_blocks.mp mem
    have whole : ∀ line ∈ block, '\n' ∉ line := fun line inside =>
      newline_not_mem_lines (within.subset inside)
    rw [lines_blockText whole, List.forall_mem_map]
    exact ⟨own.map_trimmed, fun line _ => isTrimmed_trimmed line⟩

/-- A stray end, a certificate that is not finished before another begins, one in a single line, and
    one that the text breaks off. -/
theorem certificates_found_nested :
      let text := "-----END CERTIFICATE-----\n" ++ "-----BEGIN CERTIFICATE-----\nlost\r\n" ++
      "\t-----BEGIN CERTIFICATE----- \r\n" ++ " AAAA\n-----END CERTIFICATE-----\n" ++
      "<-----BEGIN CERTIFICATE-----/" ++ "-----END CERTIFICATE----->\njunk\n" ++
      "-----BEGIN CERTIFICATE-----\nBBBB"
    let found := ["-----BEGIN CERTIFICATE-----\nAAAA\n-----END CERTIFICATE-----\n",
      "<-----BEGIN CERTIFICATE-----/-----END CERTIFICATE----->\n"]
    ofBytes (Bytes.ofText text) = .ok found ∧ ∀ certificate ∈ found,
      IsBlock (lines certificate.toList) ∧ ∀ line ∈ lines certificate.toList, IsTrimmed line := by
  intro text found
  have all : (blocks (lines text.toList)).map blockText = found := by
    rw [← ofLines_blocks]
    simp only [text, String.toList_append]
    decide +kernel
  have read := certificates_found text
  rw [all] at read
  exact read

end StoreBridge.Postgres.Certificates
