import StoreBridge.Postgres.Settings
import StoreBridge.Proofs.Text.Numerals

/-!
Connection strings as a client reads them: a key, an equals sign and a value, with blanks between
one pair and the next. A value that begins with a quote ends at the next quote, one that does not
ends at a blank, and a backslash in either makes the next character part of the value. What is
written into a string is read as the settings that it was made of, and as nothing else.
-/
namespace StoreBridge.Postgres

namespace ConnectionText

/-- The white space of ASCII. -/
def isBlank (c : Char) : Bool := c == ' ' || (9 ≤ c.toNat && c.toNat ≤ 13)

def skipBlanks (s : List Char) : List Char := s.dropWhile isBlank

def isKeyChar (c : Char) : Bool := c != '=' && !isBlank c

/-- A key with the equals sign behind it. Blanks may stand between the two. -/
def key? (s : List Char) : Option (List Char × List Char) :=
  match skipBlanks (s.dropWhile isKeyChar) with
  | '=' :: rest => some (s.takeWhile isKeyChar, rest)
  | _ => none

def quoted? : List Char → Option (List Char × List Char)
  | [] => none
  | '\'' :: rest => some ([], rest)
  | ['\\'] => none
  | '\\' :: c :: rest => (quoted? rest).map fun (value, rest) => (c :: value, rest)
  | c :: rest => (quoted? rest).map fun (value, rest) => (c :: value, rest)

def plain : List Char → List Char × List Char
  | [] => ([], [])
  | ['\\'] => ([], [])
  | '\\' :: c :: rest => (c :: (plain rest).1, (plain rest).2)
  | c :: rest => if isBlank c then ([], rest) else (c :: (plain rest).1, (plain rest).2)

def value? (s : List Char) : Option (List Char × List Char) :=
  match skipBlanks s with
  | '\'' :: rest => quoted? rest
  | s => some (plain s)

def pair? (s : List Char) : Option ((String × String) × List Char) :=
  (key? (skipBlanks s)).bind fun (key, rest) =>
    (value? rest).map fun (value, rest) => ((String.ofList key, String.ofList value), rest)

theorem skipBlanks_length (s : List Char) : (skipBlanks s).length ≤ s.length :=
  (List.dropWhile_sublist isBlank).length_le

theorem key?_shorter {s key rest : List Char} (read : key? s = some (key, rest)) :
    rest.length < s.length := by
  unfold key? at read
  have front := (List.dropWhile_sublist isKeyChar (l := s)).length_le
  have behind := skipBlanks_length (s.dropWhile isKeyChar)
  split at read
  · rename_i sign
    obtain ⟨_, rfl⟩ := Prod.mk.inj (Option.some.inj read)
    rw [sign, List.length_cons] at behind
    omega
  · contradiction

theorem quoted?_shorter {s value rest : List Char} (read : quoted? s = some (value, rest)) :
    rest.length ≤ s.length := by
  fun_induction quoted? s generalizing value rest with
  | case1 => contradiction
  | case2 s =>
    obtain ⟨_, rfl⟩ := Prod.mk.inj (Option.some.inj read)
    simp
  | case3 => contradiction
  | case4 c s ih =>
    obtain ⟨⟨others, _⟩, later, same⟩ := Option.map_eq_some_iff.mp read
    obtain ⟨_, rfl⟩ := Prod.mk.inj same
    have less := ih later
    simp only [List.length_cons]
    omega
  | case5 c s _ _ _ ih =>
    obtain ⟨⟨others, _⟩, later, same⟩ := Option.map_eq_some_iff.mp read
    obtain ⟨_, rfl⟩ := Prod.mk.inj same
    have less := ih later
    simp only [List.length_cons]
    omega

theorem plain_shorter (s : List Char) : (plain s).2.length ≤ s.length := by
  fun_induction plain s <;> grind

theorem value?_shorter {s value rest : List Char} (read : value? s = some (value, rest)) :
    rest.length ≤ s.length := by
  unfold value? at read
  have front := skipBlanks_length s
  split at read
  · rename_i opened
    have less := quoted?_shorter read
    rw [opened, List.length_cons] at front
    omega
  · have less := plain_shorter (skipBlanks s)
    rw [Option.some.inj read] at less
    exact Nat.le_trans less front

theorem pair?_shorter {s rest : List Char} {pair : String × String}
    (read : pair? s = some (pair, rest)) : rest.length < s.length := by
  obtain ⟨⟨key, middle⟩, named, valued⟩ := Option.bind_eq_some_iff.mp read
  obtain ⟨⟨value, _⟩, found, same⟩ := Option.map_eq_some_iff.mp valued
  obtain ⟨_, rfl⟩ := Prod.mk.inj same
  have less := value?_shorter found
  have fewer := key?_shorter named
  have front := skipBlanks_length s
  omega

def pairs? (s : List Char) : Option (List (String × String)) :=
  if s.all isBlank then some []
  else
    match _ : pair? s with
    | none => none
    | some (pair, rest) => (pairs? rest).map (pair :: ·)
termination_by s.length
decreasing_by exact pair?_shorter ‹_›

theorem pairs?_eq (s : List Char) :
    pairs? s =
      if s.all isBlank then some []
      else (pair? s).bind fun (pair, rest) => (pairs? rest).map (pair :: ·) := by
  rw [pairs?]
  split
  · rfl
  · cases pair? s <;> rfl

theorem pairs?_blank {c : Char} (blank : isBlank c) (s : List Char) :
    pairs? (c :: s) = pairs? s := by
  have skipped : skipBlanks (c :: s) = skipBlanks s := List.dropWhile_cons_of_pos blank
  have same : pair? (c :: s) = pair? s := by rw [pair?, pair?, skipped]
  rw [pairs?_eq, pairs?_eq s, same, List.all_cons, blank, Bool.true_and]

/-! ### What is written is read -/

theorem key?_written {key : List Char} (named : ∀ c ∈ key, isKeyChar c) (rest : List Char) :
    key? (key ++ '=' :: rest) = some (key, rest) := by
  have sign : ¬isKeyChar '=' := by decide
  have plain : ¬isBlank '=' := by decide
  rw [key?, List.dropWhile_append_of_pos named, List.takeWhile_append_of_pos named,
    List.dropWhile_cons_of_neg sign, List.takeWhile_cons_of_neg sign, skipBlanks,
    List.dropWhile_cons_of_neg plain, List.append_nil]
  rfl

theorem skipBlanks_key {key : List Char} (named : ∀ c ∈ key, isKeyChar c) (rest : List Char) :
    skipBlanks (key ++ '=' :: rest) = key ++ '=' :: rest := by
  cases key with
  | nil => rfl
  | cons c others =>
    have first := named c List.mem_cons_self
    simp only [isKeyChar, Bool.and_eq_true, Bool.not_eq_true'] at first
    rw [List.cons_append, skipBlanks, List.dropWhile_cons_of_neg (by simp [first.2])]

theorem quoted?_escaped (value rest : List Char) :
    quoted? (value.flatMap ConnectionParameter.escape ++ '\'' :: rest) = some (value, rest) := by
  induction value with
  | nil => rfl
  | cons c value ih =>
    rw [List.flatMap_cons, List.append_assoc, ConnectionParameter.escape]
    split
    · rw [List.cons_append, List.singleton_append, quoted?, ih]
      rfl
    · rename_i other
      rw [List.singleton_append, quoted?, ih]
      · rfl
      · exact fun same => other (.inr same)
      · exact fun same _ => other (.inl same)
      · exact fun _ _ same _ => other (.inl same)

theorem value?_quote (value : String) (rest : List Char) :
    value? ((ConnectionParameter.quote value).toList ++ rest) = some (value.toList, rest) := by
  have text : (ConnectionParameter.quote value).toList ++ rest =
      '\'' :: (value.toList.flatMap ConnectionParameter.escape ++ '\'' :: rest) := by
    simp [ConnectionParameter.quote]
  have plain : ¬isBlank '\'' := by decide
  rw [text, value?, skipBlanks, List.dropWhile_cons_of_neg plain]
  exact quoted?_escaped value.toList rest

def isPlainChar (c : Char) : Bool := !isBlank c && c != '\\' && c != '\''

theorem plain_written {value rest : List Char} (plainly : ∀ c ∈ value, isPlainChar c)
    (ends : ∀ c ∈ rest.head?, isBlank c) : plain (value ++ rest) = (value, rest.tail) := by
  induction value with
  | nil =>
    cases rest with
    | nil => rfl
    | cons c rest =>
      have blank : isBlank c := ends c rfl
      have other : c ≠ '\\' := by
        rintro rfl
        exact absurd blank (by decide)
      rw [List.nil_append, plain, if_pos blank, List.tail_cons]
      · exact fun same _ => other same
      · exact fun _ _ same _ => other same
  | cons c value ih =>
    obtain ⟨first, others⟩ := List.forall_mem_cons.mp plainly
    simp only [isPlainChar, Bool.and_eq_true, Bool.not_eq_true', bne_iff_ne] at first
    obtain ⟨⟨visible, other⟩, _⟩ := first
    rw [List.cons_append, plain, if_neg (by simp [visible]), ih others]
    · exact fun same _ => other same
    · exact fun _ _ same _ => other same

theorem value?_plain {value rest : List Char} (some : value ≠ [])
    (plainly : ∀ c ∈ value, isPlainChar c) (ends : ∀ c ∈ rest.head?, isBlank c) :
    value? (value ++ rest) = .some (value, rest.tail) := by
  obtain ⟨c, others, rfl⟩ := List.exists_cons_of_ne_nil some
  have first := plainly c List.mem_cons_self
  simp only [isPlainChar, Bool.and_eq_true, Bool.not_eq_true', bne_iff_ne] at first
  obtain ⟨⟨visible, _⟩, unquoted⟩ := first
  have skipped : skipBlanks (c :: others ++ rest) = c :: others ++ rest := by
    rw [List.cons_append, skipBlanks, List.dropWhile_cons_of_neg (by simp [visible])]
  rw [value?, skipped, List.cons_append]
  split
  · rename_i same
    exact absurd (List.cons.inj same).1 unquoted
  · exact congrArg Option.some (plain_written plainly ends)

/-- What can be written as a pair: the key is a word, and so is the value where it is not quoted. -/
structure Writable (p : ConnectionParameter) : Prop where
  key : ∀ c ∈ p.key.toList, isKeyChar c
  value : p.isQuoted ∨ p.value.toList ≠ [] ∧ ∀ c ∈ p.value.toList, isPlainChar c

theorem value?_text {p : ConnectionParameter} (writable : Writable p) {rest : List Char}
    (ends : ∀ c ∈ rest.head?, isBlank c) :
    value? ((if p.isQuoted then ConnectionParameter.quote p.value else p.value).toList ++ rest) =
      some (p.value.toList, if p.isQuoted then rest else rest.tail) := by
  cases quotes : p.isQuoted with
  | true => exact value?_quote p.value rest
  | false =>
    obtain ⟨some, plainly⟩ := writable.value.resolve_left (by simp [quotes])
    exact value?_plain some plainly ends

theorem pair?_text {p : ConnectionParameter} (writable : Writable p) {rest : List Char}
    (ends : ∀ c ∈ rest.head?, isBlank c) :
    pair? (p.text.toList ++ rest) =
      some ((p.key, p.value), if p.isQuoted then rest else rest.tail) := by
  have text : p.text.toList ++ rest = p.key.toList ++ '=' ::
      ((if p.isQuoted then ConnectionParameter.quote p.value else p.value).toList ++ rest) := by
    simp [ConnectionParameter.text]
  rw [text, pair?, skipBlanks_key writable.key, key?_written writable.key, Option.bind_some]
  simp only [value?_text writable ends, Option.map_some, String.ofList_toList]

theorem pairs?_text {p : ConnectionParameter} (writable : Writable p) {rest : List Char}
    (ends : ∀ c ∈ rest.head?, isBlank c) :
    pairs? (p.text.toList ++ rest) = (pairs? rest).map ((p.key, p.value) :: ·) := by
  have filled : (p.text.toList ++ rest).all isBlank = false := by
    have sign : isBlank '=' = false := by decide
    simp [ConnectionParameter.text, sign]
  have behind : pairs? (if p.isQuoted then rest else rest.tail) = pairs? rest := by
    split
    · rfl
    · cases rest with
      | nil => rfl
      | cons c rest => exact (pairs?_blank (ends c rfl) rest).symm
  rw [pairs?_eq, filled, pair?_text writable ends]
  simp only [Bool.false_eq_true, if_false, Option.bind_some, behind]

theorem pairs?_joined {ps : List ConnectionParameter} (writable : ∀ p ∈ ps, Writable p) :
    pairs? (List.intercalate [' '] (ps.map fun p => p.text.toList)) =
      some (ps.map fun p => (p.key, p.value)) := by
  induction ps with
  | nil => rw [List.map_nil, List.intercalate_nil, pairs?_eq]; rfl
  | cons p rest ih =>
    obtain ⟨first, others⟩ := List.forall_mem_cons.mp writable
    have later := ih others
    cases rest with
    | nil =>
      have alone := pairs?_text first (show ∀ c ∈ ([] : List Char).head?, isBlank c by simp)
      rw [List.append_nil] at alone
      rw [List.map_singleton, List.intercalate_singleton, alone]
      exact congrArg _ later
    | cons next rest =>
      rw [List.map_cons] at later
      rw [List.map_cons, List.map_cons, List.intercalate_cons_cons, List.append_assoc,
        List.singleton_append, pairs?_text first (by simp [isBlank]), pairs?_blank (by decide),
        later]
      rfl

theorem isPlainChar_digit {c : Char} (digit : Digits.isDigit c) : isPlainChar c := by
  simp only [Digits.isDigit, Bool.and_eq_true, decide_eq_true_eq] at digit
  have space : c ≠ ' ' := by rintro rfl; exact absurd digit (by decide)
  have slash : c ≠ '\\' := by rintro rfl; exact absurd digit (by decide)
  have quote : c ≠ '\'' := by rintro rfl; exact absurd digit (by decide)
  have visible : c.toNat < 9 ∨ 13 < c.toNat := by omega
  simp [isPlainChar, isBlank, space, slash, quote, visible]

theorem writable_number {key : String} (named : key.toList.all isKeyChar) (n : Nat) :
    Writable ⟨key, Digits.ofNat n, false⟩ := by
  refine ⟨List.all_eq_true.mp named, .inr ⟨?_, fun c mem => ?_⟩⟩
  · rw [Digits.toList_ofNat]
    exact Nat.toDigits_ne_nil
  · rw [Digits.toList_ofNat] at mem
    exact isPlainChar_digit (Digits.isDigit_mem mem)

theorem writable_quoted {key : String} (named : key.toList.all isKeyChar) (value : String) :
    Writable ⟨key, value, true⟩ := ⟨List.all_eq_true.mp named, .inl rfl⟩

theorem writable_sslMode (mode : SslMode) : Writable ⟨"sslmode", mode.name, false⟩ := by
  have chars : "sslmode".toList.all isKeyChar ∧ mode.name.toList ≠ [] ∧
      mode.name.toList.all isPlainChar := by
    cases mode <;> decide
  obtain ⟨named, some, plainly⟩ := chars
  exact ⟨List.all_eq_true.mp named, .inr ⟨some, List.all_eq_true.mp plainly⟩⟩

end ConnectionText

/-- The connection string of any settings is read as exactly the seven pairs that say them. -/
theorem Settings.connectionString_pairs (s : Settings) :
    ConnectionText.pairs? s.connectionString.toList =
      some [("host", s.host), ("port", Digits.ofNat s.tcpPort.toNat), ("dbname", s.database),
        ("user", s.username), ("password", s.password), ("sslmode", s.sslMode.name),
        ("connect_timeout", "10")] := by
  have writable : ∀ p ∈ s.parameters, ConnectionText.Writable p := by
    simp only [parameters, List.forall_mem_cons]
    exact ⟨ConnectionText.writable_quoted (by decide) _,
      ConnectionText.writable_number (by decide) _,
      ConnectionText.writable_quoted (by decide) _, ConnectionText.writable_quoted (by decide) _,
      ConnectionText.writable_quoted (by decide) _, ConnectionText.writable_sslMode s.sslMode,
      ConnectionText.writable_number (by decide) _, by simp⟩
  have text : s.connectionString.toList =
      List.intercalate [' '] (s.parameters.map fun p => p.text.toList) := by
    rw [connectionString, String.toList_intercalate, List.map_map]
    rfl
  rw [text, ConnectionText.pairs?_joined writable]
  rfl

end StoreBridge.Postgres
