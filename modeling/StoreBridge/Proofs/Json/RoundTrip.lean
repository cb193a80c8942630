import StoreBridge.Json.Reader
import StoreBridge.Json.Writer
import StoreBridge.Proofs.Document.Boundary
import StoreBridge.Proofs.Text.HexDigits
import StoreBridge.Proofs.Text.Numerals

/-!
JSON that is written in one line and read back. What is written of a value says where it ends, so a
value inside others is read as it would be alone.
-/
namespace StoreBridge.Json
namespace Reader
open Text

variable {rest : List Char}

theorem string?_escapeChar (c : Char) (rest done : List Char) :
    string? (escapeChar c ++ rest) done = string? rest (c :: done) := by
  by_cases named : c ∈ ['"', '\\', '\x08', '\x0c', '\n', '\r', '\t']
  · simp only [List.mem_cons, List.not_mem_nil, or_false] at named
    rcases named with rfl | rfl | rfl | rfl | rfl | rfl | rfl <;> simp [escapeChar, string?]
  · simp only [List.mem_cons, List.not_mem_nil, or_false, not_or] at named
    by_cases control : c.toNat < 0x20
    · have read : Hex.toNat? (Hex.ofNat 4 c.toNat) = some c.toNat := by
        rw [Hex.toNat?_ofNat, Nat.mod_eq_of_lt (by omega)]
      obtain ⟨k, l, m, n, form⟩ : ∃ k l m n, Hex.ofNat 4 c.toNat = [k, l, m, n] :=
        ⟨_, _, _, _, rfl⟩
      have high : ¬(0xD800 ≤ c.toNat ∧ c.toNat ≤ 0xDBFF) := by omega
      have low : ¬(0xDC00 ≤ c.toNat ∧ c.toNat ≤ 0xDFFF) := by omega
      have written : escapeChar c = '\\' :: 'u' :: [k, l, m, n] := by
        simp [escapeChar, named, control, form]
      rw [form] at read
      rw [written]
      simp only [List.cons_append, List.nil_append, string?, codeUnit?, read, if_neg high,
        if_neg low, Char.ofNat_toNat]
    · have written : escapeChar c = [c] := by
        simp [escapeChar, named, control]
      rw [written, List.singleton_append, string?.eq_def]
      split <;> simp_all

theorem string?_quote (s : String) (rest : List Char) :
    string? (s.toList.flatMap escapeChar ++ '"' :: rest) [] = some (s, rest) := by
  have step : ∀ chars done, string? (chars.flatMap escapeChar ++ '"' :: rest) done =
      some (String.ofList (done.reverse ++ chars), rest) := by
    intro chars
    induction chars with
    | nil => simp [string?]
    | cons c others ih =>
      intro done
      rw [List.flatMap_cons, List.append_assoc, string?_escapeChar, ih]
      simp
  simpa using step s.toList []

def Ends (rest : List Char) : Prop := ∀ c ∈ rest.head?, c = ',' ∨ c = ']' ∨ c = '\x7d'

theorem Ends.digit (ends : Ends rest) : ∀ c ∈ rest.head?, Digits.isDigit c = false := by
  intro c mem
  rcases ends c mem with rfl | rfl | rfl <;> rfl

theorem whole?_toDigits (n : Nat) (ends : Ends rest) :
    whole? (Nat.toDigits 10 n ++ rest) = some (Nat.toDigits 10 n, rest) := by
  rw [whole?, Digits.split_toDigits n ends.digit]
  dsimp only
  split
  · rename_i empty
    exact absurd empty Nat.toDigits_ne_nil
  · rename_i leading
    obtain rfl := Digits.zero_toDigits leading
    simp at leading
  · rfl

theorem foldl_pushWhole {digits : List Char} (fits : Digits.toNat digits < 2 ^ 64) :
    digits.foldl Significand.pushWhole Significand.empty = ⟨Digits.toNat digits, 0, false⟩ := by
  induction digits using List.reverseRecOn with
  | nil => rfl
  | append_singleton digits c ih =>
    rw [Digits.toNat_snoc] at fits
    rw [List.foldl_append, ih (by omega), Digits.toNat_snoc]
    simp [Significand.pushWhole, fits]

theorem unsigned?_whole {digits s : List Char} (negative : Bool)
    (front : whole? s = some (digits, rest)) (ends : Ends rest) :
    unsigned? negative s =
      unsigned?.close negative (digits.foldl Significand.pushWhole Significand.empty)
        { digits.foldl Significand.pushWhole Significand.empty with full := false } [] rest := by
  rw [unsigned?, front]
  cases rest with
  | nil => rfl
  | cons c rest => rcases ends c rfl with rfl | rfl | rfl <;> rfl

theorem unsigned?_toDigits {n : Nat} (ends : Ends rest) (fits : n < 2 ^ 64) :
    unsigned? false (Nat.toDigits 10 n ++ rest) = some (.integer n, rest) := by
  have value : Digits.toNat (Nat.toDigits 10 n) < 2 ^ 64 := by
    rwa [Digits.toNat_toDigits]
  rw [unsigned?_whole false (whole?_toDigits n ends) ends, foldl_pushWhole value,
    Digits.toNat_toDigits]
  rfl

theorem unsigned?_negative {n : Nat} (ends : Ends rest) (some : n ≠ 0) (fits : n ≤ 2 ^ 63) :
    unsigned? true (Nat.toDigits 10 n ++ rest) = .some (.integer (-n), rest) := by
  have value : Digits.toNat (Nat.toDigits 10 n) < 2 ^ 64 := by
    rw [Digits.toNat_toDigits]
    omega
  rw [unsigned?_whole true (whole?_toDigits n ends) ends, foldl_pushWhole value,
    Digits.toNat_toDigits]
  simp [unsigned?.close, some, Nat.not_lt.mpr fits]

theorem number?_ofInt {i : Int} (ends : Ends rest) (low : -2 ^ 63 ≤ i) (high : i < 2 ^ 64) :
    number? ((Digits.ofInt i).toList ++ rest) = some (.integer i, rest) := by
  unfold Digits.ofInt
  split
  · rename_i negative
    have size : -(i.natAbs : Int) = i := by omega
    rw [String.toList_append, Digits.toList_ofNat]
    change unsigned? true (Nat.toDigits 10 i.natAbs ++ rest) = _
    rw [unsigned?_negative ends (by omega) (by omega), size]
  · rename_i positive
    have size : (i.natAbs : Int) = i := by omega
    obtain ⟨c, more, form, digit⟩ := Digits.toDigits_cons i.natAbs
    have sign : c ≠ '-' := by
      rintro rfl
      contradiction
    have read := unsigned?_toDigits ends (show i.natAbs < 2 ^ 64 by omega)
    rw [size, form] at read
    rw [Digits.toList_ofNat, form, List.cons_append, number?]
    · exact read
    · exact fun _ same => sign (List.cons.inj same).1

theorem skipSpace_cons {c : Char} (mark : isSpace c = false) (rest : List Char) :
    skipSpace (c :: rest) = c :: rest :=
  List.dropWhile_cons_of_neg (by simp [mark])

theorem number_start {c : Char} (first : c = '-' ∨ Digits.isDigit c) :
    c ∉ [' ', '\n', '\t', '\r', '"', '[', ']', '\x7b', 'n', 't', 'f'] := by
  simp only [List.mem_cons, List.not_mem_nil, or_false]
  rintro (rfl | rfl | rfl | rfl | rfl | rfl | rfl | rfl | rfl | rfl | rfl) <;>
    rcases first with sign | digit <;> contradiction

theorem isSpace_number {c : Char} (first : c = '-' ∨ Digits.isDigit c) : isSpace c = false := by
  have apart := number_start first
  simp_all [isSpace]

theorem value?_number {c : Char} (first : c = '-' ∨ Digits.isDigit c) (fuel depth : Nat)
    (s : List Char) : value? (fuel + 1) depth (c :: s) = number? (c :: s) := by
  have apart := number_start first
  rw [value?, skipSpace_cons (isSpace_number first)]
  split <;> simp_all

/-- The text of a value is read as the value, whatever stands behind it. -/
def Reads (depth : Nat) (j : Json) : Prop :=
  ∀ fuel rest, j.text.toList.length ≤ fuel → Ends rest →
    value? fuel depth (j.text.toList ++ rest) = some (j, rest)

theorem itemTexts_map (items : List Json) : itemTexts items = items.map text := by
  induction items with
  | nil => rfl
  | cons item rest ih => rw [itemTexts, ih, List.map_cons]

def fieldText (field : String × Json) : String := quote field.1 ++ ":" ++ field.2.text

theorem fieldTexts_map (fields : List (String × Json)) :
    fieldTexts fields = fields.map fieldText := by
  induction fields with
  | nil => rfl
  | cons field rest ih =>
    rw [fieldTexts, ih, List.map_cons]
    rfl

theorem toList_fieldText (field : String × Json) :
    (fieldText field).toList = (quote field.1).toList ++ ':' :: field.2.text.toList := by
  simp [fieldText]

def joined (texts : List String) : List Char := List.intercalate [','] (texts.map String.toList)

theorem joined_singleton (one : String) : joined [one] = one.toList := List.intercalate_singleton

theorem joined_cons (first second : String) (others : List String) :
    joined (first :: second :: others) = first.toList ++ ',' :: joined (second :: others) := by
  simp [joined, List.intercalate_cons_cons]

theorem joined_head {c : Char} {first : String} {more : List Char} (form : first.toList = c :: more)
    (others : List String) : ∃ behind, joined (first :: others) = c :: behind := by
  cases others with
  | nil => exact ⟨more, by rw [joined_singleton, form]⟩
  | cons second others => exact ⟨_, by rw [joined_cons, form]; rfl⟩

theorem text_array (items : List Json) :
    (Json.array items).text.toList = '[' :: (joined (items.map text) ++ [']']) := by
  simp [text, itemTexts_map, joined, String.toList_intercalate]

theorem text_object (fields : List (String × Json)) :
    (Json.object fields).text.toList =
      '\x7b' :: (joined (fields.map fieldText) ++ ['\x7d']) := by
  simp [text, fieldTexts_map, joined, String.toList_intercalate]

variable {depth fuel : Nat} {s : List Char}

theorem items?_last {item : Json} (own : value? fuel depth s = some (item, ']' :: rest)) :
    items? (fuel + 1) depth s = some ([item], rest) := by
  have mark := skipSpace_cons (c := ']') rfl rest
  simp [items?, own, mark]

theorem items?_more {item : Json} (own : value? fuel depth s = some (item, ',' :: rest)) :
    items? (fuel + 1) depth s =
      (items? fuel depth rest).map fun r => (item :: r.1, r.2) := by
  have mark := skipSpace_cons (c := ',') rfl rest
  simp [items?, own, mark]

theorem items?_joined {item : Json} {items : List Json}
    (reads : ∀ one ∈ item :: items, Reads depth one)
    (enough : (joined ((item :: items).map text)).length < fuel) :
    items? fuel depth (joined ((item :: items).map text) ++ ']' :: rest) =
      some (item :: items, rest) := by
  induction items generalizing item fuel with
  | nil =>
    obtain _ | fuel := fuel
    · contradiction
    · rw [List.map_singleton, joined_singleton] at enough ⊢
      apply items?_last
      exact reads item List.mem_cons_self fuel _ (by omega) (by simp [Ends])
  | cons second others ih =>
    obtain _ | fuel := fuel
    · contradiction
    · rw [List.map_cons, List.map_cons, joined_cons, ← List.map_cons] at enough ⊢
      rw [List.length_append, List.length_cons] at enough
      have later := @ih fuel second (fun one mem => reads one (List.mem_cons_of_mem item mem))
        (by omega)
      rw [List.append_assoc, List.cons_append, items?_more, later, Option.map_some]
      exact reads item List.mem_cons_self fuel _ (by omega) (by simp [Ends])

theorem fields?_last {key : String} {value : Json}
    (own : value? fuel depth s = some (value, '\x7d' :: rest)) :
    fields? (fuel + 1) depth ((quote key).toList ++ ':' :: s) = some ([(key, value)], rest) := by
  have opening := skipSpace_cons (c := '"') rfl
  have colon := skipSpace_cons (c := ':') rfl s
  have mark := skipSpace_cons (c := '\x7d') rfl rest
  simp [quote, fields?, opening, string?_quote, colon, own, mark]

theorem fields?_more {key : String} {value : Json}
    (own : value? fuel depth s = some (value, ',' :: rest)) :
    fields? (fuel + 1) depth ((quote key).toList ++ ':' :: s) =
      (fields? fuel depth rest).map fun r => ((key, value) :: r.1, r.2) := by
  have opening := skipSpace_cons (c := '"') rfl
  have colon := skipSpace_cons (c := ':') rfl s
  have mark := skipSpace_cons (c := ',') rfl rest
  simp [quote, fields?, opening, string?_quote, colon, own, mark]

theorem fields?_joined {field : String × Json} {fields : List (String × Json)}
    (reads : ∀ one ∈ field :: fields, Reads depth one.2)
    (enough : (joined ((field :: fields).map fieldText)).length < fuel) :
    fields? fuel depth (joined ((field :: fields).map fieldText) ++ '\x7d' :: rest) =
      some (field :: fields, rest) := by
  induction fields generalizing field fuel with
  | nil =>
    obtain _ | fuel := fuel
    · contradiction
    · rw [List.map_singleton, joined_singleton, toList_fieldText] at enough ⊢
      rw [List.length_append, List.length_cons] at enough
      rw [List.append_assoc, List.cons_append]
      apply fields?_last
      exact reads field List.mem_cons_self fuel _ (by omega) (by simp [Ends])
  | cons second others ih =>
    obtain _ | fuel := fuel
    · contradiction
    · rw [List.map_cons, List.map_cons, joined_cons, toList_fieldText, ← List.map_cons] at enough ⊢
      rw [List.length_append, List.length_append, List.length_cons, List.length_cons] at enough
      have later := @ih fuel second (fun one mem => reads one (List.mem_cons_of_mem field mem))
        (by omega)
      rw [List.append_assoc, List.append_assoc, List.cons_append, List.cons_append, fields?_more,
        later, Option.map_some]
      exact reads field List.mem_cons_self fuel _ (by omega) (by simp [Ends])

end Reader

open Reader

/-- The values that their text keeps: whole numbers have at most 64 bits, no name is written twice,
    and arrays and objects are nested at most `depth` deep. A double is not among them. -/
inductive Readable : Nat → Json → Prop where
  | null {depth : Nat} : Readable depth .null
  | bool {depth : Nat} {b : Bool} : Readable depth (.bool b)
  | integer {depth : Nat} {i : Int} (low : -2 ^ 63 ≤ i) (high : i < 2 ^ 64) :
    Readable depth (.integer i)
  | string {depth : Nat} {s : String} : Readable depth (.string s)
  | array {depth : Nat} {items : List Json} (inside : ∀ item ∈ items, Readable depth item) :
    Readable (depth + 1) (.array items)
  | object {depth : Nat} {fields : List (String × Json)} (distinct : (Entries.keys fields).Nodup)
    (inside : ∀ field ∈ fields, Readable depth field.2) : Readable (depth + 1) (.object fields)

variable {depth : Nat} {j : Json}

theorem Readable.head (readable : Readable depth j) :
    ∃ c rest, j.text.toList = c :: rest ∧ isSpace c = false ∧ c ≠ ']' := by
  cases readable with
  | null => exact ⟨_, _, rfl, by decide⟩
  | @bool _ b => cases b <;> exact ⟨_, _, rfl, by decide⟩
  | @integer _ i =>
    obtain ⟨c, rest, form, first⟩ := Digits.ofInt_cons i
    have apart := number_start first
    refine ⟨c, rest, form, isSpace_number first, ?_⟩
    rintro rfl
    contradiction
  | string => exact ⟨'"', _, by rw [text, quote, String.toList_ofList]; rfl, by decide⟩
  | array => exact ⟨'[', _, text_array _, by decide⟩
  | object => exact ⟨'\x7b', _, text_object _, by decide⟩

theorem reads_array {items : List Json} (heads : ∀ item ∈ items, ∃ c rest,
      item.text.toList = c :: rest ∧ isSpace c = false ∧ c ≠ ']')
    (reads : ∀ item ∈ items, Reads (depth + 1) item) : Reads (depth + 2) (.array items) := by
  intro fuel rest enough _
  rw [text_array, List.length_cons, List.length_append, List.length_singleton] at enough
  rw [text_array]
  obtain _ | fuel := fuel
  · contradiction
  · have opening := skipSpace_cons (c := '[') rfl
    cases items with
    | nil =>
      have closing := skipSpace_cons (c := ']') rfl rest
      simp [joined, value?, opening, closing]
    | cons item items =>
      obtain ⟨c, more, form, blank, bracket⟩ := heads item List.mem_cons_self
      obtain ⟨behind, front⟩ := joined_head form (items.map text)
      have room : (joined ((item :: items).map text)).length < fuel := by omega
      have inner := @items?_joined rest _ _ _ _ reads room
      rw [List.map_cons, front, List.cons_append] at inner
      have start := skipSpace_cons blank (behind ++ ']' :: rest)
      simp [value?, opening, front, start, bracket, inner]

theorem reads_object {fields : List (String × Json)} (distinct : (Entries.keys fields).Nodup)
    (reads : ∀ field ∈ fields, Reads (depth + 1) field.2) :
    Reads (depth + 2) (.object fields) := by
  intro fuel rest enough _
  rw [text_object, List.length_cons, List.length_append, List.length_singleton] at enough
  rw [text_object]
  obtain _ | fuel := fuel
  · contradiction
  · have opening := skipSpace_cons (c := '\x7b') rfl
    cases fields with
    | nil =>
      have closing := skipSpace_cons (c := '\x7d') rfl rest
      simp [joined, value?, opening, closing]
    | cons field fields =>
      have key : ∃ more, (fieldText field).toList = '"' :: more := by
        simp [fieldText, quote]
      obtain ⟨more, form⟩ := key
      obtain ⟨behind, front⟩ := joined_head form (fields.map fieldText)
      have room : (joined ((field :: fields).map fieldText)).length < fuel := by omega
      have inner := @fields?_joined rest _ _ _ _ reads room
      rw [List.map_cons, front, List.cons_append] at inner
      have start := skipSpace_cons (c := '"') rfl (behind ++ '\x7d' :: rest)
      simp [value?, opening, front, start, inner, Entries.ofList_distinct distinct]

theorem reads_part {c : Char} {more : List Char} (form : j.text.toList = c :: more)
    (read : ∀ fuel rest, Ends rest →
      value? (fuel + 1) depth (c :: (more ++ rest)) = some (j, rest)) : Reads depth j := by
  intro fuel rest enough ends
  rw [form] at enough ⊢
  obtain _ | fuel := fuel
  · contradiction
  · exact read fuel rest ends

theorem word?_append (word : String) (rest : List Char) :
    word? word (word.toList ++ rest) = some rest := by
  have front : word.toList.isPrefixOf (word.toList ++ rest) := by
    simp
  rw [word?, if_pos front, ← String.length_toList, List.drop_left]

theorem reads_null : Reads depth .null := by
  apply reads_part (show Json.null.text.toList = 'n' :: "ull".toList by rfl)
  intro fuel rest _
  rw [value?, skipSpace_cons (by rfl)]
  exact congrArg (Option.map fun r => (Json.null, r)) (word?_append "ull" rest)

theorem reads_bool (b : Bool) : Reads depth (.bool b) := by
  cases b with
  | true =>
    apply reads_part (show (Json.bool true).text.toList = 't' :: "rue".toList by rfl)
    intro fuel rest _
    rw [value?, skipSpace_cons (by rfl)]
    exact congrArg (Option.map fun r => (Json.bool true, r)) (word?_append "rue" rest)
  | false =>
    apply reads_part (show (Json.bool false).text.toList = 'f' :: "alse".toList by rfl)
    intro fuel rest _
    rw [value?, skipSpace_cons (by rfl)]
    exact congrArg (Option.map fun r => (Json.bool false, r)) (word?_append "alse" rest)

theorem reads_integer {i : Int} (low : -2 ^ 63 ≤ i) (high : i < 2 ^ 64) :
    Reads depth (.integer i) := by
  obtain ⟨c, more, form, first⟩ := Digits.ofInt_cons i
  apply reads_part (show (Json.integer i).text.toList = c :: more by rw [text, form])
  intro fuel rest ends
  rw [value?_number first, ← List.cons_append, ← form]
  exact number?_ofInt ends low high

theorem reads_string (s : String) : Reads depth (.string s) := by
  have form : (Json.string s).text.toList = '"' :: (s.toList.flatMap escapeChar ++ ['"']) := by
    simp [text, quote]
  apply reads_part form
  intro fuel rest _
  have opening := skipSpace_cons (c := '"') rfl
  simp [value?, opening, string?_quote]

theorem Readable.reads (readable : Readable depth j) : Reads (depth + 1) j := by
  induction readable with
  | null => exact reads_null
  | bool => exact reads_bool _
  | integer low high => exact reads_integer low high
  | string => exact reads_string _
  | array inside ih => exact reads_array (fun item mem => (inside item mem).head) ih
  | object distinct inside ih => exact reads_object distinct ih

theorem ofText?_text (readable : Readable 127 j) : ofText? j.text = some j := by
  have own := readable.reads (2 * j.text.toList.length + 2) [] (by omega) (by simp [Ends])
  rw [List.append_nil] at own
  rw [ofText?, ofTextWithin?, nestingLimit, own]
  rfl

end StoreBridge.Json
