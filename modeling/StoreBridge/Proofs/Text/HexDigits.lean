import Mathlib.Data.List.Induction
import StoreBridge.ObjectId
import StoreBridge.Text.Blank

/-!
Generated identities as text. Twenty-four hexadecimal digits are read as an identity, which is
written with the same digits in small letters; no other text is read as one.
-/
namespace StoreBridge.Text

namespace Hex

def isDigit (c : Char) : Bool :=
  ('0' ≤ c && c ≤ '9') || ('a' ≤ c && c ≤ 'f') || ('A' ≤ c && c ≤ 'F')

theorem isDigit_ascii {c : Char} (digit : isDigit c) : c.toNat < 128 := by
  simp only [isDigit, Bool.or_eq_true, Bool.and_eq_true, decide_eq_true_eq, Char.le_def,
    UInt32.le_iff_toNat_le] at digit
  change c.val.toNat < 128
  have letters : ('9' : Char).val.toNat = 57 ∧ ('f' : Char).val.toNat = 102 ∧
      ('F' : Char).val.toNat = 70 := by decide
  omega

theorem value?_isDigit {c : Char} (hex : isDigit c) :
    ∃ n, value? c = some n ∧ n < 16 ∧ digit n = c.toLower := by
  have ascii : ∀ code < 128, isDigit (Char.ofNat code) →
      ∃ n < 16, value? (Char.ofNat code) = some n ∧ digit n = (Char.ofNat code).toLower := by
    decide
  have own := ascii c.toNat (isDigit_ascii hex)
  rw [Char.ofNat_toNat] at own
  obtain ⟨n, small, read, written⟩ := own hex
  exact ⟨n, read, small, written⟩

theorem isDigit_value? {c : Char} {n : Nat} (read : value? c = some n) : isDigit c := by
  simp only [isDigit, Bool.or_eq_true, Bool.and_eq_true, decide_eq_true_eq, Char.le_def,
    UInt32.le_iff_toNat_le]
  have letters : ('0' : Char).val.toNat = 48 ∧ ('9' : Char).val.toNat = 57 ∧
      ('a' : Char).val.toNat = 97 ∧ ('f' : Char).val.toNat = 102 ∧
      ('A' : Char).val.toNat = 65 ∧ ('F' : Char).val.toNat = 70 := by decide
  have code : c.toNat = c.val.toNat := rfl
  simp only [value?] at read
  split at read
  · omega
  · split at read
    · omega
    · split at read
      · omega
      · contradiction

theorem digit_value? {c : Char} {n : Nat} (read : value? c = some n) :
    n < 16 ∧ digit n = c.toLower := by
  obtain ⟨m, again, small, letter⟩ := value?_isDigit (isDigit_value? read)
  obtain rfl := Option.some.inj (again.symm.trans read)
  exact ⟨small, letter⟩

theorem toNat?_snoc (digits : List Char) (c : Char) :
    toNat? (digits ++ [c]) =
      (toNat? digits).bind fun n => (value? c).map (16 * n + ·) := by
  rw [toNat?, List.foldl_append]
  rfl

theorem ofNat_toNat? {digits : List Char} (hex : ∀ c ∈ digits, isDigit c) :
    ∃ n, toNat? digits = some n ∧ n < 16 ^ digits.length ∧
      ofNat digits.length n = digits.map Char.toLower := by
  induction digits using List.reverseRecOn with
  | nil => exact ⟨0, rfl, by simp, rfl⟩
  | append_singleton digits c ih =>
    obtain ⟨high, read, bound, written⟩ := ih fun d mem => hex d (List.mem_append_left _ mem)
    obtain ⟨low, last, small, letter⟩ := value?_isDigit (hex c (by simp))
    refine ⟨16 * high + low, ?_, ?_, ?_⟩
    · rw [toNat?_snoc, read, last]
      rfl
    · rw [List.length_append, List.length_singleton, Nat.pow_succ]
      omega
    · have front : (16 * high + low) / 16 = high := by omega
      have back : (16 * high + low) % 16 = low := by omega
      rw [ofNat] at written ⊢
      rw [List.length_append, List.length_singleton, Places.ofNat, front, back, written, letter,
        List.map_append, List.map_singleton]

theorem isDigit_toNat? {digits : List Char} {n : Nat} (read : toNat? digits = some n) :
    ∀ c ∈ digits, isDigit c := by
  induction digits using List.reverseRecOn generalizing n with
  | nil => simp
  | append_singleton digits c ih =>
    rw [toNat?_snoc, Option.bind_eq_some_iff] at read
    obtain ⟨high, front, last⟩ := read
    obtain ⟨low, digit, _⟩ := Option.map_eq_some_iff.mp last
    intro d mem
    rcases List.mem_append.mp mem with inside | final
    · exact ih front d inside
    · rw [List.mem_singleton.mp final]
      exact isDigit_value? digit

theorem toNat?_ofNat (width n : Nat) : toNat? (ofNat width n) = some (n % 16 ^ width) := by
  refine Places.foldl_ofNat some (by decide) (fun m k small => ?_) width n
  rw [value?_digit k small, Option.bind_some, Option.map_some]

theorem digit_small : ∀ n < 16, isDigit (digit n) ∧ (digit n).toLower = digit n := by
  decide

theorem mem_ofNat {width n : Nat} {c : Char} (mem : c ∈ ofNat width n) :
    isDigit c ∧ c.toLower = c := by
  obtain ⟨k, small, rfl⟩ := Places.mem_ofNat (by decide) mem
  exact digit_small k small

end Hex

theorem toList_lower (s : String) : (lower s).toList = s.toList.map Char.toLower := by
  rw [lower, String.toList_map]

end StoreBridge.Text

namespace StoreBridge.ObjectId
open Text

def isText (s : String) : Bool := s.length == 24 && s.toList.all Hex.isDigit

theorem isText_iff {s : String} :
    isText s ↔ s.toList.length = 24 ∧ ∀ c ∈ s.toList, Hex.isDigit c := by
  simp only [isText, Bool.and_eq_true, beq_iff_eq, List.all_eq_true, String.length_toList]

theorem ofText?_isText {s : String} (hex : isText s) :
    ∃ id, ofText? s = some id ∧ id.text = lower s := by
  obtain ⟨length, digits⟩ := isText_iff.mp hex
  obtain ⟨n, read, bound, written⟩ := Hex.ofNat_toNat? digits
  rw [length] at bound written
  have fits : (BitVec.ofNat 96 n).toNat = n := by
    rw [BitVec.toNat_ofNat]
    exact Nat.mod_eq_of_lt (by omega)
  refine ⟨⟨BitVec.ofNat 96 n⟩, ?_, ?_⟩
  · simp only [ofText?, if_pos length, read, Option.map_some]
  · rw [text, ObjectId.digits, fits, written, ← toList_lower, String.ofList_toList]

theorem ofText?_other {s : String} (other : ¬isText s) : ofText? s = none := by
  rw [isText_iff, not_and] at other
  simp only [ofText?]
  split
  · rename_i length
    cases read : Hex.toNat? s.toList with
    | none => rfl
    | some n => exact absurd (Hex.isDigit_toNat? read) (other length)
  · rfl

theorem ofText?_text (id : ObjectId) : ofText? id.text = some id := by
  have length : id.text.toList.length = 24 := by
    rw [text, String.toList_ofList, digits, Places.length_ofNat]
  have read : Hex.toNat? id.text.toList = some id.value.toNat := by
    rw [text, String.toList_ofList, digits, Hex.toNat?_ofNat]
    exact congrArg some (Nat.mod_eq_of_lt id.value.isLt)
  simp only [ofText?, if_pos length, read, Option.map_some, BitVec.ofNat_toNat, BitVec.setWidth_eq]

theorem lower_text (id : ObjectId) : lower id.text = id.text := by
  rw [← String.toList_inj, toList_lower, text, String.toList_ofList, digits]
  exact (List.map_congr_left fun _ mem => (Hex.mem_ofNat mem).2).trans (List.map_id _)

end StoreBridge.ObjectId
