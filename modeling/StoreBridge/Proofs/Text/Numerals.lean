import Mathlib.Data.Nat.Digits.Defs
import StoreBridge.Number.Digits

/-!
Whole numbers as decimal text, read back. The text of a number has digits only and no zero in
front, apart from the number zero.
-/
namespace StoreBridge.Digits

variable {n : Nat} {c : Char} {rest : List Char}

theorem isDigit_mem (mem : c ∈ Nat.toDigits 10 n) : isDigit c := by
  have digit : c.isDigit := Nat.isDigit_of_mem_toDigits (by decide) (by decide) mem
  simp only [Char.isDigit, Bool.and_eq_true, decide_eq_true_eq, UInt32.le_iff_toNat_le,
    ge_iff_le] at digit
  simp only [isDigit, Bool.and_eq_true, decide_eq_true_eq]
  exact digit

theorem toNat_snoc (digits : List Char) (c : Char) :
    toNat (digits ++ [c]) = 10 * toNat digits + value c := by
  rw [toNat, List.foldl_append]
  rfl

theorem toNat_toDigits (n : Nat) : toNat (Nat.toDigits 10 n) = n := by
  have same : toNat (Nat.toDigits 10 n) = Nat.ofDigitChars 10 (Nat.toDigits 10 n) 0 := by
    rw [Nat.ofDigitChars_eq_foldl]
    rfl
  rw [same, Nat.ofDigitChars_ten_toDigits]

theorem toNat?_toDigits (n : Nat) : toNat? (Nat.toDigits 10 n) = some n := by
  have digits : (Nat.toDigits 10 n).all isDigit :=
    List.all_eq_true.mpr fun _ mem => isDigit_mem mem
  have filled : (Nat.toDigits 10 n).isEmpty = false :=
    List.isEmpty_eq_false_iff.mpr Nat.toDigits_ne_nil
  rw [toNat?, filled, digits, toNat_toDigits]
  rfl

theorem toDigits_cons (n : Nat) : ∃ c rest, Nat.toDigits 10 n = c :: rest ∧ isDigit c := by
  cases form : Nat.toDigits 10 n with
  | nil => exact absurd form Nat.toDigits_ne_nil
  | cons c rest => exact ⟨c, rest, rfl, isDigit_mem (n := n) (form ▸ List.mem_cons_self)⟩

theorem digitChar_zero : ∀ n < 10, Nat.digitChar n = '0' → n = 0 := by decide

theorem zero_toDigits (leading : Nat.toDigits 10 n = '0' :: rest) : n = 0 := by
  induction n using Nat.strongRecOn generalizing rest with
  | ind n ih =>
    by_cases small : n < 10
    · rw [Nat.toDigits_of_lt_base small] at leading
      exact digitChar_zero n small (List.cons.inj leading).1
    · rw [Nat.toDigits_of_base_le (by decide) (by omega)] at leading
      cases front : Nat.toDigits 10 (n / 10) with
      | nil => exact absurd front Nat.toDigits_ne_nil
      | cons first others =>
        rw [front] at leading
        obtain rfl := (List.cons.inj leading).1
        have none := ih (n / 10) (by omega) front
        omega

theorem split_toDigits (n : Nat) (ends : ∀ c ∈ rest.head?, isDigit c = false) :
    split (Nat.toDigits 10 n ++ rest) = (Nat.toDigits 10 n, rest) := by
  have stop : rest.takeWhile isDigit = [] ∧ rest.dropWhile isDigit = rest := by
    cases rest with
    | nil => exact ⟨rfl, rfl⟩
    | cons c rest =>
      have other := ends c rfl
      simp [other]
  rw [split, List.takeWhile_append_of_pos fun _ => isDigit_mem,
    List.dropWhile_append_of_pos fun _ => isDigit_mem, stop.1, stop.2, List.append_nil]

theorem toList_ofNat (n : Nat) : (ofNat n).toList = Nat.toDigits 10 n := Nat.toList_repr

theorem ofInt_cons (i : Int) :
    ∃ c rest, (ofInt i).toList = c :: rest ∧ (c = '-' ∨ isDigit c) := by
  unfold ofInt
  split
  · rw [String.toList_append]
    exact ⟨_, _, rfl, .inl rfl⟩
  · obtain ⟨c, rest, form, digit⟩ := toDigits_cons i.natAbs
    rw [toList_ofNat]
    exact ⟨c, rest, form, .inr digit⟩

end StoreBridge.Digits
