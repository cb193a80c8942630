import StoreBridge.Proofs.Text.HexDigits
import StoreBridge.Uuid

/-!
The forms of an identifier. Whichever of them is read, the bytes are those of its thirty-two digits,
and what is written from the bytes has the same digits in small letters and in groups.
-/
namespace StoreBridge

theorem Text.Hex.ofBytes_toBytes? {digits : List Char} {bytes : List UInt8}
    (read : toBytes? digits = some bytes) :
    ofBytes bytes = digits.map Char.toLower ∧ digits.length = 2 * bytes.length := by
  induction digits using toBytes?.induct generalizing bytes with
  | case1 =>
    obtain rfl := Option.some.inj read
    exact ⟨rfl, rfl⟩
  | case2 => contradiction
  | case3 first second others ih =>
    simp only [toBytes?, Option.bind_eq_bind, Option.bind_eq_some_iff, Option.some.injEq] at read
    obtain ⟨high, readHigh, low, readLow, behind, later, rfl⟩ := read
    obtain ⟨same, length⟩ := ih later
    obtain ⟨smallHigh, letterHigh⟩ := digit_value? readHigh
    obtain ⟨smallLow, letterLow⟩ := digit_value? readLow
    have small : 16 * high + low < 256 := by omega
    have byte : (UInt8.ofNat (16 * high + low)).toNat = 16 * high + low :=
      UInt8.toNat_ofNat_of_lt' small
    have front : (16 * high + low) / 16 = high := by omega
    have back : (16 * high + low) % 16 = low := by omega
    constructor
    · rw [ofBytes, byte, front, back, letterHigh, letterLow, same]
      rfl
    · rw [List.length_cons, List.length_cons, List.length_cons, length]
      omega

namespace Uuid
open Text

def grouped (d : List Char) : List Char :=
  d.take 8 ++ '-' :: (d.drop 8).take 4 ++ '-' :: (d.drop 12).take 4 ++
    '-' :: (d.drop 16).take 4 ++ '-' :: d.drop 20

def canonical (s : String) : String :=
  match digits? s.toList with
  | some digits => String.ofList (grouped (digits.map Char.toLower))
  | none => s

theorem ungroup?_length {s digits : List Char} (read : ungroup? s = some digits) :
    digits.length = 32 := by
  unfold ungroup? at read
  dsimp only at read
  split at read
  · rename_i form
    obtain rfl := Option.some.inj read
    simp only [List.length_append, List.length_take, List.length_drop, form.1]
    rfl
  · contradiction

theorem digits?_length {s digits : List Char} (read : digits? s = some digits) :
    digits.length = 32 := by
  unfold digits? at read
  split at read
  · rename_i bare
    exact Option.some.inj read ▸ bare
  · split at read
    · exact ungroup?_length read
    · split at read
      · split at read
        · exact ungroup?_length read
        · contradiction
      · split at read
        · exact ungroup?_length read
        · contradiction

theorem text_ofText? {s : String} {bytes : List UInt8} (read : ofText? s.toList = some bytes) :
    bytes.length = 16 ∧ text bytes = canonical s := by
  obtain ⟨digits, form, values⟩ := Option.bind_eq_some_iff.mp read
  obtain ⟨letters, length⟩ := Hex.ofBytes_toBytes? values
  have whole := digits?_length form
  constructor
  · omega
  · rw [text, canonical, form]
    exact congrArg (fun d => String.ofList (grouped d)) letters

end Uuid
end StoreBridge
