import Mathlib.Data.List.Forall2
import StoreBridge.Postgres.Decode

/-!
Numbers and text as bytes, and arrays as frames, read back. A frame says how many items it has and
how long each of them is, so what is written into it comes out as it went in, as long as the
numbers fit.
-/
namespace StoreBridge.Postgres

namespace Bytes

theorem toNat_ofNat (width n : Nat) : toNat (ofNat width n) = n % 256 ^ width := by
  refine Places.foldl_ofNat id (by decide) (fun m k small => ?_) width n
  rw [UInt8.toNat_ofNat_of_lt' small]
  rfl

theorem toInt_ofNat {n : Nat} (fits : n ≤ greatestLength) : toInt (ofNat 4 n) = n := by
  have small : n < 2 ^ 31 := by
    unfold greatestLength at fits
    omega
  have same : n % 256 ^ 4 = n := Nat.mod_eq_of_lt (by omega)
  rw [toInt, toNat_ofNat, Places.length_ofNat, same, if_pos]
  omega

theorem toInt_ofInt (width : Nat) (i : Int) :
    toInt (ofInt width i) = i ↔ -256 ^ width ≤ 2 * i ∧ 2 * i < 256 ^ width := by
  have size : (0 : Int) < 256 ^ width := Int.pow_pos (by decide)
  have least := Int.emod_nonneg i (Int.ne_of_gt size)
  have greatest := Int.emod_lt_of_pos i size
  have read : (toNat (ofInt width i) : Int) = i % 256 ^ width := by
    rw [ofInt, toNat_ofNat, Int.natCast_emod, Int.toNat_of_nonneg least]
    exact Int.emod_emod_of_dvd i (Int.dvd_refl _)
  have value : toInt (ofInt width i) =
      if 2 * (i % 256 ^ width) < 256 ^ width then i % 256 ^ width
      else i % 256 ^ width - 256 ^ width := by
    rw [toInt, read, ofInt, Places.length_ofNat]
  rw [value]
  constructor
  · intro same
    split at same <;> omega
  · rintro ⟨low, high⟩
    by_cases positive : 0 ≤ i
    · have same : i % 256 ^ width = i := Int.emod_eq_of_lt positive (by omega)
      rw [same, if_pos high]
    · have same : i % 256 ^ width = i + 256 ^ width := by
        rw [← Int.add_emod_right]
        exact Int.emod_eq_of_lt (by omega) (by omega)
      rw [same, if_neg (by omega)]
      omega

theorem split?_append {front : List UInt8} {width : Nat} (length : front.length = width)
    (rest : List UInt8) : split? width (front ++ rest) = some (front, rest) := by
  subst length
  simp [split?]

theorem signed?_bind {α : Type} {n : Nat} (fits : n ≤ greatestLength) (rest : List UInt8)
    (next : Int × List UInt8 → Option α) :
    (signed? 4 (ofNat 4 n ++ rest)).bind next = next (n, rest) := by
  rw [signed?, split?_append (Places.length_ofNat _ _ 4 n), Option.map_some, Option.bind_some]
  exact congrArg (fun n => next (n, rest)) (toInt_ofNat fits)

theorem unsigned?_bind {α : Type} (n : Nat) (rest : List UInt8)
    (next : Nat × List UInt8 → Option α) :
    (unsigned? 4 (ofNat 4 n ++ rest)).bind next = next (n % 256 ^ 4, rest) := by
  rw [unsigned?, split?_append (Places.length_ofNat _ _ 4 n), Option.map_some, Option.bind_some]
  exact congrArg (fun n => next (n, rest)) (toNat_ofNat 4 n)

theorem toText?_ofText (s : String) : toText? (ofText s) = some s := by
  have whole : ByteArray.mk (ofText s).toArray = s.toByteArray := by
    simp [ofText]
  rw [toText?, whole, String.fromUTF8?, dif_pos s.isValidUTF8]
  rfl

end Bytes

open Bytes

variable {t : BaseType} {coded : List (Option (List UInt8))} {values : List Value}

def ReadsItem (t : BaseType) (item : Option (List UInt8)) (value : Value) : Prop :=
  match item with
  | none => value = .null
  | some bytes => bytes.length ≤ greatestLength ∧ decodeBase? t bytes = some value

theorem decodeItems?_frameItem {item : Option (List UInt8)} {value : Value}
    (reads : ReadsItem t item value) (count : Nat) (rest : List UInt8) :
    decodeItems? t (count + 1) (frameItem item ++ rest) =
      (decodeItems? t count rest).map (value :: ·) := by
  cases item with
  | none =>
    obtain rfl : value = .null := reads
    have mark : signed? 4 (ofInt 4 (-1) ++ rest) = some (-1, rest) := by
      rw [signed?, split?_append (by decide), Option.map_some]
      exact congrArg (fun n => some (n, rest)) (by decide)
    have negative : (-1 : Int) < 0 := by decide
    rw [frameItem, decodeItems?, mark]
    simp only [Option.bind_eq_bind, Option.bind_some, if_pos negative]
    cases decodeItems? t count rest <;> rfl
  | some bytes =>
    obtain ⟨short, read⟩ : bytes.length ≤ greatestLength ∧ decodeBase? t bytes = some value := reads
    have front := split?_append (rfl : bytes.length = bytes.length) rest
    have positive : ¬(bytes.length : Int) < 0 := by omega
    rw [frameItem, List.append_assoc, decodeItems?, Option.bind_eq_bind, signed?_bind short]
    simp only [Option.bind_eq_bind, Option.bind_some, if_neg positive, Int.toNat_natCast, front,
      read]
    cases decodeItems? t count rest <;> rfl

theorem decodeItems?_frames (reads : List.Forall₂ (ReadsItem t) coded values) :
    decodeItems? t coded.length (coded.flatMap frameItem) = some values := by
  induction reads with
  | nil => rfl
  | cons first _ ih =>
    rw [List.length_cons, List.flatMap_cons, decodeItems?_frameItem first, ih, Option.map_some]

theorem decodeArray?_frame (reads : List.Forall₂ (ReadsItem t) coded values)
    (few : coded.length ≤ greatestLength) :
    decodeArray? t (frame t coded) = some (.array values) := by
  have one : 1 ≤ greatestLength := by decide
  have mark : (if coded.any Option.isNone then 1 else 0) ≤ greatestLength := by
    split
    · exact one
    · exact Nat.zero_le _
  have positive : ¬(coded.length : Int) < 0 := by omega
  unfold decodeArray? frame
  simp only [List.append_assoc, Option.bind_eq_bind, signed?_bind one, signed?_bind mark,
    unsigned?_bind, signed?_bind few, if_neg positive, Int.toNat_natCast,
    decodeItems?_frames reads]
  rfl

end StoreBridge.Postgres
