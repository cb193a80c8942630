import Mathlib.Tactic.FieldSimp
import Mathlib.Tactic.Linarith
import Mathlib.Tactic.Ring
import StoreBridge.Number.Binary64

/-!
What rounding to a floating point format keeps. A format has room for so many binary digits behind
the first, and a number with no more of them is kept as it is. Of the others the nearest one is
taken that has room. Sizes are rational numbers here, read off the two fields of the bits.
-/
namespace StoreBridge

/-! ### Fractions -/

section Ratio
variable {num den : Nat}

theorem roundRatio_cases (num den : Nat) :
    (roundRatio num den = num / den ∧ 2 * (num % den) ≤ den) ∨
      (roundRatio num den = num / den + 1 ∧ den ≤ 2 * (num % den)) := by
  unfold roundRatio
  dsimp only
  split
  · exact .inl ⟨rfl, by omega⟩
  · split
    · exact .inr ⟨rfl, by omega⟩
    · rcases Nat.mod_two_eq_zero_or_one (num / den) with even | odd
      · exact .inl ⟨by omega, by omega⟩
      · exact .inr ⟨by omega, by omega⟩

theorem roundRatio_mul (positive : 0 < den) (n : Nat) : roundRatio (n * den) den = n := by
  simp [roundRatio, positive]

theorem le_roundRatio {low : Nat} (positive : 0 < den) (bound : low * den ≤ num) :
    low ≤ roundRatio num den := by
  have floor := (Nat.le_div_iff_mul_le positive).mpr bound
  rcases roundRatio_cases num den with ⟨same, _⟩ | ⟨same, _⟩ <;> omega

theorem roundRatio_le {high : Nat} (positive : 0 < den) (bound : num ≤ high * den) :
    roundRatio num den ≤ high := by
  have split := Nat.div_add_mod num den
  rcases roundRatio_cases num den with ⟨same, _⟩ | ⟨same, rest⟩
  · have floor := Nat.div_le_of_le_mul (Nat.mul_comm high den ▸ bound)
    omega
  · have some : 0 < num % den := by omega
    rw [same, Nat.add_one_le_iff, Nat.div_lt_iff_lt_mul positive]
    have apart : num ≠ high * den := by
      rintro rfl
      simp at some
    omega

end Ratio

namespace BinaryFormat
variable (f : BinaryFormat)

def size (bits : Nat) : ℚ :=
  let field := bits / 2 ^ f.fractionBits
  let fraction := bits % 2 ^ f.fractionBits
  ((if field = 0 then fraction else 2 ^ f.fractionBits + fraction : Nat) : ℚ) *
    2 ^ (((max field 1 : Nat) : ℤ) - 1 + f.leastExponent)

/-- Whether a whole number has no more binary digits behind its first than the format has room
    for, zeros at its end apart. -/
def Keeps (n : Nat) : Prop := ∃ m e, n = m * 2 ^ e ∧ m < 2 ^ (f.fractionBits + 1)

def excess (n : Nat) : Nat := n.log2 - f.fractionBits

def rounded (n : Nat) : Nat := roundRatio n (2 ^ f.excess n) * 2 ^ f.excess n

variable {f}

theorem size_normal {field fraction : Nat} (some : field ≠ 0)
    (below : fraction < 2 ^ f.fractionBits) :
    f.size (field * 2 ^ f.fractionBits + fraction) =
      (2 ^ f.fractionBits + fraction : Nat) * 2 ^ ((field : ℤ) - 1 + f.leastExponent) := by
  have positive : 0 < 2 ^ f.fractionBits := Nat.two_pow_pos _
  have front : (field * 2 ^ f.fractionBits + fraction) / 2 ^ f.fractionBits = field := by
    rw [Nat.mul_comm, Nat.mul_add_div positive, Nat.div_eq_of_lt below, Nat.add_zero]
  have behind : (field * 2 ^ f.fractionBits + fraction) % 2 ^ f.fractionBits = fraction := by
    rw [Nat.mul_comm, Nat.mul_add_mod, Nat.mod_eq_of_lt below]
  have larger : max field 1 = field := by omega
  simp only [size, front, behind, if_neg some, larger]

/-- A mantissa in front of its exponent; one that is rounded up to the next power of two is carried
    into the exponent. -/
theorem size_place {e m : Nat} (carried : m ≤ 2 ^ (f.fractionBits + 1))
    (normal : e = 0 ∨ 2 ^ f.fractionBits ≤ m) :
    f.size (e * 2 ^ f.fractionBits + m) = m * 2 ^ ((e : ℤ) + f.leastExponent) := by
  have double : 2 ^ (f.fractionBits + 1) = 2 * 2 ^ f.fractionBits := by ring
  rcases Nat.lt_or_ge m (2 ^ f.fractionBits) with small | large
  · obtain rfl := normal.resolve_right (by omega)
    simp [size, Nat.div_eq_of_lt small, Nat.mod_eq_of_lt small]
  · obtain ⟨fraction, rfl⟩ := Nat.exists_eq_add_of_le large
    rcases Nat.lt_or_ge fraction (2 ^ f.fractionBits) with below | full
    · have bits : e * 2 ^ f.fractionBits + (2 ^ f.fractionBits + fraction) =
          (e + 1) * 2 ^ f.fractionBits + fraction := by ring
      rw [bits, size_normal (by omega) below]
      congr 2
      push_cast
      ring
    · obtain rfl : fraction = 2 ^ f.fractionBits := by omega
      have bits : e * 2 ^ f.fractionBits + (2 ^ f.fractionBits + 2 ^ f.fractionBits) =
          (e + 2) * 2 ^ f.fractionBits + 0 := by ring
      have next : (((e + 2 : Nat) : ℤ) - 1 + f.leastExponent) = (e + f.leastExponent) + 1 := by
        push_cast
        ring
      rw [bits, size_normal (by omega) (Nat.two_pow_pos _), next, zpow_add_one₀ (by norm_num)]
      push_cast
      ring

/-! ### The bits of a number over a power of two -/

section Magnitude
variable {num k : Nat}

def place (f : BinaryFormat) (num k : Nat) : ℤ := num.log2 - k - f.fractionBits

theorem overPowerOfTwo_place (num k : Nat) :
    ∃ c d, overPowerOfTwo num (2 ^ k) (f.place num k) = (num * 2 ^ d, 2 ^ c) ∧
      f.fractionBits + c = num.log2 + d ∧ (c : ℤ) - d = k + f.place num k ∧ (c = k ∨ d = 0) := by
  unfold overPowerOfTwo
  split
  · rename_i whole
    refine ⟨k + (f.place num k).toNat, 0, by simp [Nat.pow_add], ?_, ?_, .inr rfl⟩ <;>
      unfold place at * <;> omega
  · rename_i part
    refine ⟨k, (-f.place num k).toNat, rfl, ?_, ?_, .inl rfl⟩ <;> unfold place at * <;> omega

theorem scaled_bounds {c d : Nat} (some : num ≠ 0) (scale : f.fractionBits + c = num.log2 + d) :
    2 ^ f.fractionBits * 2 ^ c ≤ num * 2 ^ d ∧
      num * 2 ^ d ≤ 2 ^ (f.fractionBits + 1) * 2 ^ c := by
  have low := Nat.log2_self_le some
  have high := (Nat.lt_log2_self (n := num)).le
  constructor
  · rw [← Nat.pow_add, scale, Nat.pow_add]
    exact Nat.mul_le_mul_right _ low
  · rw [← Nat.pow_add, Nat.add_right_comm, scale, Nat.add_right_comm, Nat.pow_add]
    exact Nat.mul_le_mul_right _ high

theorem placeExponent_eq (some : num ≠ 0) (low : f.leastExponent ≤ f.place num k) :
    f.placeExponent num (2 ^ k) = f.place num k := by
  obtain ⟨c, d, scaled, scale, _⟩ := overPowerOfTwo_place (f := f) num k
  have guess : (num.log2 : ℤ) - (2 ^ k).log2 - f.fractionBits = f.place num k := by
    rw [Nat.log2_two_pow, place]
  have fits : 2 ^ f.fractionBits ≤ num * 2 ^ d / 2 ^ c :=
    (Nat.le_div_iff_mul_le (Nat.two_pow_pos c)).mpr (scaled_bounds some scale).1
  simp only [placeExponent, guess, scaled, if_pos fits]
  exact max_eq_left low

/-- A number between the least and the greatest that a format has room for is rounded at its last
    place, and does not become infinite. -/
theorem size_magnitude (some : num ≠ 0) (low : f.leastExponent ≤ f.place num k)
    (high : (f.place num k - f.leastExponent).toNat + 2 < 2 ^ f.exponentBits - 1) :
    ∃ c d, f.fractionBits + c = num.log2 + d ∧ (c : ℤ) - d = k + f.place num k ∧
      (c = k ∨ d = 0) ∧ f.size (f.magnitude num (2 ^ k)) =
        roundRatio (num * 2 ^ d) (2 ^ c) * 2 ^ f.place num k ∧
      f.magnitude num (2 ^ k) < f.infinity := by
  obtain ⟨c, d, scaled, scale, apart, one⟩ := overPowerOfTwo_place (f := f) num k
  obtain ⟨least, greatest⟩ := scaled_bounds some scale
  have normal := le_roundRatio (Nat.two_pow_pos c) least
  have carried := roundRatio_le (Nat.two_pow_pos c) greatest
  have offset : ((f.place num k - f.leastExponent).toNat : ℤ) + f.leastExponent =
      f.place num k := by omega
  have bits : f.magnitude num (2 ^ k) =
      min ((f.place num k - f.leastExponent).toNat * 2 ^ f.fractionBits +
        roundRatio (num * 2 ^ d) (2 ^ c)) f.infinity := by
    simp only [magnitude, if_neg some, placeExponent_eq some low, scaled]
  generalize (f.place num k - f.leastExponent).toNat = e at high offset bits
  have finite : e * 2 ^ f.fractionBits + roundRatio (num * 2 ^ d) (2 ^ c) < f.infinity := by
    have double : 2 ^ (f.fractionBits + 1) = 2 * 2 ^ f.fractionBits := by ring
    have below : (e + 2) * 2 ^ f.fractionBits < f.infinity :=
      Nat.mul_lt_mul_of_pos_right high (Nat.two_pow_pos _)
    rw [Nat.add_mul] at below
    omega
  rw [min_eq_left finite.le] at bits
  refine ⟨c, d, scale, apart, one, ?_, bits ▸ finite⟩
  rw [bits, size_place carried (.inr normal), offset]

/-! ### Whole numbers -/

theorem keeps_iff {n : Nat} (some : n ≠ 0) : f.Keeps n ↔ 2 ^ f.excess n ∣ n := by
  constructor
  · rintro ⟨m, e, rfl, small⟩
    have kept : m ≠ 0 := left_ne_zero_of_mul some
    have digits : (m * 2 ^ e).log2 < f.fractionBits + 1 + e := by
      rw [Nat.log2_lt some, Nat.pow_add]
      exact Nat.mul_lt_mul_of_pos_right small (Nat.two_pow_pos e)
    have fewer : f.excess (m * 2 ^ e) ≤ e := by
      unfold excess
      omega
    exact Dvd.dvd.mul_left (Nat.pow_dvd_pow 2 fewer) m
  · rintro ⟨m, whole⟩
    refine ⟨m, f.excess n, by rw [Nat.mul_comm, ← whole], ?_⟩
    have high := Nat.lt_log2_self (n := n)
    have digits : n.log2 + 1 ≤ f.fractionBits + 1 + f.excess n := by
      unfold excess
      omega
    have bound := high.trans_le (Nat.pow_le_pow_right (by decide) digits)
    rw [Nat.pow_add, Nat.mul_comm] at bound
    exact Nat.lt_of_mul_lt_mul_left (whole.symm.trans_lt bound)

theorem size_magnitude_of_keeps (some : num ≠ 0) (keeps : f.Keeps num)
    (low : f.leastExponent ≤ f.place num k)
    (high : (f.place num k - f.leastExponent).toNat + 2 < 2 ^ f.exponentBits - 1) :
    f.size (f.magnitude num (2 ^ k)) = num / 2 ^ k := by
  obtain ⟨c, d, scale, apart, _, size, _⟩ := size_magnitude some low high
  have whole : 2 ^ c ∣ num * 2 ^ d := by
    have room := Nat.mul_dvd_mul_right ((keeps_iff some).mp keeps) (2 ^ d)
    rw [← Nat.pow_add] at room
    refine (Nat.pow_dvd_pow 2 ?_).trans room
    unfold excess
    omega
  have two : (2 : ℚ) ≠ 0 := by norm_num
  have exponent : f.place num k = c - d - k := by omega
  have powers : (2 : ℚ) ^ f.place num k = 2 ^ c / 2 ^ d / 2 ^ k := by
    rw [exponent, zpow_sub₀ two, zpow_sub₀ two, zpow_natCast, zpow_natCast, zpow_natCast]
  obtain ⟨m, same⟩ := whole
  have cast : (num : ℚ) * 2 ^ d = 2 ^ c * m := by exact_mod_cast same
  rw [size, same, Nat.mul_comm, roundRatio_mul (Nat.two_pow_pos c), powers]
  field_simp
  linarith

theorem size_magnitude_one (some : num ≠ 0) (low : f.leastExponent ≤ f.place num 0)
    (high : (f.place num 0 - f.leastExponent).toNat + 2 < 2 ^ f.exponentBits - 1) :
    f.size (f.magnitude num 1) = f.rounded num ∧ f.magnitude num 1 < f.infinity := by
  obtain ⟨c, d, scale, apart, one, size, finite⟩ := size_magnitude (k := 0) some low high
  rw [Nat.pow_zero] at size finite
  refine ⟨?_, finite⟩
  rcases one with rfl | rfl
  · have fits : f.excess num = 0 := by
      unfold excess
      omega
    have exponent : f.place num 0 = -d := by omega
    have whole (n : Nat) : roundRatio n 1 = n := by
      simpa using roundRatio_mul Nat.one_pos n
    rw [size, rounded, fits, Nat.pow_zero, whole, whole, exponent, zpow_neg, zpow_natCast]
    push_cast
    field_simp
  · have cut : f.excess num = c := by
      unfold excess
      omega
    have exponent : f.place num 0 = c := by omega
    rw [size, rounded, cut, exponent, zpow_natCast, Nat.pow_zero, Nat.mul_one]
    push_cast
    rfl

end Magnitude

theorem excess_bounds {n : Nat} (some : n ≠ 0) :
    n < 2 ^ (f.fractionBits + 1) * 2 ^ f.excess n ∧
      (f.excess n = 0 ∨ 2 ^ f.fractionBits * 2 ^ f.excess n ≤ n) := by
  have low := Nat.log2_self_le some
  have high := Nat.lt_log2_self (n := n)
  constructor
  · rw [← Nat.pow_add]
    refine high.trans_le (Nat.pow_le_pow_right (by decide) ?_)
    unfold excess
    omega
  · by_cases fits : n.log2 ≤ f.fractionBits
    · exact .inl (Nat.sub_eq_zero_of_le fits)
    · right
      rw [← Nat.pow_add]
      refine (Nat.pow_le_pow_right (by decide) ?_).trans low
      unfold excess
      omega

theorem keeps_rounded (n : Nat) : f.Keeps (f.rounded n) := by
  by_cases none : n = 0
  · subst none
    exact ⟨0, 0, by simp [rounded, roundRatio], Nat.two_pow_pos _⟩
  · have carried := roundRatio_le (Nat.two_pow_pos _) (excess_bounds (f := f) none).1.le
    rcases carried.lt_or_eq with small | full
    · exact ⟨_, _, rfl, small⟩
    · refine ⟨1, f.fractionBits + 1 + f.excess n, ?_, Nat.one_lt_two_pow (by omega)⟩
      rw [rounded, full, ← Nat.pow_add, Nat.one_mul]

theorem keeps_outside {n m : Nat} (some : n ≠ 0) (keeps : f.Keeps m) :
    m ≤ n / 2 ^ f.excess n * 2 ^ f.excess n ∨ (n / 2 ^ f.excess n + 1) * 2 ^ f.excess n ≤ m := by
  by_contra! inside
  obtain ⟨above, below⟩ := inside
  have positive : 0 < 2 ^ f.excess n := Nat.two_pow_pos _
  obtain ⟨high, low⟩ := excess_bounds (f := f) some
  have next : n / 2 ^ f.excess n + 1 ≤ 2 ^ (f.fractionBits + 1) :=
    (Nat.div_lt_iff_lt_mul positive).mpr high
  rcases low with fits | large
  · rw [fits, Nat.pow_zero, Nat.div_one, Nat.mul_one] at above
    rw [fits, Nat.pow_zero, Nat.div_one, Nat.mul_one] at below
    omega
  · have front : 2 ^ f.fractionBits ≤ n / 2 ^ f.excess n :=
      (Nat.le_div_iff_mul_le positive).mpr large
    have least := (Nat.mul_le_mul_right (2 ^ f.excess n) front).trans_lt above
    have greatest := below.trans_le (Nat.mul_le_mul_right (2 ^ f.excess n) next)
    rw [← Nat.pow_add] at least greatest
    have filled : m ≠ 0 := by omega
    have digits : m.log2 = f.fractionBits + f.excess n := by
      have upper := (Nat.log2_lt filled).mpr greatest
      have lower := (Nat.le_log2 filled).mpr least.le
      omega
    have same : f.excess m = f.excess n := by
      rw [excess, digits]
      omega
    obtain ⟨q, whole⟩ := same ▸ (keeps_iff filled).mp keeps
    rw [whole, Nat.mul_comm _ q] at above below
    have more := Nat.lt_of_mul_lt_mul_right above
    have less := Nat.lt_of_mul_lt_mul_right below
    omega

theorem rounded_cases (f : BinaryFormat) (n : Nat) :
    (f.rounded n = n / 2 ^ f.excess n * 2 ^ f.excess n ∧
      2 * (n % 2 ^ f.excess n) ≤ 2 ^ f.excess n) ∨
    (f.rounded n = n / 2 ^ f.excess n * 2 ^ f.excess n + 2 ^ f.excess n ∧
      2 ^ f.excess n ≤ 2 * (n % 2 ^ f.excess n)) := by
  rcases roundRatio_cases n (2 ^ f.excess n) with ⟨down, near⟩ | ⟨up, near⟩
  · exact .inl ⟨by rw [rounded, down], near⟩
  · exact .inr ⟨by rw [rounded, up, Nat.add_one_mul], near⟩

theorem rounded_nearest (n : Nat) {m : Nat} (keeps : f.Keeps m) :
    |(f.rounded n : ℤ) - n| ≤ |(m : ℤ) - n| := by
  by_cases none : n = 0
  · subst none
    simp [rounded, roundRatio]
  · have outside := keeps_outside none keeps
    have split := Nat.div_add_mod n (2 ^ f.excess n)
    have small := Nat.mod_lt n (Nat.two_pow_pos (f.excess n))
    have cases := f.rounded_cases n
    rw [Nat.mul_comm] at split
    rw [Nat.add_one_mul] at outside
    rw [Int.abs_eq_natAbs, Int.abs_eq_natAbs]
    generalize n / 2 ^ f.excess n * 2 ^ f.excess n = floor at *
    generalize n % 2 ^ f.excess n = rest at *
    generalize 2 ^ f.excess n = unit at *
    omega

theorem rounded_magnitude {f : BinaryFormat} (known : f = double ∨ f = single) {n : Nat}
    (small : n ≤ 2 ^ 63) :
    f.size (f.magnitude n 1) = f.rounded n ∧ f.magnitude n 1 < f.infinity := by
  by_cases none : n = 0
  · subst none
    rcases known with rfl | rfl <;>
      exact ⟨by simp [size, magnitude, rounded, roundRatio], by decide⟩
  · have digits : n.log2 < 64 := (Nat.log2_lt none).mpr (by omega)
    have exponents : (double.leastExponent = -1074 ∧ single.leastExponent = -149) := by decide
    refine size_magnitude_one none ?_ ?_ <;>
      rcases known with rfl | rfl <;> simp only [exponents, place] <;>
        simp only [double, single] <;> omega

end BinaryFormat

/-! ### Doubles and singles -/

namespace Binary64
open BinaryFormat

def sign (negative : Bool) : ℚ := if negative then -1 else 1

def toRat (x : Binary64) : ℚ := sign x.isNegative * (x.mantissa * 2 ^ x.exponent)

theorem toNat_ofSignMagnitude (negative : Bool) {magnitude : Nat}
    (finite : magnitude < double.infinity) :
    (ofSignMagnitude negative magnitude).bits.toNat =
      (if negative then 2 ^ 63 else 0) + magnitude := by
  have bound : magnitude < 2 ^ 63 := finite.trans (by decide)
  rw [ofSignMagnitude, BitVec.toNat_ofNat]
  refine Nat.mod_eq_of_lt ?_
  split <;> omega

theorem toRat_ofSignMagnitude (negative : Bool) {magnitude : Nat}
    (finite : magnitude < double.infinity) :
    (ofSignMagnitude negative magnitude).isFinite ∧
      (ofSignMagnitude negative magnitude).toRat = sign negative * double.size magnitude := by
  have bits := toNat_ofSignMagnitude negative finite
  have bound : magnitude < 2047 * 2 ^ 52 := finite
  have field : (ofSignMagnitude negative magnitude).exponentField = magnitude / 2 ^ 52 := by
    rw [exponentField, bits]
    split <;> omega
  have fraction : (ofSignMagnitude negative magnitude).fractionField = magnitude % 2 ^ 52 := by
    rw [fractionField, bits]
    split <;> omega
  have negated : (ofSignMagnitude negative magnitude).isNegative = negative := by
    rw [isNegative, bits]
    cases negative
    · simp
      omega
    · simp
  constructor
  · rw [isFinite, field, bne_iff_ne]
    omega
  · have place : ((max (magnitude / 2 ^ 52) 1 : Nat) : ℤ) - 1075 =
        ((max (magnitude / 2 ^ 52) 1 : Nat) : ℤ) - 1 + double.leastExponent := by
      have least : double.leastExponent = -1074 := by decide
      rw [least]
      ring
    rw [toRat, negated, mantissa, exponent, field, fraction, place]
    rfl

theorem ofInt_rounded {i : Int} (small : i.natAbs ≤ 2 ^ 63) :
    (ofInt i).isFinite ∧ (ofInt i).toRat = sign (i < 0) * double.rounded i.natAbs := by
  obtain ⟨size, finite⟩ := rounded_magnitude (.inl rfl) small
  rw [← size]
  exact toRat_ofSignMagnitude (i < 0) finite

theorem ofRatio_overPowerOfTwo (negative : Bool) {m : Nat} {e : ℤ} (small : m < 2 ^ 24)
    (low : -149 ≤ e) (high : e ≤ 104) :
    let r := overPowerOfTwo m 1 (-e)
    (ofRatio negative r.1 r.2).isFinite ∧
      (ofRatio negative r.1 r.2).toRat = sign negative * (m * 2 ^ e) := by
  obtain ⟨d, k, ratio, exponent, fewer, less⟩ : ∃ d k : Nat,
      overPowerOfTwo m 1 (-e) = (m * 2 ^ d, 2 ^ k) ∧ e = d - k ∧ d ≤ 104 ∧ k ≤ 149 := by
    unfold overPowerOfTwo
    split
    · exact ⟨0, (-e).toNat, by simp, by omega, by omega, by omega⟩
    · exact ⟨(-(-e)).toNat, 0, by simp, by omega, by omega, by omega⟩
  have value : (m : ℚ) * 2 ^ e = (m * 2 ^ d : Nat) / 2 ^ k := by
    rw [exponent, zpow_sub₀ (by norm_num), zpow_natCast, zpow_natCast, mul_div_assoc']
    push_cast
    rfl
  simp only [ratio, value, ofRatio]
  by_cases none : m = 0
  · subst none
    have zero : double.magnitude (0 * 2 ^ d) (2 ^ k) = 0 := by simp [magnitude]
    rw [zero]
    have below : 0 < double.infinity := by decide
    obtain ⟨finite, same⟩ := toRat_ofSignMagnitude negative below
    exact ⟨finite, by rw [same]; simp [size]⟩
  · have some : m * 2 ^ d ≠ 0 := by positivity
    have digits : (m * 2 ^ d).log2 < 128 := by
      rw [Nat.log2_lt some]
      calc m * 2 ^ d < 2 ^ 24 * 2 ^ d := Nat.mul_lt_mul_of_pos_right small (Nat.two_pow_pos d)
        _ ≤ 2 ^ 24 * 2 ^ 104 := Nat.mul_le_mul_left _ (Nat.pow_le_pow_right (by decide) fewer)
        _ = 2 ^ 128 := by norm_num
    have least : double.leastExponent = -1074 := by decide
    have keeps : double.Keeps (m * 2 ^ d) := ⟨m, d, rfl, small.trans (by decide)⟩
    have lowest : double.leastExponent ≤ double.place (m * 2 ^ d) k := by
      simp only [least, place]
      simp only [double]
      omega
    have highest : (double.place (m * 2 ^ d) k - double.leastExponent).toNat + 2 <
        2 ^ double.exponentBits - 1 := by
      simp only [least, place]
      simp only [double]
      omega
    obtain ⟨_, _, _, _, _, _, finite⟩ := size_magnitude some lowest highest
    rw [← size_magnitude_of_keeps some keeps lowest highest]
    exact toRat_ofSignMagnitude negative finite

theorem toRat_ofSingleBits (negative : Bool) {magnitude : Nat}
    (finite : magnitude < single.infinity) :
    let x := ofSingleBits (BitVec.ofNat 32 ((if negative then 2 ^ 31 else 0) + magnitude))
    x.isFinite ∧ x.toRat = sign negative * single.size magnitude := by
  have bound : magnitude < 255 * 2 ^ 23 := finite
  have bits : (BitVec.ofNat 32 ((if negative then 2 ^ 31 else 0) + magnitude)).toNat =
      (if negative then 2 ^ 31 else 0) + magnitude := by
    rw [BitVec.toNat_ofNat]
    refine Nat.mod_eq_of_lt ?_
    split <;> omega
  have field : ((if negative then 2 ^ 31 else 0) + magnitude) / 2 ^ 23 % 2 ^ 8 =
      magnitude / 2 ^ 23 := by
    split <;> omega
  have fraction : ((if negative then 2 ^ 31 else 0) + magnitude) % 2 ^ 23 = magnitude % 2 ^ 23 := by
    split <;> omega
  have negated : decide (2 ^ 31 ≤ (if negative then 2 ^ 31 else 0) + magnitude) = negative := by
    cases negative
    · simp
      omega
    · simp
  have some : magnitude / 2 ^ 23 ≠ 255 := by omega
  have least : single.leastExponent = -149 := by decide
  have place : ((max (magnitude / 2 ^ 23) 1 : Nat) : ℤ) - 1 + single.leastExponent =
      -(150 - ((max (magnitude / 2 ^ 23) 1 : Nat) : ℤ)) := by
    rw [least]
    ring
  have exact := ofRatio_overPowerOfTwo negative
    (m := if magnitude / 2 ^ 23 = 0 then magnitude % 2 ^ 23 else 2 ^ 23 + magnitude % 2 ^ 23)
    (e := ((max (magnitude / 2 ^ 23) 1 : Nat) : ℤ) - 1 + single.leastExponent)
    (by split <;> omega) (by rw [least]; omega) (by rw [least]; omega)
  rw [place, neg_neg, ← place] at exact
  simp only [ofSingleBits, bits, field, fraction, negated, if_neg some]
  exact exact

theorem singleBitsOfInt_rounded {i : Int} (small : i.natAbs ≤ 2 ^ 63) :
    (ofSingleBits (singleBitsOfInt i)).isFinite ∧
      (ofSingleBits (singleBitsOfInt i)).toRat = sign (i < 0) * single.rounded i.natAbs := by
  obtain ⟨size, finite⟩ := rounded_magnitude (.inr rfl) small
  rw [← size]
  simpa [singleBitsOfInt] using toRat_ofSingleBits (i < 0) finite

end Binary64
end StoreBridge
