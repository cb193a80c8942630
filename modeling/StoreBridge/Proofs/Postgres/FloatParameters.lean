import StoreBridge.Proofs.Number.Rounding
import StoreBridge.Proofs.Postgres.Parameters

/-!
Whole numbers that are bound to columns of floating point numbers. None is refused. The column
holds the nearest number that its format has room for, which is another number wherever there is no
room for all the digits.
-/
namespace StoreBridge

structure BinaryFormat.Rounds (f : BinaryFormat) (i : Int) (x : Binary64) : Prop where
  finite : x.isFinite
  /-- The result is a whole number that the format has room for. -/
  kept : ∃ j : Int, x.toRat = j ∧ f.Keeps j.natAbs
  nearest : ∀ j : Int, f.Keeps j.natAbs → |x.toRat - i| ≤ |(j : ℚ) - i|
  /-- It is the number itself just if the format has room for it. -/
  exact : x.toRat = i ↔ f.Keeps i.natAbs

namespace Binary64

theorem rounds_of_rounded {f : BinaryFormat} {i : Int} {x : Binary64} (finite : x.isFinite)
    (rounded : x.toRat = sign (i < 0) * f.rounded i.natAbs) : f.Rounds i x := by
  obtain ⟨r, same, size⟩ : ∃ r : Int, x.toRat = r ∧
      r = if i < 0 then -(f.rounded i.natAbs : Int) else f.rounded i.natAbs := by
    refine ⟨_, ?_, rfl⟩
    rw [rounded, sign]
    by_cases negative : i < 0 <;> simp [negative]
  have kept : f.Keeps r.natAbs := by
    have abs : r.natAbs = f.rounded i.natAbs := by
      rw [size]
      split <;> omega
    rw [abs]
    exact BinaryFormat.keeps_rounded i.natAbs
  have nearest (j : Int) (keeps : f.Keeps j.natAbs) : |r - i| ≤ |j - i| := by
    have near := BinaryFormat.rounded_nearest i.natAbs keeps
    simp only [Int.abs_eq_natAbs] at near ⊢
    rw [size]
    split <;> omega
  refine ⟨finite, ⟨r, same, kept⟩, fun j keeps => ?_, ?_⟩
  · rw [same]
    exact_mod_cast nearest j keeps
  · rw [same, Int.cast_inj]
    constructor
    · rintro rfl
      exact kept
    · intro keeps
      have near := nearest i keeps
      rw [sub_self, abs_zero] at near
      exact sub_eq_zero.mp (abs_nonpos_iff.mp near)

end Binary64

namespace Postgres

namespace BaseType

def floatFormat? : BaseType → Option BinaryFormat
  | .float4 => some .single
  | .float8 => some .double
  | _ => none

def narrowed : BaseType → Binary64 → Binary64
  | .float4, x => Binary64.ofSingleBits x.toSingleBits
  | _, x => x

/-- What a column of floating point numbers holds of a value that is bound to it. -/
inductive Holds (t : BaseType) (f : BinaryFormat) : Value → Value → Prop where
  | null : Holds t f .null .null
  | int {i : Int64} {x : Binary64} (rounds : f.Rounds i.toInt x) : Holds t f (.int i) (.float x)
  | float (x : Binary64) : Holds t f (.float x) (.float (t.narrowed x))

end BaseType

variable {t : BaseType} {f : BinaryFormat} {v : Value} {bytes : List UInt8}

theorem decodeSingle?_ofNat (b : BitVec 32) :
    decodeSingle? (Bytes.ofNat 4 b.toNat) = some (.float (Binary64.ofSingleBits b)) := by
  have same : b.toNat % 256 ^ 4 = b.toNat := Nat.mod_eq_of_lt b.isLt
  rw [decodeSingle?, if_pos (Places.length_ofNat _ _ 4 _), Bytes.toNat_ofNat, same,
    BitVec.ofNat_toNat, BitVec.setWidth_eq]

theorem decodeDouble?_ofNat (x : Binary64) :
    decodeDouble? (Bytes.ofNat 8 x.bits.toNat) = some (.float x) := by
  have same : x.bits.toNat % 256 ^ 8 = x.bits.toNat := Nat.mod_eq_of_lt x.bits.isLt
  rw [decodeDouble?, if_pos (Places.length_ofNat _ _ 8 _), Bytes.toNat_ofNat, same,
    BitVec.ofNat_toNat, BitVec.setWidth_eq]

theorem toInt_natAbs_le (i : Int64) : i.toInt.natAbs ≤ 2 ^ 63 := by
  have low := i.le_toInt
  have high := i.toInt_lt
  omega

theorem encodeValue_float (floats : t.floatFormat? = some f) :
    (∃ bytes, encodeValue t v = .ok bytes) ↔ v.kind ∈ [.integer, .float] := by
  cases t <;> simp only [BaseType.floatFormat?, Option.some.injEq, reduceCtorEq] at floats <;>
    cases v <;> simp [encodeValue, BaseType.isText, Value.kind]

theorem decodeBase?_float (floats : t.floatFormat? = some f) (sent : encodeValue t v = .ok bytes) :
    bytes.length ≤ greatestLength ∧ ∃ held, decodeBase? t bytes = some held ∧ t.Holds f v held := by
  have short (width n : Nat) (few : width ≤ 8) : (Bytes.ofNat width n).length ≤ greatestLength := by
    rw [Places.length_ofNat]
    exact few.trans (by decide)
  have kind := (encodeValue_float floats).mp ⟨bytes, sent⟩
  cases v with
  | int i =>
    have small := toInt_natAbs_le i
    cases t with
    | float4 =>
      cases floats
      obtain rfl := Except.ok.inj sent
      obtain ⟨finite, rounded⟩ := Binary64.singleBitsOfInt_rounded small
      exact ⟨short 4 _ (by decide), _, decodeSingle?_ofNat _,
        .int (Binary64.rounds_of_rounded finite rounded)⟩
    | float8 =>
      cases floats
      obtain rfl := Except.ok.inj sent
      obtain ⟨finite, rounded⟩ := Binary64.ofInt_rounded small
      exact ⟨short 8 _ (by decide), _, decodeDouble?_ofNat _,
        .int (Binary64.rounds_of_rounded finite rounded)⟩
    | _ => cases floats
  | float x =>
    cases t with
    | float4 =>
      obtain rfl := Except.ok.inj sent
      exact ⟨short 4 _ (by decide), _, decodeSingle?_ofNat _, .float x⟩
    | float8 =>
      obtain rfl := Except.ok.inj sent
      exact ⟨short 8 _ (by decide), _, decodeDouble?_ofNat _, .float x⟩
    | _ => cases floats
  | _ => simp [Value.kind] at kind

theorem encodeItem_float (floats : t.floatFormat? = some f) :
    (∃ item, encodeItem t v = .ok item) ↔ v.kind ∈ [.null, .integer, .float] := by
  simp only [encodeItem_ok, encodeBase_ok]
  constructor
  · rintro ⟨item, ⟨rfl, _⟩ | ⟨_, bytes, sent, _⟩, _⟩
    · exact List.mem_cons_self
    · exact List.mem_cons_of_mem _ ((encodeValue_float floats).mp ⟨bytes, sent⟩)
  · intro kind
    by_cases null : v = .null
    · exact ⟨none, .inl ⟨null, rfl⟩, Nat.zero_le _⟩
    · have numeric : v.kind ∈ [.integer, .float] := by
        refine (List.mem_cons.mp kind).resolve_left fun same => null ?_
        cases v <;> first | rfl | cases same
      obtain ⟨bytes, sent⟩ := (encodeValue_float floats).mpr numeric
      exact ⟨some bytes, .inr ⟨null, bytes, sent, rfl⟩, (decodeBase?_float floats sent).1⟩

theorem encodeItem_holds (floats : t.floatFormat? = some f) {item : Option (List UInt8)}
    (sent : encodeItem t v = .ok item) : ∃ held, ReadsItem t item held ∧ t.Holds f v held := by
  obtain ⟨base, short⟩ := encodeItem_ok.mp sent
  rcases encodeBase_ok.mp base with ⟨rfl, rfl⟩ | ⟨_, bytes, value, rfl⟩
  · exact ⟨.null, rfl, .null⟩
  · obtain ⟨_, held, read, holds⟩ := decodeBase?_float floats value
    exact ⟨held, ⟨short, read⟩, holds⟩

theorem encodeItems_holds (floats : t.floatFormat? = some f) {items : List Value}
    {coded : List (Option (List UInt8))} (sent : encodeItems t items = .ok coded) :
    ∃ values, List.Forall₂ (ReadsItem t) coded values ∧ List.Forall₂ (t.Holds f) items values := by
  induction items generalizing coded with
  | nil =>
    obtain rfl := Except.ok.inj sent
    exact ⟨[], .nil, .nil⟩
  | cons item rest ih =>
    obtain ⟨first, front, sent⟩ := bind_ok.mp sent
    obtain ⟨others, behind, sent⟩ := bind_ok.mp sent
    obtain rfl := Except.ok.inj sent
    obtain ⟨held, reads, holds⟩ := encodeItem_holds floats front
    obtain ⟨values, later, all⟩ := ih behind
    exact ⟨held :: values, .cons reads later, .cons holds all⟩

theorem isAccepted_of_floats (floats : t.floatFormat? = some f) : t.isAccepted := by
  cases t <;> first | rfl | cases floats

/-- Columns of floating point numbers, and of lists of them, take every whole number. It is read
    back as the nearest number of the column's format, so as itself just where the format has room
    for its digits. -/
theorem float_columns_round (floats : t.floatFormat? = some f) :
    (∀ i : Int64, ∃ bytes x, encodeChecked (.base t) (.int i) = .ok (some bytes) ∧
      decode? (.base t) bytes = some (.float x) ∧ f.Rounds i.toInt x) ∧
    ∀ items : List Value,
      ((∃ sent, encodeChecked (.array t) (.array items) = .ok sent) ↔
        items.length ≤ greatestLength ∧ ∀ item ∈ items, item.kind ∈ [.null, .integer, .float]) ∧
      ∀ sent, encodeChecked (.array t) (.array items) = .ok sent →
        ∃ bytes values, sent = some bytes ∧ decode? (.array t) bytes = some (.array values) ∧
          List.Forall₂ (t.Holds f) items values := by
  have accepted := isAccepted_of_floats floats
  have base (v : Value) : encodeChecked (.base t) v = encode (.base t) v := if_pos accepted
  have array (v : Value) : encodeChecked (.array t) v = encode (.array t) v := if_pos accepted
  refine ⟨fun i => ?_, fun items => ⟨?_, fun sent written => ?_⟩⟩
  · obtain ⟨bytes, sent⟩ := (encodeValue_float (v := .int i) floats).mpr List.mem_cons_self
    obtain ⟨_, held, read, holds⟩ := decodeBase?_float floats sent
    have whole : encodeBase t (.int i) = .ok (some bytes) :=
      encodeBase_ok.mpr (.inr ⟨by simp, bytes, sent, rfl⟩)
    cases holds with
    | int rounds => exact ⟨bytes, _, (base _).trans whole, read, rounds⟩
  · have each := encodeItems_isOk t items
    simp only [encodeItem_float floats] at each
    rw [array, ← each]
    simp [encode_array]
  · rw [array] at written
    rcases encode_array.mp written with ⟨other, _⟩ | ⟨own, coded, same, few, coding, rfl⟩
    · cases other
    · cases same
      obtain ⟨values, reads, holds⟩ := encodeItems_holds floats coding
      have count : coded.length = items.length := by
        rw [reads.length_eq, holds.length_eq]
      exact ⟨_, values, rfl, decodeArray?_frame reads (by omega), holds⟩

/-- A list with a number that single precision has no room for, and one that it has room for. -/
theorem float_columns_round_list :
    BaseType.floatFormat? .float4 = some .single ∧
    ∃ bytes x y, encodeChecked (.array .float4)
        (.array [.int 16777217, .null, .int (-16777218)]) = .ok (some bytes) ∧
      decode? (.array .float4) bytes = some (.array [.float x, .null, .float y]) ∧
      x.toRat ≠ 16777217 ∧ y.toRat = -16777218 := by
  obtain ⟨_, lists⟩ := float_columns_round (t := .float4) rfl
  obtain ⟨takes, reads⟩ := lists [.int 16777217, .null, .int (-16777218)]
  obtain ⟨sent, written⟩ := takes.mpr (by decide)
  obtain ⟨bytes, values, rfl, read, holds⟩ := reads sent written
  obtain _ | ⟨first, _ | ⟨second, _ | ⟨third, none⟩⟩⟩ := holds
  cases none
  cases first with
  | int odd =>
    cases second
    cases third with
    | int even =>
      have one : (16777217 : Int64).toInt = 16777217 := by decide
      have other : (-16777218 : Int64).toInt = -16777218 := by decide
      rw [one] at odd
      rw [other] at even
      refine ⟨rfl, bytes, _, _, written, read, fun same => ?_, ?_⟩
      · have kept := odd.exact.mp (same.trans (by norm_num))
        exact absurd ((BinaryFormat.keeps_iff (by decide)).mp kept) (by decide)
      · exact (even.exact.mpr ⟨8388609, 1, by decide, by decide⟩).trans (by norm_num)

/-- A whole number that is sent without a refusal and comes back as another one. -/
theorem great_integer_rounded :
    ∃ bytes x, encodeChecked (.base .float8) (.int 9007199254740993) = .ok (some bytes) ∧
      decode? (.base .float8) bytes = some (.float x) ∧
      x.toRat = 9007199254740992 ∧ x.toRat ≠ 9007199254740993 := by
  refine ⟨_, ⟨0x4340000000000000#64⟩, rfl, rfl, ?_⟩
  have value : (⟨0x4340000000000000#64⟩ : Binary64).toRat = 9007199254740992 := by
    norm_num [Binary64.toRat, Binary64.sign, Binary64.isNegative, Binary64.mantissa,
      Binary64.exponent, Binary64.exponentField, Binary64.fractionField]
  exact ⟨value, by rw [value]; norm_num⟩

end Postgres
end StoreBridge
