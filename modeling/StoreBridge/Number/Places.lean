/-!
Whole numbers in a fixed width: their last places in a base, the highest place first. The places
stand for the number modulo a power of the base. A library of algebra brings its own way to the
same powers, which the proofs load and the program does not; the language's own comes first in
both.
-/
attribute [instance (20000), default_instance 20000] instPowNat

namespace StoreBridge.Places

variable {α β : Type} (base : Nat) (digit : Nat → α)

def ofNat : Nat → Nat → List α
  | 0, _ => []
  | width + 1, n => ofNat width (n / base) ++ [digit (n % base)]

@[simp] theorem length_ofNat (width n : Nat) : (ofNat base digit width n).length = width := by
  induction width generalizing n with
  | zero => rfl
  | succ width ih => rw [ofNat, List.length_append, ih, List.length_singleton]

variable {base digit}

theorem mem_ofNat (positive : 0 < base) {width n : Nat} {c : α}
    (mem : c ∈ ofNat base digit width n) : ∃ k < base, digit k = c := by
  induction width generalizing n with
  | zero => simp [ofNat] at mem
  | succ width ih =>
    rw [ofNat, List.mem_append, List.mem_singleton] at mem
    rcases mem with front | rfl
    · exact ih front
    · exact ⟨n % base, Nat.mod_lt n positive, rfl⟩

/-- A reader that goes on from a number to the number with one place more reads what stands
there. -/
theorem foldl_ofNat (read : Nat → β) {step : β → α → β} (positive : 0 < base)
    (next : ∀ n, ∀ k < base, step (read n) (digit k) = read (base * n + k)) (width n : Nat) :
    (ofNat base digit width n).foldl step (read 0) = read (n % base ^ width) := by
  induction width generalizing n with
  | zero => rw [Nat.pow_zero, Nat.mod_one]; rfl
  | succ width ih =>
    have whole : base * (n / base % base ^ width) + n % base = n % base ^ (width + 1) := by
      rw [Nat.pow_succ, Nat.mul_comm (base ^ width) base, Nat.mod_mul, Nat.add_comm]
    rw [ofNat, List.foldl_append, ih, List.foldl_cons, List.foldl_nil,
      next _ _ (Nat.mod_lt n positive), whole]

end StoreBridge.Places
