import Mathlib.Algebra.Order.Ring.Int

/-!
# Wrapping counters

A `w`-bit counter holds the number of events modulo `2 ^ w`.
-/

namespace FanatecWheel.Foundation

variable {w : ℕ}

theorem count_succ (n : ℕ) : BitVec.ofNat w (n + 1) = BitVec.ofNat w n + 1#w :=
  BitVec.ofNat_add n 1

/-- The difference of two readings is the number of events between them. -/
theorem count_sub {n m : ℕ} (later : m ≤ n) :
    BitVec.ofNat w n - BitVec.ofNat w m = BitVec.ofNat w (n - m) := by
  obtain ⟨k, rfl⟩ := Nat.exists_eq_add_of_le later
  rw [Nat.add_comm, BitVec.ofNat_add, BitVec.add_sub_cancel, Nat.add_sub_cancel]

end FanatecWheel.Foundation
