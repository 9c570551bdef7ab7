import Mathlib.Tactic.Common
import FanatecWheel.Foundation.Words

/-!
# Cycle counter

The kernel's 32-bit cycle counter runs at `hz` cycles a second; what a platform clock gives is
a parameter here.
-/

namespace FanatecWheel.App

/-- `k_cyc_to_us_floor64`: 32-bit cycle counts keep the product far below 64 bits. -/
def kCycToUsFloor64 (hz : ℕ) (cyc : U32) : ℕ := cyc.toNat * 1000000 / hz

/-- The conversion behind a cast to 32 bits. -/
def cycToUs32 (hz : ℕ) (cyc : U32) : U32 := BitVec.ofNat 32 (kCycToUsFloor64 hz cyc)

theorem kCycToUsFloor64_mono (hz : ℕ) {x y : U32} (order : x ≤ y) :
    kCycToUsFloor64 hz x ≤ kCycToUsFloor64 hz y :=
  Nat.div_le_div_right (Nat.mul_le_mul_right _ order)

theorem kCycToUsFloor64_le {hz : ℕ} (fast : 1000000 ≤ hz) (cyc : U32) :
    kCycToUsFloor64 hz cyc ≤ cyc.toNat := by
  rw [kCycToUsFloor64]
  exact Nat.div_le_of_le_mul (by
    rw [Nat.mul_comm hz]
    exact Nat.mul_le_mul_left _ fast)

/-- A clock of a megahertz or more loses nothing to the cast. -/
theorem cycToUs32_toNat {hz : ℕ} (fast : 1000000 ≤ hz) (cyc : U32) :
    (cycToUs32 hz cyc).toNat = kCycToUsFloor64 hz cyc := by
  rw [cycToUs32, BitVec.toNat_ofNat]
  exact Nat.mod_eq_of_lt (Nat.lt_of_le_of_lt (kCycToUsFloor64_le fast cyc) cyc.isLt)

theorem cycToUs32_mono {hz : ℕ} (fast : 1000000 ≤ hz) {x y : U32} (order : x ≤ y) :
    cycToUs32 hz x ≤ cycToUs32 hz y := by
  rw [BitVec.le_def, cycToUs32_toNat fast, cycToUs32_toNat fast]
  exact kCycToUsFloor64_mono hz order

end FanatecWheel.App
