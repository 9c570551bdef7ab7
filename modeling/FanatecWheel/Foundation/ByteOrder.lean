import FanatecWheel.Foundation.Words

/-!
# Words in memory

The bytes of a word, the lowest first, and the word at an offset of an object.
-/

namespace FanatecWheel.Foundation

/-- The low `n` bytes of a number, lowest first. -/
def leBytes : ℕ → ℕ → List U8
  | 0, _ => []
  | n + 1, v => BitVec.ofNat 8 v :: leBytes n (v / 256)

/-- The number that bytes stand for. -/
def leValue : List U8 → ℕ
  | [] => 0
  | b :: rest => b.toNat + 256 * leValue rest

theorem length_leBytes (n v : ℕ) : (leBytes n v).length = n := by
  induction n generalizing v with
  | zero => rfl
  | succ n ih => rw [leBytes, List.length_cons, ih]

theorem leValue_leBytes {n v : ℕ} (fits : v < 256 ^ n) : leValue (leBytes n v) = v := by
  induction n generalizing v with
  | zero => exact (Nat.lt_one_iff.mp fits).symm
  | succ n ih =>
    have rest : v / 256 < 256 ^ n := by
      rw [Nat.div_lt_iff_lt_mul (by decide), ← pow_succ]
      exact fits
    rw [leBytes, leValue, ih rest, BitVec.toNat_ofNat]
    exact Nat.mod_add_div v 256

variable {w : ℕ}

/-- A word as it lies in memory. -/
def wordBytes (v : BitVec w) : List U8 := leBytes (w / 8) v.toNat

/-- The word at an offset. -/
def wordAt (w : ℕ) (image : List U8) (offset : ℕ) : BitVec w :=
  BitVec.ofNat w (leValue ((image.drop offset).take (w / 8)))

theorem length_wordBytes (v : BitVec w) : (wordBytes v).length = w / 8 := length_leBytes _ _

/-- The first word of an object. -/
theorem wordAt_here (whole : 8 ∣ w) (v : BitVec w) (rest : List U8) :
    wordAt w (wordBytes v ++ rest) 0 = v := by
  have fits : v.toNat < 256 ^ (w / 8) := by
    rw [show 256 = 2 ^ 8 from rfl, ← pow_mul, Nat.mul_div_cancel' whole]
    exact v.isLt
  rw [wordAt, List.drop_zero, List.take_left' (length_wordBytes v), wordBytes,
    leValue_leBytes fits, BitVec.ofNat_toNat, BitVec.setWidth_eq]

/-- What lies behind the first word. -/
theorem wordAt_skip {w' : ℕ} (v : BitVec w) (rest : List U8) (offset : ℕ) :
    wordAt w' (wordBytes v ++ rest) (w / 8 + offset) = wordAt w' rest offset := by
  rw [wordAt, wordAt, ← List.drop_drop, List.drop_left' (length_wordBytes v)]

end FanatecWheel.Foundation
