import Mathlib.Data.List.Basic
import Mathlib.Logic.Function.Iterate

/-!
# Reflected CRC registers

A register that shifts to the right and takes in the reflected polynomial when a
one leaves it, fed one bit at a time. It is linear over exclusive or, so that an
error is judged by its own bits: the register that started at zero and was fed
the error is zero if and only if the error goes unnoticed.
-/

namespace FanatecWheel.Foundation.ShiftRegister

variable {w : ℕ} (poly : BitVec w)

def shift (s : BitVec w) : BitVec w :=
  if s.getLsbD 0 then (s >>> 1) ^^^ poly else s >>> 1

/-- A bit in the lowest place. -/
def low (b : Bool) : BitVec w := if b then 1#w else 0#w

/-- The register after the bits, the first one first. -/
def feed (s : BitVec w) (bits : List Bool) : BitVec w :=
  bits.foldl (fun s b => shift poly (s ^^^ low b)) s

/-- The bits in one word, the first one in the lowest place. -/
def pack : List Bool → BitVec w
  | [] => 0#w
  | b :: rest => low b ^^^ pack rest <<< 1

@[simp] theorem shift_zero : shift poly 0#w = 0#w := by simp [shift]

@[simp] theorem iterate_shift_zero (n : ℕ) : (shift poly)^[n] 0#w = 0#w :=
  Function.iterate_fixed (shift_zero poly) n

@[simp] theorem low_false : low false = 0#w := rfl

theorem low_xor (a b : Bool) : (low (a ^^ b) : BitVec w) = low a ^^^ low b := by
  cases a <;> cases b <;> simp [low]

/-! ### Linearity -/

theorem shift_xor (a b : BitVec w) : shift poly (a ^^^ b) = shift poly a ^^^ shift poly b := by
  unfold shift
  rw [BitVec.getLsbD_xor, BitVec.ushiftRight_xor_distrib]
  -- the polynomial comes in once, twice or not at all
  cases a.getLsbD 0 <;> cases b.getLsbD 0 <;>
    simp only [Bool.xor_false, Bool.xor_true, Bool.not_true, Bool.not_false, Bool.false_eq_true,
      if_true, if_false]
  · ac_rfl
  · ac_rfl
  · calc a >>> 1 ^^^ b >>> 1
        = a >>> 1 ^^^ b >>> 1 ^^^ (poly ^^^ poly) := by rw [BitVec.xor_self, BitVec.xor_zero]
      _ = a >>> 1 ^^^ poly ^^^ (b >>> 1 ^^^ poly) := by ac_rfl

theorem feed_cons (s : BitVec w) (b : Bool) (rest : List Bool) :
    feed poly s (b :: rest) = feed poly (shift poly (s ^^^ low b)) rest := rfl

theorem feed_append (s : BitVec w) (xs ys : List Bool) :
    feed poly s (xs ++ ys) = feed poly (feed poly s xs) ys := List.foldl_append

/-- Two registers fed side by side. -/
theorem feed_xor (s t : BitVec w) (xs ys : List Bool) (same : xs.length = ys.length) :
    feed poly (s ^^^ t) (List.zipWith xor xs ys) = feed poly s xs ^^^ feed poly t ys := by
  induction xs generalizing s t ys with
  | nil =>
    cases ys with
    | nil => rfl
    | cons y ys => cases same
  | cons x xs ih =>
    cases ys with
    | nil => cases same
    | cons y ys =>
      have step : shift poly (s ^^^ t ^^^ low (x ^^ y)) =
          shift poly (s ^^^ low x) ^^^ shift poly (t ^^^ low y) := by
        rw [low_xor, ← shift_xor]
        congr 1
        ac_rfl
      rw [List.zipWith_cons_cons, feed_cons, step, ih _ _ _ (Nat.succ_inj.mp same)]
      rfl

/-! ### No state is lost -/

/-- A polynomial with its highest bit set lets no two states meet. -/
theorem shift_eq_zero (top : poly.getLsbD (w - 1) = true) {s : BitVec w}
    (zero : shift poly s = 0#w) : s = 0#w := by
  have wide : 0 < w := by
    by_contra none_wide
    have narrow : w = 0 := by omega
    subst narrow
    simp at top
  unfold shift at zero
  split at zero
  next leaves =>
    -- the bit that came in on top is not cleared by anything
    have bit := congrArg (BitVec.getLsbD · (w - 1)) zero
    have above : 1 + (w - 1) = w := by omega
    simp only [BitVec.getLsbD_xor, BitVec.getLsbD_ushiftRight, above, top, BitVec.getLsbD_zero,
      BitVec.getLsbD_of_ge s w (Nat.le_refl _), Bool.false_xor, Bool.true_eq_false] at bit
  next stays =>
    apply BitVec.eq_of_getLsbD_eq
    intro i _
    rw [BitVec.getLsbD_zero]
    cases i with
    | zero => simpa using stays
    | succ i =>
      have bit := congrArg (BitVec.getLsbD · i) zero
      simpa only [BitVec.getLsbD_ushiftRight, BitVec.getLsbD_zero, Nat.add_comm 1 i] using bit

theorem iterate_shift_eq_zero (top : poly.getLsbD (w - 1) = true) {n : ℕ} {s : BitVec w}
    (zero : (shift poly)^[n] s = 0#w) : s = 0#w := by
  induction n generalizing s with
  | zero => exact zero
  | succ n ih => exact shift_eq_zero poly top (ih zero)

/-! ### A word at a time -/

theorem getLsbD_pack (bits : List Bool) (i : ℕ) (inside : i < w) :
    (pack bits : BitVec w).getLsbD i = bits[i]?.getD false := by
  induction bits generalizing i with
  | nil => simp [pack]
  | cons b rest ih =>
    have lowest : (low b : BitVec w).getLsbD i = (decide (i = 0) && b) := by
      cases b <;> simp [low, inside]
    rw [pack, BitVec.getLsbD_xor, lowest, BitVec.getLsbD_shiftLeft]
    cases i with
    | zero => simp
    | succ i => simp [inside, ih i (by omega)]

/-- A word whose top place is free comes back from a shift to the left. -/
theorem shift_shiftLeft (s : BitVec w) (free : s.getLsbD (w - 1) = false) :
    shift poly (s <<< 1) = s := by
  have even : (s <<< 1).getLsbD 0 = false := by simp
  rw [shift, even, if_neg (by simp)]
  apply BitVec.eq_of_getLsbD_eq
  intro i inside
  rw [BitVec.getLsbD_ushiftRight, BitVec.getLsbD_shiftLeft]
  by_cases last : i = w - 1
  · have outside : ¬ 1 + i < w := by omega
    rw [last, free] at *
    simp [outside]
  · have within : 1 + i < w := by omega
    simp [within]

/-- Feeding at most a word of bits is adding the word, then shifting. -/
theorem feed_pack (s : BitVec w) (bits : List Bool) (short : bits.length ≤ w) :
    feed poly s bits = (shift poly)^[bits.length] (s ^^^ pack bits) := by
  induction bits generalizing s with
  | nil => simp [feed, pack]
  | cons b rest ih =>
    have fits : rest.length < w := short
    have free : (pack rest : BitVec w).getLsbD (w - 1) = false := by
      rw [getLsbD_pack rest (w - 1) (by omega), List.getElem?_eq_none (by omega)]
      rfl
    have taken : shift poly (s ^^^ low b) ^^^ pack rest = shift poly (s ^^^ pack (b :: rest)) := by
      rw [pack, ← BitVec.xor_assoc, shift_xor poly (s ^^^ low b), shift_shiftLeft poly _ free]
    rw [feed_cons, ih _ (Nat.le_of_lt fits), taken]
    rfl

/-! ### Errors -/

/-- Zeros only shift the register. -/
theorem feed_false (s : BitVec w) (bits : List Bool) (quiet : ∀ b ∈ bits, b = false) :
    feed poly s bits = (shift poly)^[bits.length] s := by
  induction bits generalizing s with
  | nil => rfl
  | cons b rest ih =>
    obtain ⟨rfl, later⟩ := List.forall_mem_cons.mp quiet
    rw [feed_cons, low_false, BitVec.xor_zero, ih _ later]
    rfl

/-- Only the bits of a window that holds every one matter. -/
theorem feed_window (top : poly.getLsbD (w - 1) = true) (bits : List Bool) (i m : ℕ)
    (window : ∀ p, bits[p]? = some true → i ≤ p ∧ p < i + m)
    (noticed : feed poly 0#w ((bits.drop i).take m) ≠ 0#w) : feed poly 0#w bits ≠ 0#w := by
  have before : ∀ b ∈ bits.take i, b = false := by
    intro b member
    obtain ⟨p, below, rfl⟩ := List.mem_take_iff_getElem.mp member
    by_contra set
    have inside := window p (by rw [List.getElem?_eq_getElem (by omega)]; simpa using set)
    omega
  have after : ∀ b ∈ (bits.drop i).drop m, b = false := by
    intro b member
    rw [List.drop_drop] at member
    obtain ⟨p, above, rfl⟩ := List.mem_drop_iff_getElem.mp member
    by_contra set
    have inside := window (i + m + p) (by
      rw [List.getElem?_eq_getElem (by omega)]; simpa using set)
    omega
  -- zeros before the window leave the register at zero, zeros behind it only shift it on
  have parts : bits = bits.take i ++ ((bits.drop i).take m ++ (bits.drop i).drop m) := by
    rw [List.take_append_drop, List.take_append_drop]
  intro zero
  rw [parts, feed_append, feed_append, feed_false poly _ _ before, iterate_shift_zero,
    feed_false poly _ _ after] at zero
  exact noticed (iterate_shift_eq_zero poly top zero)

/-- **Bursts.** An error inside a window no longer than the register is noticed. -/
theorem feed_burst (top : poly.getLsbD (w - 1) = true) (bits : List Bool) (i p : ℕ)
    (set : bits[p]? = some true)
    (window : ∀ p, bits[p]? = some true → i ≤ p ∧ p < i + w) : feed poly 0#w bits ≠ 0#w := by
  apply feed_window poly top bits i w window
  intro zero
  rw [feed_pack poly _ _ (List.length_take_le _ _), BitVec.zero_xor] at zero
  have empty := iterate_shift_eq_zero poly top zero
  obtain ⟨from_i, to_w⟩ := window p set
  have bit := getLsbD_pack ((bits.drop i).take w) (p - i) (show p - i < w by omega)
  have place : ((bits.drop i).take w)[p - i]? = some true := by
    rw [List.getElem?_take_of_lt (by omega), List.getElem?_drop, Nat.add_sub_cancel' from_i, set]
  rw [empty, place, BitVec.getLsbD_zero] at bit
  cases bit

/-- **Two bits.** Two ones are noticed unless the register returns to one between
them. -/
theorem feed_pair (top : poly.getLsbD (w - 1) = true) (bits : List Bool) (p q : ℕ) (apart : p < q)
    (first : bits[p]? = some true) (second : bits[q]? = some true)
    (others : ∀ i, bits[i]? = some true → i = p ∨ i = q)
    (period : (shift poly)^[q - p] 1#w ≠ 1#w) : feed poly 0#w bits ≠ 0#w := by
  have long : q < bits.length := (List.getElem?_eq_some_iff.mp second).1
  refine feed_window poly top bits p (q - p + 1) (fun i set => ?_) ?_
  · rcases others i set with rfl | rfl <;> omega
  -- the window is a one, zeros, and a one
  have quiet : ∀ b ∈ (bits.drop (p + 1)).take (q - p - 1), b = false := by
    intro b member
    obtain ⟨j, below, rfl⟩ := List.mem_take_iff_getElem.mp member
    by_contra set
    rw [List.length_drop] at below
    have place := others (p + 1 + j) (by
      rw [List.getElem?_eq_getElem (by omega)]; simpa using set)
    omega
  have window : (bits.drop p).take (q - p + 1) =
      true :: ((bits.drop (p + 1)).take (q - p - 1) ++ [true]) := by
    have head : bits.drop p = true :: bits.drop (p + 1) := by
      rw [List.drop_eq_getElem_cons (by omega), ← (List.getElem?_eq_some_iff.mp first).2]
    have last : (bits.drop (p + 1))[q - p - 1]? = some true := by
      rw [List.getElem?_drop, ← second]
      congr 1
      omega
    have size : q - p = q - p - 1 + 1 := by omega
    rw [head, List.take_succ_cons, size, List.take_add_one, last]
    rfl
  have count : ((bits.drop (p + 1)).take (q - p - 1)).length = q - p - 1 := by
    rw [List.length_take, List.length_drop]
    omega
  intro zero
  rw [window] at zero
  have shifted : feed poly 0#w (true :: ((bits.drop (p + 1)).take (q - p - 1) ++ [true])) =
      shift poly ((shift poly)^[q - p] 1#w ^^^ 1#w) := by
    have size : q - p = (q - p - 1) + 1 := by omega
    have turns : (shift poly)^[q - p] 1#w = (shift poly)^[q - p - 1] (shift poly 1#w) := by
      conv_lhs => rw [size]
      rfl
    rw [turns, feed_cons, feed_append, feed_false poly _ _ quiet, count]
    simp only [feed, List.foldl_cons, List.foldl_nil, low, if_true, BitVec.zero_xor]
  rw [shifted] at zero
  exact period (BitVec.xor_eq_zero_iff.mp (shift_eq_zero poly top zero))

/-- Whether an odd number of the bits is set. -/
def parity (bits : List Bool) : Bool := bits.foldr xor false

theorem parity_zipWith (xs ys : List Bool) (same : xs.length = ys.length) :
    parity (List.zipWith xor xs ys) = (parity xs ^^ parity ys) := by
  induction xs generalizing ys with
  | nil =>
    cases ys with
    | nil => rfl
    | cons y ys => cases same
  | cons x xs ih =>
    cases ys with
    | nil => cases same
    | cons y ys =>
      have rest := ih ys (Nat.succ_inj.mp same)
      simp only [parity, List.zipWith_cons_cons, List.foldr_cons] at rest ⊢
      rw [rest, Bool.xor_assoc, Bool.xor_assoc, Bool.xor_left_comm y]

theorem parity_eq_count (bits : List Bool) :
    parity bits = decide (bits.count true % 2 = 1) := by
  induction bits with
  | nil => rfl
  | cons b rest ih =>
    simp only [parity, List.foldr_cons] at ih ⊢
    rw [ih]
    cases b
    · simp
    · have flip : (rest.count true + 1) % 2 = 1 ↔ ¬ rest.count true % 2 = 1 := by omega
      simp only [List.count_cons_self, flip, decide_not, Bool.true_xor]

/-- **Parity.** A linear functional that the shift keeps and that is one on the
lowest place reads off the parity of the bits. -/
theorem feed_parity (read : BitVec w → Bool) (additive : ∀ a b, read (a ^^^ b) = (read a ^^ read b))
    (kept : ∀ s, read (shift poly s) = read s) (one : read 1#w = true)
    (s : BitVec w) (bits : List Bool) : read (feed poly s bits) = (read s ^^ parity bits) := by
  have zero : read 0#w = false := by
    have cancelled := additive 0#w 0#w
    rwa [BitVec.xor_self, Bool.xor_self] at cancelled
  have lowest : ∀ b, read (low b) = b := by
    intro b
    cases b
    · exact zero
    · exact one
  induction bits generalizing s with
  | nil => simp [feed, parity]
  | cons b rest ih =>
    rw [feed_cons, ih, kept, additive, lowest, Bool.xor_assoc]
    rfl

end FanatecWheel.Foundation.ShiftRegister
