import Mathlib.Algebra.Order.Ring.Int
import Mathlib.Data.Fintype.Basic
import Mathlib.Data.List.Rotate
import FanatecWheel.Foundation.Counter

/-!
# A ring that keeps the newest entries of a log

The write counter has `w` bits and the slot is the counter modulo the number of
slots. Reading works out the oldest entry from the counter alone, so it is right
as long as the counter still tells how many slots are filled.
-/

namespace FanatecWheel.Foundation

/-- `n` slots and a `w`-bit count of the entries written. -/
structure Ring (α : Type*) (n w : ℕ) where
  ring : Fin n → α
  wr : BitVec w

namespace Ring

variable {α : Type*} {n w : ℕ} [NeZero n]

def slot (n : ℕ) [NeZero n] (count : BitVec w) : Fin n := Fin.ofNat n count.toNat

def append (r : Ring α n w) (x : α) : Ring α n w :=
  { r with ring := Function.update r.ring (slot n r.wr) x, wr := r.wr + 1#w }

/-- How many entries the counter says can be read. -/
def avail (r : Ring α n w) : BitVec w :=
  if r.wr.toNat < n then r.wr else BitVec.ofNat w n

/-- Entry `idx`, oldest first; `none` past the end. -/
def read (r : Ring α n w) (idx : BitVec w) : Option α :=
  if r.avail ≤ idx then none else some (r.ring (slot n (r.wr - r.avail + idx)))

/-- The entries the counter says can be read, oldest first. -/
def contents (r : Ring α n w) : List α :=
  (List.range r.avail.toNat).map fun k => r.ring (slot n (r.wr - r.avail + BitVec.ofNat w k))

theorem length_contents (r : Ring α n w) : r.contents.length = r.avail.toNat := by
  rw [contents, List.length_map, List.length_range]

theorem read_contents (r : Ring α n w) (idx : BitVec w) :
    r.read idx = r.contents[idx.toNat]? := by
  by_cases past : r.avail ≤ idx
  · rw [read, if_pos past, List.getElem?_eq_none]
    rw [length_contents]
    exact past
  · have inside : idx.toNat < r.avail.toNat := Nat.lt_of_not_le past
    rw [read, if_neg past, contents, List.getElem?_map, List.getElem?_range inside, Option.map_some,
      BitVec.ofNat_toNat, BitVec.setWidth_eq]

omit [NeZero n] in
theorem avail_le (small : n < 2 ^ w) (r : Ring α n w) : r.avail.toNat ≤ n := by
  rw [avail]
  split
  next filling => exact Nat.le_of_lt filling
  next => rw [BitVec.toNat_ofNat, Nat.mod_eq_of_lt small]

/-- The slots hold the newest entries of the log and the counter its length. -/
structure Holds (r : Ring α n w) (log : List α) : Prop where
  count : r.wr = BitVec.ofNat w log.length
  entry : ∀ k (inside : k < log.length), log.length ≤ k + n → r.ring (Fin.ofNat n k) = log[k]

theorem holds_nil (r : Ring α n w) (unused : r.wr = 0#w) : r.Holds [] :=
  ⟨unused, fun k inside => absurd inside (Nat.not_lt_zero k)⟩

/-- Slots are numbered as if the counter never wrapped. -/
theorem slot_ofNat (whole : n ∣ 2 ^ w) (k : ℕ) : slot n (BitVec.ofNat w k) = Fin.ofNat n k := by
  apply Fin.ext
  simp only [slot, Fin.val_ofNat, BitVec.toNat_ofNat]
  exact Nat.mod_mod_of_dvd k whole

theorem holds_append (whole : n ∣ 2 ^ w) {r : Ring α n w} {log : List α} (held : r.Holds log)
    (x : α) : (r.append x).Holds (log ++ [x]) := by
  have position : slot n r.wr = Fin.ofNat n log.length := by
    rw [held.count, slot_ofNat whole]
  constructor
  · simp only [append, held.count, List.length_append, List.length_singleton]
    exact (count_succ log.length).symm
  · intro k inside recent
    simp only [List.length_append, List.length_singleton] at inside recent
    simp only [append, position]
    -- the slot just written holds the new entry
    by_cases newest : k = log.length
    · subst newest
      simp
    · have older : k < log.length := by omega
      -- an older entry within the last `n` is in another slot
      have distinct : Fin.ofNat n k ≠ Fin.ofNat n log.length := by
        intro same
        have equal := congrArg Fin.val same
        simp only [Fin.val_ofNat] at equal
        have gap : (log.length - k) % n = 0 := Nat.sub_mod_eq_zero_of_mod_eq equal.symm
        rw [Nat.mod_eq_of_lt (by omega)] at gap
        omega
      rw [Function.update_of_ne distinct, held.entry k older (by omega),
        List.getElem_append_left older]

section Read

variable {r : Ring α n w} {log : List α}

/-- The counter still tells whether the ring is full. -/
def Telling (n w count : ℕ) : Prop := count < 2 ^ w ∨ n ≤ count % 2 ^ w

theorem avail_toNat (small : n < 2 ^ w) (held : r.Holds log) :
    r.avail.toNat = min (log.length % 2 ^ w) n := by
  have total : r.wr.toNat = log.length % 2 ^ w := by rw [held.count, BitVec.toNat_ofNat]
  unfold avail
  split
  · rw [total] at *
    omega
  · rw [BitVec.toNat_ofNat, Nat.mod_eq_of_lt small]
    omega

omit [NeZero n] in
theorem telling_avail (telling : Telling n w log.length) :
    min (log.length % 2 ^ w) n = min log.length n := by
  rcases telling with short | full
  · rw [Nat.mod_eq_of_lt short]
  · have above : log.length % 2 ^ w ≤ log.length := Nat.mod_le _ _
    omega

/-- While the counter tells, reading returns the newest entries oldest first and
nothing else. -/
theorem read_telling (whole : n ∣ 2 ^ w) (small : n < 2 ^ w) (held : r.Holds log)
    (telling : Telling n w log.length) (idx : BitVec w) :
    r.read idx = if idx.toNat < min log.length n then
        log[log.length - min log.length n + idx.toNat]?
      else none := by
  have reach : r.avail.toNat = min log.length n := by
    rw [avail_toNat small held, telling_avail telling]
  by_cases inside : idx.toNat < min log.length n
  · have open_ : ¬ r.avail ≤ idx := by
      rw [BitVec.le_def, reach]
      omega
    rw [read, if_neg open_, if_pos inside]
    have below : log.length - min log.length n + idx.toNat < log.length := by omega
    -- the counter and the number of readable entries may both have wrapped; their
    -- difference has not
    have position : r.wr - r.avail + idx =
        BitVec.ofNat w (log.length - min log.length n + idx.toNat) := by
      have filled : r.avail = BitVec.ofNat w (min log.length n) := by
        rw [← reach, BitVec.ofNat_toNat, BitVec.setWidth_eq]
      have index : idx = BitVec.ofNat w idx.toNat := by
        rw [BitVec.ofNat_toNat, BitVec.setWidth_eq]
      rw [held.count, filled, count_sub (Nat.min_le_left _ _), BitVec.ofNat_add, ← index]
    rw [position, slot_ofNat whole, held.entry _ below (by omega), List.getElem?_eq_getElem below]
  · have closed : r.avail ≤ idx := by
      rw [BitVec.le_def, reach]
      omega
    rw [read, if_pos closed, if_neg inside]

theorem contents_telling (whole : n ∣ 2 ^ w) (small : n < 2 ^ w) (held : r.Holds log)
    (telling : Telling n w log.length) :
    r.contents = log.drop (log.length - min log.length n) := by
  have filled : r.avail.toNat = min log.length n := by
    rw [avail_toNat small held, telling_avail telling]
  apply List.ext_getElem?
  intro k
  by_cases inside : k < min log.length n
  · have index : (BitVec.ofNat w k).toNat = k := by
      rw [BitVec.toNat_ofNat, Nat.mod_eq_of_lt (by omega)]
    have found := read_telling whole small held telling (BitVec.ofNat w k)
    rw [read_contents, index, if_pos inside] at found
    rw [found, List.getElem?_drop]
  · rw [List.getElem?_eq_none (by rw [length_contents]; omega),
      List.getElem?_eq_none (by rw [List.length_drop]; omega)]

/-- Whatever the counter tells, the entries that can be read are the newest ones. -/
theorem contents_suffix (whole : n ∣ 2 ^ w) (small : n < 2 ^ w) (held : r.Holds log) :
    r.contents <:+ log := by
  have reach := avail_toNat small held
  have few : r.avail.toNat ≤ log.length :=
    reach ▸ (Nat.min_le_left _ _).trans (Nat.mod_le _ _)
  have bounded := avail_le small r
  have newest : r.contents = log.drop (log.length - r.avail.toNat) := by
    apply List.ext_getElem
    · rw [length_contents, List.length_drop]
      omega
    · intro k inside below
      rw [length_contents] at inside
      have position : r.wr - r.avail + BitVec.ofNat w k =
          BitVec.ofNat w (log.length - r.avail.toNat + k) := by
        have oldest := count_sub (w := w) few
        rw [BitVec.ofNat_toNat, BitVec.setWidth_eq] at oldest
        rw [held.count, oldest, ← BitVec.ofNat_add]
      simp only [contents, List.getElem_map, List.getElem_range, List.getElem_drop]
      rw [position, slot_ofNat whole, held.entry _ (by omega) (by omega)]
  rw [newest]
  exact List.drop_suffix _ _

/-- Once the counter has wrapped and not yet refilled, entries still in the ring
are reported as missing. -/
theorem read_wrapped (small : n < 2 ^ w) (held : r.Holds log)
    (wrapped : ¬ Telling n w log.length) :
    ∃ idx : BitVec w, idx.toNat < min log.length n ∧ r.read idx = none := by
  unfold Telling at wrapped
  refine ⟨r.avail, ?_, ?_⟩
  · rw [avail_toNat small held]
    omega
  · rw [read, if_pos (BitVec.le_refl _)]

/-- Reading is right for every index exactly when the counter tells. -/
theorem reads_log_iff (whole : n ∣ 2 ^ w) (small : n < 2 ^ w) (held : r.Holds log) :
    (∀ idx : BitVec w, r.read idx =
      if idx.toNat < min log.length n then log[log.length - min log.length n + idx.toNat]?
      else none) ↔ Telling n w log.length := by
  constructor
  · intro right
    by_contra wrapped
    -- a counter that does not tell has an index that reads wrong
    obtain ⟨idx, inside, missing⟩ := read_wrapped small held wrapped
    have found := right idx
    rw [if_pos inside, missing] at found
    have below : log.length - min log.length n + idx.toNat < log.length := by omega
    rw [List.getElem?_eq_getElem below] at found
    cases found
  · exact fun telling idx => read_telling whole small held telling idx

end Read

/-- The filled slots hold the newest entries, in the order of the slots. -/
theorem window_perm {r : Ring α n w} {log : List α} (held : r.Holds log) :
    ((List.ofFn r.ring).take (min log.length n)).Perm
      (log.drop (log.length - min log.length n)) := by
  rcases Nat.lt_or_ge log.length n with filling | full
  · -- nothing has been overwritten
    rw [Nat.min_eq_left (Nat.le_of_lt filling), Nat.sub_self, List.drop_zero]
    apply List.Perm.of_eq
    apply List.ext_getElem
    · rw [List.length_take, List.length_ofFn, Nat.min_eq_left (Nat.le_of_lt filling)]
    · intro k below inside
      rw [List.getElem_take, List.getElem_ofFn, ← held.entry k inside (by omega)]
      congr 1
      apply Fin.ext
      exact (Nat.mod_eq_of_lt (by omega)).symm
  · -- the window has turned round in the slots
    have turned : log.drop (log.length - n) = (List.ofFn r.ring).rotate (log.length - n) := by
      apply List.ext_getElem
      · rw [List.length_rotate, List.length_drop, List.length_ofFn]
        omega
      · intro k inside below
        rw [List.length_drop] at inside
        rw [List.getElem_drop, List.getElem_rotate, List.getElem_ofFn,
          ← held.entry _ (by omega) (by omega)]
        congr 1
        apply Fin.ext
        simp only [Fin.val_ofNat, List.length_ofFn, Nat.add_comm k]
    have whole : (List.ofFn r.ring).take n = List.ofFn r.ring := by
      rw [List.take_of_length_le (by rw [List.length_ofFn])]
    rw [Nat.min_eq_right full, whole, turned]
    exact (List.rotate_perm _ _).symm

end Ring

end FanatecWheel.Foundation
