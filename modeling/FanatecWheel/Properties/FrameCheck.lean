import Mathlib.Data.Fintype.Fin
import Mathlib.Data.List.OfFn
import FanatecWheel.Foundation.ShiftRegister
import FanatecWheel.Host.FrameModel
import FanatecWheel.Rimlink.Frame

/-!
# What the CRC of a frame detects

The table of the firmware, the table of the host and the bit loop of the unit test
are one shift register. A frame is accepted when the register, started at `0xFF`
and fed the 33 bytes lowest bit first, ends at zero; so an error is noticed when
the register started at zero does not end there on the bits of the error.
-/

namespace FanatecWheel.Rimlink

open Foundation.ShiftRegister

/-! ### Three programs for one checksum -/

/-- One turn of the bit loop of `ref_crc8`. -/
def refCrc8Bit (crc : U8) : U8 := if crc &&& 1 ≠ 0 then (crc >>> 1) ^^^ 0x8C else crc >>> 1

/-- `ref_crc8` of the unit test, bit by bit. -/
def refCrc8 (data : List U8) : U8 :=
  data.foldl (fun crc d => refCrc8Bit^[8] (crc ^^^ d)) 0xFF

/-- The reflected polynomial. -/
def crc8Poly : U8 := 0x8C

theorem refCrc8Bit_eq : refCrc8Bit = shift crc8Poly := by
  funext crc
  revert crc
  decide +kernel

private theorem crc8Table_shifted :
    crc8Table.toList = (List.range 256).map fun i => (shift crc8Poly)^[8] (BitVec.ofNat 8 i) := by
  decide +kernel

theorem crc8Table_eq (i : U8) : crc8Table.get i.toFin = (shift crc8Poly)^[8] i := by
  have entry := crc8Table_entry i.toFin
  have whole : BitVec.ofNat 8 i.toFin = i := BitVec.ofNat_toNat 8 i
  rw [crc8Table_shifted, List.getElem?_map, List.getElem?_range i.toFin.isLt, Option.map_some,
    whole] at entry
  exact (Option.some.inj entry).symm

theorem crc8Step_eq (crc byte : U8) : crc8Step crc byte = (shift crc8Poly)^[8] (crc ^^^ byte) := by
  rw [crc8Step, crc8Table_eq, BitVec.xor_comm]

/-- **One checksum.** For all bytes the firmware, the host and the bitwise
definition agree. -/
theorem crc8_agree (data : List U8) :
    crc8 data = refCrc8 data ∧ Host.crc8 data = some (refCrc8 data).toNat := by
  have same : crc8 data = refCrc8 data := by
    have step : crc8Step = fun crc d => refCrc8Bit^[8] (crc ^^^ d) := by
      funext crc d
      rw [crc8Step_eq, refCrc8Bit_eq]
    rw [crc8, refCrc8, step]
    rfl
  exact ⟨same, by rw [Host.crc8_eq, same]⟩

/-! ### A frame as a row of bits -/

/-- The bits of a byte, lowest first. -/
def byteBits (b : U8) : List Bool := List.ofFn fun i : Fin 8 => b.getLsbD i

/-- Bit `p` of a frame, byte by byte and lowest bit first. -/
def frameBit (frame : Frame) (p : Fin 264) : Bool :=
  (frame ⟨p / 8, by omega⟩).getLsbD (p % 8)

def frameBits (frame : Frame) : List Bool := List.ofFn (frameBit frame)

theorem length_frameBits (frame : Frame) : (frameBits frame).length = 264 := List.length_ofFn

theorem pack_byteBits (b : U8) : pack (byteBits b) = b := by
  apply BitVec.eq_of_getLsbD_eq
  intro i inside
  rw [getLsbD_pack _ i inside, byteBits, List.getElem?_ofFn]
  simp [inside]

theorem crc8Step_feed (crc byte : U8) :
    crc8Step crc byte = feed crc8Poly crc (byteBits byte) := by
  rw [feed_pack crc8Poly crc _ (by simp [byteBits]), pack_byteBits, crc8Step_eq]
  simp [byteBits]

theorem foldl_crc8Step (data : List U8) (crc : U8) :
    data.foldl crc8Step crc = feed crc8Poly crc (data.flatMap byteBits) := by
  induction data generalizing crc with
  | nil => rfl
  | cons b rest ih => rw [List.foldl_cons, List.flatMap_cons, feed_append, ← crc8Step_feed, ih]

theorem frameBits_eq (frame : Frame) :
    frameBits frame = (crcRegion frame ++ [frame offCrc]).flatMap byteBits := by
  have bytes : crcRegion frame ++ [frame offCrc] = List.ofFn frame := by
    rw [List.ofFn_succ', List.concat_eq_append]
    rfl
  have rows := List.ofFn_mul (m := 33) (n := 8) (frameBit frame)
  rw [bytes, List.flatMap_def, List.map_ofFn]
  refine rows.trans (congrArg List.flatten (congrArg List.ofFn ?_))
  funext i
  simp only [Function.comp_apply, byteBits]
  congr 1
  funext j
  have byte : (i.val * 8 + j.val) / 8 = i.val := by omega
  have place : (i.val * 8 + j.val) % 8 = j.val := by omega
  simp only [frameBit, byte, place]

/-- The seal as a register that ends at zero. -/
theorem sealed_iff_feed (frame : Frame) :
    Sealed frame ↔ feed crc8Poly 0xFF (frameBits frame) = 0 := by
  have last : feed crc8Poly 0xFF (frameBits frame) =
      (shift crc8Poly)^[8] (crc8 (crcRegion frame) ^^^ frame offCrc) := by
    rw [frameBits_eq, ← foldl_crc8Step, List.foldl_append, List.foldl_cons, List.foldl_nil,
      crc8Step_eq]
    rfl
  rw [last, Sealed, ← BitVec.xor_eq_zero_iff]
  constructor
  · intro same
    rw [same]
    exact iterate_shift_zero crc8Poly 8
  · exact iterate_shift_eq_zero crc8Poly (by decide)

/-! ### Errors -/

/-- The frame with an error on it. -/
def corrupted (frame e : Frame) : Frame := fun i => frame i ^^^ e i

theorem frameBits_corrupted (frame e : Frame) :
    frameBits (corrupted frame e) = List.zipWith xor (frameBits frame) (frameBits e) := by
  apply List.ext_getElem
  · rw [List.length_zipWith, length_frameBits, length_frameBits, length_frameBits, Nat.min_self]
  · intro p _ _
    simp only [List.getElem_zipWith, frameBits, List.getElem_ofFn, frameBit, corrupted,
      BitVec.getLsbD_xor]

/-- An error on an accepted frame is noticed if the register is moved by it. -/
theorem corrupted_rejected {frame e : Frame} (accepted : Sealed frame)
    (moved : feed crc8Poly 0 (frameBits e) ≠ 0) : ¬ Sealed (corrupted frame e) := by
  rw [sealed_iff_feed] at accepted ⊢
  have apart := feed_xor crc8Poly 0xFF 0 (frameBits frame) (frameBits e)
    ((length_frameBits frame).trans (length_frameBits e).symm)
  have start : (0xFF ^^^ 0 : U8) = 0xFF := by decide
  rw [start, accepted] at apart
  rw [frameBits_corrupted, apart]
  exact fun zero => moved (BitVec.zero_xor.symm.trans zero)

/-- The positions an error flips. -/
def setBits (e : Frame) : Finset (Fin 264) := Finset.univ.filter fun p => frameBit e p = true

theorem mem_setBits {e : Frame} {p : Fin 264} : p ∈ setBits e ↔ frameBit e p = true := by
  simp [setBits]

theorem getElem_frameBits (e : Frame) (p : ℕ) :
    (frameBits e)[p]? = some true ↔ ∃ inside : p < 264, ⟨p, inside⟩ ∈ setBits e := by
  rw [frameBits, List.getElem?_ofFn]
  by_cases inside : p < 264 <;> simp [inside, mem_setBits]

theorem count_frameBits (e : Frame) : (frameBits e).count true = (setBits e).card := by
  rw [frameBits, List.ofFn_eq_map, List.count_eq_countP, List.countP_map,
    List.countP_eq_length_filter]
  rfl

def byteParity (b : U8) : Bool := parity (byteBits b)

theorem byteParity_xor (a b : U8) : byteParity (a ^^^ b) = (byteParity a ^^ byteParity b) := by
  have bits : byteBits (a ^^^ b) = List.zipWith xor (byteBits a) (byteBits b) := by
    simp [byteBits, List.ofFn_succ]
  rw [byteParity, bits, parity_zipWith _ _ (by simp [byteBits])]
  rfl

/-- The polynomial has an odd number of terms below the highest: it has the factor
`x + 1`. -/
theorem byteParity_shift (b : U8) : byteParity (shift crc8Poly b) = byteParity b := by
  revert b
  decide +kernel

/-- The register does not return to one in fewer than 127 shifts. -/
theorem crc8Poly_order (d : Fin 127) (moved : d ≠ 0) : (shift crc8Poly)^[d.val] 1 ≠ 1 := by
  revert d
  decide +kernel

/-- The errors that the CRC is meant to find: an odd number of bits, a burst within
eight positions, or two bits less than 127 positions apart. -/
inductive Detectable (e : Frame) : Prop
  | odd (count : Odd (setBits e).card)
  | burst (i : ℕ) (some_bit : (setBits e).Nonempty)
      (window : ∀ p ∈ setBits e, i ≤ p.val ∧ p.val < i + 8)
  | pair (p q : Fin 264) (apart : p < q) (near : q.val - p.val < 127)
      (two : setBits e = {p, q})

/-- A corrupted byte is a burst, the CRC byte included. -/
theorem detectable_byte (i : Fin 33) (flips : U8) (some_flip : flips ≠ 0) :
    Detectable (Function.update (fun _ => 0) i flips) := by
  have bit : ∀ p, frameBit (Function.update (fun _ => 0) i flips) p =
      (decide (p.val / 8 = i.val) && flips.getLsbD (p.val % 8)) := by
    intro p
    by_cases byte : p.val / 8 = i.val
    · have same : (⟨p.val / 8, by omega⟩ : Fin 33) = i := Fin.ext byte
      simp only [frameBit, Function.update_self, byte, decide_true, Bool.true_and]
    · have other : (⟨p.val / 8, by omega⟩ : Fin 33) ≠ i := fun same => byte (congrArg Fin.val same)
      simp only [frameBit, Function.update_of_ne other, byte, decide_false, Bool.false_and,
        BitVec.getLsbD_zero, BitVec.ofNat_eq_ofNat]
  -- the window of the burst is the byte
  refine .burst (i.val * 8) ?_ fun p member => ?_
  · obtain ⟨k, inside, set⟩ : ∃ k, k < 8 ∧ flips.getLsbD k = true := by
      by_contra none_set
      refine some_flip (BitVec.eq_of_getLsbD_eq fun k inside => ?_)
      rw [BitVec.ofNat_eq_ofNat, BitVec.getLsbD_zero]
      by_contra set
      exact none_set ⟨k, inside, by simpa using set⟩
    refine ⟨⟨i.val * 8 + k, by omega⟩, ?_⟩
    have byte : (i.val * 8 + k) / 8 = i.val := by omega
    have place : (i.val * 8 + k) % 8 = k := by omega
    rw [mem_setBits, bit]
    simp only [byte, place, decide_true, set, Bool.and_self]
  · rw [mem_setBits, bit, Bool.and_eq_true, decide_eq_true_iff] at member
    omega

theorem detectable_moves {e : Frame} (detectable : Detectable e) :
    feed crc8Poly 0 (frameBits e) ≠ 0 := by
  cases detectable with
  | odd count =>
    -- a register of zeros has even parity, the number of flipped bits has not
    intro zero
    have flipped := feed_parity crc8Poly byteParity byteParity_xor byteParity_shift (by decide) 0
      (frameBits e)
    rw [zero, parity_eq_count, count_frameBits, decide_eq_true (Nat.odd_iff.mp count)] at flipped
    revert flipped
    decide
  | burst i some_bit window =>
    obtain ⟨p, set⟩ := some_bit
    refine feed_burst crc8Poly (by decide) (frameBits e) i p.val
      ((getElem_frameBits e p).mpr ⟨p.isLt, set⟩) fun q bit => ?_
    obtain ⟨inside, member⟩ := (getElem_frameBits e q).mp bit
    exact window ⟨q, inside⟩ member
  | pair p q apart near two =>
    have first : p ∈ setBits e := by simp [two]
    have second : q ∈ setBits e := by simp [two]
    refine feed_pair crc8Poly (by decide) (frameBits e) p.val q.val apart
      ((getElem_frameBits e p).mpr ⟨p.isLt, first⟩) ((getElem_frameBits e q).mpr ⟨q.isLt, second⟩)
      (fun i bit => ?_) ?_
    · obtain ⟨inside, member⟩ := (getElem_frameBits e i).mp bit
      rw [two, Finset.mem_insert, Finset.mem_singleton] at member
      exact member.imp (congrArg Fin.val) (congrArg Fin.val)
    · -- fewer shifts than the order of the polynomial do not come back to its start
      refine crc8Poly_order ⟨q.val - p.val, near⟩ ?_
      intro none_apart
      have value := congrArg Fin.val none_apart
      simp only [Fin.val_zero] at value
      have order : p.val < q.val := apart
      omega

/-- **Error detection.** No detectable error turns an accepted frame into another
accepted one. -/
theorem detectable_rejected (frame e : Frame) (accepted : (frameValidate frame).isSome)
    (detectable : Detectable e) : frameValidate (corrupted frame e) = none := by
  rw [frameValidate_none]
  exact corrupted_rejected ((frameValidate_isSome frame).mp accepted) (detectable_moves detectable)

/-- The sealed neutral frame with two bits flipped in different bytes. -/
theorem detectable_rejected_pair :
    let e : Frame := Function.update (Function.update (fun _ => 0) 2 0x10) 17 0x02
    frameValidate (corrupted (frameBuildId .neutral 3) e) = none :=
  detectable_rejected _ _ (by decide +kernel) (.pair 20 137 (by decide) (by decide)
    (by decide +kernel))

end FanatecWheel.Rimlink
