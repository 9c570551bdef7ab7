import FanatecWheel.Host.FrameModel
import FanatecWheel.Rimlink.Frame

/-!
# The frame layout is lossless

What the adapter builds the host decodes to the same fields, and every sealed
frame of that shape is built from exactly one tuple of fields.
-/

namespace FanatecWheel.Rimlink

open Host

/-- What a rim-to-base frame carries. -/
structure FrameFields where
  id : U8
  buttons : BitVec 24
  axisX : U8
  axisY : U8
  encoder : I8
deriving DecidableEq

/-- The frame that carries the fields. -/
def FrameFields.build (f : FrameFields) : Frame :=
  frameBuildId ⟨f.buttons.setWidth 32, f.axisX, f.axisY, f.encoder, 0⟩ (f.id.setWidth 32)

/-- The fields read back from their offsets. -/
def FrameFields.ofFrame (frame : Frame) : FrameFields where
  id := frame offId
  buttons := BitVec.ofNat 24 ((frame offButtons).toNat + 256 * (frame (offButtons + 1)).toNat +
    65536 * (frame (offButtons + 2)).toNat)
  axisX := frame offAxisX
  axisY := frame offAxisY
  encoder := frame offEncoder

/-! ### Decoding what was built -/

theorem crcRegion_eq (frame : Frame) : crcRegion frame = (List.ofFn frame).take 32 := by
  apply List.ext_getElem
  · simp [crcRegion]
  · intro i inside _
    simp [crcRegion]

private theorem or_bytes {x y : ℕ} (z : ℕ) (one : x < 2 ^ 8) (two : y < 2 ^ 8) :
    x ||| y <<< 8 ||| z <<< 16 = x + 256 * y + 65536 * z := by
  have pair : x ||| y <<< 8 = y <<< 8 + x := by
    rw [Nat.or_comm, Nat.shiftLeft_add_eq_or_of_lt one]
  have below : y <<< 8 + x < 2 ^ 16 := by
    rw [Nat.shiftLeft_eq]
    omega
  rw [pair, Nat.or_comm, ← Nat.shiftLeft_add_eq_or_of_lt below, Nat.shiftLeft_eq, Nat.shiftLeft_eq]
  omega

private theorem button_word (b : U32) :
    ((b >>> 0).setWidth 8).toNat ||| ((b >>> 8).setWidth 8).toNat <<< 8 |||
      ((b >>> 16).setWidth 8).toNat <<< 16 = b.toNat % 2 ^ 24 := by
  rw [or_bytes _ (BitVec.isLt _) (BitVec.isLt _)]
  simp [Nat.shiftRight_eq_div_pow]
  omega

private theorem parse_build (inp : RimInputs) (id : RimId) :
    ∃ p, parseFrame (List.ofFn (frameBuildId inp id)) = some p ∧ p.header = 0xA5 ∧
      p.id = (id.setWidth 8).toNat ∧ p.buttons = inp.buttons.toNat % 2 ^ 24 ∧
      p.axisX = inp.axisX.toNat ∧ p.axisY = inp.axisY.toNat ∧ p.encoder = inp.encoder.toNat ∧
      p.crcOk = true := by
  refine ⟨_, parseFrame_eq _, rfl, rfl, button_word inp.buttons, rfl, rfl, rfl, ?_⟩
  rw [← crcRegion_eq]
  exact decide_eq_true (frameBuildId_sealed inp id)

/-! ### Rebuilding what was decoded -/

private theorem bytes_of_word (x y z : U8) (k : Fin 3) :
    (((BitVec.ofNat 24 (x.toNat + 256 * y.toNat + 65536 * z.toNat)).setWidth 32) >>>
      (8 * k.val)).setWidth 8 = ![x, y, z] k := by
  have one := x.isLt
  have two := y.isLt
  have three := z.isLt
  fin_cases k <;>
    simp [← BitVec.toNat_inj, Nat.shiftRight_eq_div_pow] <;> omega

private theorem byte_of_word (b : U8) : (b.setWidth 32).setWidth 8 = b := by
  rw [BitVec.setWidth_setWidth_of_le _ (by decide), BitVec.setWidth_eq]

private theorem build_ofFrame {frame : Frame} (first : frame offHeader = header)
    (reserved : ∀ i : Fin 33, 8 ≤ i.val → i.val ≤ 31 → frame i = 0) (sealed : Sealed frame) :
    (FrameFields.ofFrame frame).build = frame := by
  have buttons : ∀ k : Fin 3, (FrameFields.ofFrame frame).build
      (offButtons + k.castLE (by decide)) = frame (offButtons + k.castLE (by decide)) := by
    intro k
    rw [FrameFields.build, frameBuildId_buttons]
    refine (bytes_of_word _ _ _ k).trans ?_
    fin_cases k <;> rfl
  have body : ∀ i : Fin 32, (FrameFields.ofFrame frame).build i.castSucc = frame i.castSucc := by
    intro i
    -- a reserved byte is zero on both sides, the first eight carry the fields
    by_cases free : 8 ≤ i.val
    · have zero := reserved i.castSucc free (Nat.le_of_lt_succ i.isLt)
      rw [FrameFields.build, frameBuildId_reserved _ _ _ free (Nat.le_of_lt_succ i.isLt), zero]
    · obtain rfl | rfl | rfl | rfl | rfl | rfl | rfl | rfl : i = 0 ∨ i = 1 ∨ i = 2 ∨ i = 3 ∨
          i = 4 ∨ i = 5 ∨ i = 6 ∨ i = 7 := by omega
      · exact (frameBuildId_header _ _).trans first.symm
      · exact byte_of_word (frame offId)
      · exact buttons 0
      · exact buttons 1
      · exact buttons 2
      · rfl
      · rfl
      · rfl
  have region : crcRegion (FrameFields.ofFrame frame).build = crcRegion frame := by
    unfold crcRegion
    congr 1
    funext i
    exact body i
  -- equal bodies have equal CRCs, and both frames are sealed
  funext i
  refine Fin.lastCases ?_ body i
  have built : Sealed (FrameFields.ofFrame frame).build := frameBuildId_sealed _ _
  exact (built.symm.trans (congrArg crc8 region)).trans sealed

private theorem build_injective {f g : FrameFields} (same : f.build = g.build) : f = g := by
  have id : (f.id.setWidth 32).setWidth 8 = (g.id.setWidth 32).setWidth 8 :=
    congrFun same offId
  have word : (f.buttons.setWidth 32).setWidth 24 = (g.buttons.setWidth 32).setWidth 24 := by
    -- the word is determined by its three bytes
    rw [button_bytes]
    intro k
    have byte := congrFun same (offButtons + k.castLE (by decide))
    simpa only [FrameFields.build, frameBuildId_buttons] using byte
  rw [byte_of_word, byte_of_word] at id
  rw [BitVec.setWidth_setWidth_of_le _ (by decide), BitVec.setWidth_setWidth_of_le _ (by decide),
    BitVec.setWidth_eq, BitVec.setWidth_eq] at word
  have axisX : f.axisX = g.axisX := congrFun same offAxisX
  have axisY : f.axisY = g.axisY := congrFun same offAxisY
  have encoder : f.encoder = g.encoder := congrFun same offEncoder
  obtain ⟨_, _, _, _, _⟩ := f
  obtain ⟨_, _, _, _, _⟩ := g
  simp only at id word axisX axisY encoder
  subst id word axisX axisY encoder
  rfl

/-- **Round trip.** A built frame validates, has zero reserved bytes and is decoded by
the host to what went in; and a sealed frame of that shape is built from exactly
one tuple of fields. -/
theorem frame_round_trip :
    (∀ (inp : RimInputs) (id : RimId),
      (frameValidate (frameBuildId inp id)).isSome ∧
      (∀ i : Fin 33, 8 ≤ i.val → i.val ≤ 31 → frameBuildId inp id i = 0) ∧
      ∃ p, parseFrame (List.ofFn (frameBuildId inp id)) = some p ∧ p.header = 0xA5 ∧
        p.id = (id.setWidth 8).toNat ∧ p.buttons = inp.buttons.toNat % 2 ^ 24 ∧
        p.axisX = inp.axisX.toNat ∧ p.axisY = inp.axisY.toNat ∧ p.encoder = inp.encoder.toNat ∧
        p.crcOk = true) ∧
    ∀ frame : Frame, frame offHeader = header →
      (∀ i : Fin 33, 8 ≤ i.val → i.val ≤ 31 → frame i = 0) → Sealed frame →
      ∃! f : FrameFields, f.build = frame := by
  constructor
  · intro inp id
    exact ⟨(frameValidate_isSome _).mpr (frameBuildId_sealed inp id),
      frameBuildId_reserved inp id, parse_build inp id⟩
  · intro frame first reserved sealed
    have rebuilt := build_ofFrame first reserved sealed
    exact ⟨_, rebuilt, fun f built => build_injective (built.trans rebuilt.symm)⟩

/-- The frame of one pressed button comes from one tuple. -/
theorem frame_round_trip_pressed :
    ∃! f : FrameFields, f.build = frameBuildId ⟨0x10, 1, 2, -1, 0⟩ rimIdPorsche918Rsr :=
  frame_round_trip.2 _ rfl (frameBuildId_reserved _ _) (frameBuildId_sealed _ _)

end FanatecWheel.Rimlink
