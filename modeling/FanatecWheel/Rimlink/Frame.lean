import Mathlib.Tactic.FinCases
import FanatecWheel.Rimlink.Crc8

/-!
# Frame layout of the rim link

`lib/rimlink/rimlink_frame.c`: building and sealing the 33-byte rim-to-base
frame, validating and decoding the base-to-rim frame, and the logical button
bits. Offsets are those of `rimlink.h`, and names drop the prefix `rimlink_`.
-/

namespace FanatecWheel.Rimlink

/-- `RIMLINK_FRAME_LEN` bytes. -/
abbrev Frame := Bytes 33

def header : U8 := 0xA5

/-- `enum rim_id`. The C type admits values that are no enumerator, so it is a
word here. -/
abbrev RimId := U32

def rimIdPorsche918Rsr : RimId := 0x03

/-! ### Field offsets, rim to base and base to rim -/

def offHeader : Fin 33 := 0

def offId : Fin 33 := 1

def offButtons : Fin 33 := 2

def offAxisX : Fin 33 := 5

def offAxisY : Fin 33 := 6

def offEncoder : Fin 33 := 7

def offCrc : Fin 33 := 32

def offDisp : Fin 33 := 2

def offLeds : Fin 33 := 5

def offRumble : Fin 33 := 7

structure RimInputs where
  buttons : U32
  axisX : U8
  axisY : U8
  encoder : I8
  timestamp : U32
deriving DecidableEq

/-- `struct rim_inputs neutral = {0}`. -/
def RimInputs.neutral : RimInputs := ⟨0, 0, 0, 0, 0⟩

structure BaseOutputs where
  disp : Bytes 3
  leds : U16
  rumble : Bytes 2
deriving DecidableEq

/-- `enum rim_button_bit`, 1-based. -/
inductive RimButtonBit
  | dpadUp | dpadLeft | dpadRight | dpadDown | button11 | button3 | button6 | button4
  | rightPaddle | button2 | button8 | leftPaddle | button1 | button5 | button9 | button10
  | button21Cm | dpadButton | joystickButton | button7 | button27Cm | menu
deriving DecidableEq

def RimButtonBit.bit (b : RimButtonBit) : U8 := BitVec.ofNat 8 (b.ctorIdx + 1)

/-- `rimlink_button_bit_change`: bits outside 1..24 are ignored. -/
def buttonBitChange (buttons : U32) (bit : U8) (on : Bool) : U32 :=
  if bit < 1 ∨ 24 < bit then buttons
  else if on then buttons ||| (1#32 <<< (bit - 1).toNat)
  else buttons &&& ~~~(1#32 <<< (bit - 1).toNat)

/-- The bytes the CRC covers: `RIMLINK_OFF_CRC` bytes from the start. -/
def crcRegion (frame : Frame) : List U8 := List.ofFn fun i : Fin 32 => frame i.castSucc

def frameBuildId (inp : RimInputs) (id : RimId) : Frame :=
  let frame : Frame := fun _ => 0
  let frame := Function.update frame offHeader header
  let frame := Function.update frame offId (id.setWidth 8)
  -- buttons: bytes A, B and C, lowest bits first
  let frame := Function.update frame (offButtons + 0) ((inp.buttons >>> 0).setWidth 8)
  let frame := Function.update frame (offButtons + 1) ((inp.buttons >>> 8).setWidth 8)
  let frame := Function.update frame (offButtons + 2) ((inp.buttons >>> 16).setWidth 8)
  let frame := Function.update frame offAxisX inp.axisX
  let frame := Function.update frame offAxisY inp.axisY
  let frame := Function.update frame offEncoder inp.encoder
  -- btnHub, btnPS, the reserved bytes and fwvers stay zero
  Function.update frame offCrc (crc8 (crcRegion frame))

/-- `rimlink_frame_validate`: the decoded fields, or `none` on a CRC mismatch. -/
def frameValidate (frame : Frame) : Option BaseOutputs :=
  if crc8 (crcRegion frame) ≠ frame offCrc then none
  else some {
    disp := ![frame (offDisp + 0), frame (offDisp + 1), frame (offDisp + 2)]
    leds := (frame offLeds).setWidth 16 ||| ((frame (offLeds + 1)).setWidth 16 <<< 8)
    rumble := ![frame (offRumble + 0), frame (offRumble + 1)] }

/-! ### The fields of a built frame -/

section Fields

variable (inp : RimInputs) (id : RimId)

theorem frameBuildId_header : frameBuildId inp id offHeader = header := rfl

theorem frameBuildId_buttons (k : Fin 3) :
    frameBuildId inp id (offButtons + k.castLE (by decide)) =
      (inp.buttons >>> (8 * k.val)).setWidth 8 := by
  fin_cases k <;> rfl

theorem frameBuildId_encoder : frameBuildId inp id offEncoder = inp.encoder := rfl

theorem frameBuildId_reserved (i : Fin 33) (above : 8 ≤ i.val) (below : i.val ≤ 31) :
    frameBuildId inp id i = 0 := by
  fin_cases i <;> first | rfl | simp at above below

end Fields

/-- The three button bytes carry the low 24 bits. -/
theorem button_bytes (b c : U32) : b.setWidth 24 = c.setWidth 24 ↔
    ∀ k : Fin 3, (b >>> (8 * k.val)).setWidth 8 = (c >>> (8 * k.val)).setWidth 8 := by
  -- a 24-bit number is its three octets
  have split24 : ∀ n m : ℕ, n % 16777216 = m % 16777216 ↔ n % 256 = m % 256 ∧
      n / 256 % 256 = m / 256 % 256 ∧ n / 65536 % 256 = m / 65536 % 256 := by
    intro n m
    omega
  simp only [Fin.forall_fin_succ, ← BitVec.toNat_inj, BitVec.toNat_setWidth,
    BitVec.toNat_ushiftRight, Nat.shiftRight_eq_div_pow]
  simpa using split24 b.toNat c.toNat

/-! ### Sealing -/

/-- The byte in the CRC position does not feed the CRC. -/
@[simp] theorem crcRegion_update_crc (frame : Frame) (c : U8) :
    crcRegion (Function.update frame offCrc c) = crcRegion frame := by
  unfold crcRegion
  congr 1
  funext i
  have below : i.castSucc ≠ offCrc := by
    intro same
    have value := congrArg Fin.val same
    simp only [Fin.val_castSucc, offCrc] at value
    exact absurd value (Nat.ne_of_lt i.isLt)
  rw [Function.update_of_ne below]

/-- The frame passes the CRC check. -/
def Sealed (frame : Frame) : Prop := crc8 (crcRegion frame) = frame offCrc

instance (frame : Frame) : Decidable (Sealed frame) :=
  inferInstanceAs (Decidable (_ = _))

theorem sealed_update (frame : Frame) :
    Sealed (Function.update frame offCrc (crc8 (crcRegion frame))) := by
  rw [Sealed, crcRegion_update_crc, Function.update_self]

theorem frameBuildId_sealed (inp : RimInputs) (id : RimId) : Sealed (frameBuildId inp id) :=
  sealed_update _

theorem frameValidate_isSome (frame : Frame) : (frameValidate frame).isSome ↔ Sealed frame := by
  unfold frameValidate Sealed
  split
  next mismatch => simp [mismatch]
  next same => simpa using same

theorem frameValidate_none (frame : Frame) : frameValidate frame = none ↔ ¬ Sealed frame := by
  rw [← frameValidate_isSome, Option.not_isSome_iff_eq_none]

end FanatecWheel.Rimlink
