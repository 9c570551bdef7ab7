import Mathlib.Logic.Function.Iterate
import FanatecWheel.Rimlink.Crc8

/-!
# The frame model of the capture toolkit

`scripts/capture/frame_model.py`: the host's own CRC table, built bit by bit, and
its decoder of one frame. Python integers are natural numbers, `bytes` is a list
of octets, and an exception is `none`.
-/

namespace FanatecWheel.Host

def frameLen : ℕ := 33

/-- One turn of the inner loop of `_build_table`, reflected polynomial. -/
def tableStep (crc : ℕ) : ℕ := if crc &&& 1 ≠ 0 then (crc >>> 1) ^^^ 0x8C else crc >>> 1

/-- `_CRC_TABLE` after `_build_table`. -/
def crcTable : List ℕ := (List.range 256).map fun i => tableStep^[8] i

/-- `crc8`: a lookup outside the table raises. -/
def crc8 (data : List U8) : Option ℕ :=
  data.foldlM (fun crc b => crcTable[b.toNat ^^^ crc]?) 0xFF

/-- The dictionary `parse_frame` returns. -/
structure ParsedFrame where
  header : ℕ
  id : ℕ
  buttons : ℕ
  disp : List ℕ
  leds : ℕ
  rumble : List ℕ
  axisX : ℕ
  axisY : ℕ
  encoder : ℕ
  crc : ℕ
  crcOk : Bool
deriving DecidableEq

/-- `parse_frame`: the assertion on the length, then the fields of both directions. -/
def parseFrame (frame : List U8) : Option ParsedFrame :=
  if frame.length ≠ frameLen then none
  else do
    let byte (i : ℕ) : Option ℕ := frame[i]?.map BitVec.toNat
    let slice (i j : ℕ) : List ℕ := ((frame.take j).drop i).map BitVec.toNat
    return {
      header := ← byte 0
      id := ← byte 1
      buttons := (← byte 2) ||| (← byte 3) <<< 8 ||| (← byte 4) <<< 16
      disp := slice 2 5
      leds := (← byte 5) ||| (← byte 6) <<< 8
      rumble := slice 7 9
      axisX := ← byte 5
      axisY := ← byte 6
      encoder := ← byte 7
      crc := ← byte 32
      crcOk := (← crc8 (frame.take 32)) = (← byte 32) }

/-! ### The two CRCs are the same function -/

/-- The generated table is the stored one. -/
private theorem crcTable_stored : crcTable = Rimlink.crc8Table.toList.map BitVec.toNat := by
  decide +kernel

theorem crcTable_eq (i : Fin 256) : crcTable[i.val]? = some (Rimlink.crc8Table.get i).toNat := by
  rw [crcTable_stored, List.getElem?_map, Rimlink.crc8Table_entry]
  rfl

theorem crc8_eq (data : List U8) : crc8 data = some (Rimlink.crc8 data).toNat := by
  have loop : ∀ crc : U8, data.foldlM (fun crc b => crcTable[b.toNat ^^^ crc]?) crc.toNat =
      some (data.foldl Rimlink.crc8Step crc).toNat := by
    induction data with
    | nil => intro crc; rfl
    | cons b rest ih =>
      intro crc
      -- the index is below 256, so the lookup never raises
      have entry : crcTable[b.toNat ^^^ crc.toNat]? = some (Rimlink.crc8Step crc b).toNat := by
        rw [← BitVec.toNat_xor]
        exact crcTable_eq (b ^^^ crc).toFin
      rw [List.foldlM_cons, entry, List.foldl_cons]
      exact ih _
  exact loop 0xFF#8

/-- What the decoder returns for a frame of the right length. -/
theorem parseFrame_eq (frame : Bytes 33) : parseFrame (List.ofFn frame) = some {
    header := (frame 0).toNat
    id := (frame 1).toNat
    buttons := (frame 2).toNat ||| (frame 3).toNat <<< 8 ||| (frame 4).toNat <<< 16
    disp := [(frame 2).toNat, (frame 3).toNat, (frame 4).toNat]
    leds := (frame 5).toNat ||| (frame 6).toNat <<< 8
    rumble := [(frame 7).toNat, (frame 8).toNat]
    axisX := (frame 5).toNat
    axisY := (frame 6).toNat
    encoder := (frame 7).toNat
    crc := (frame 32).toNat
    crcOk := Rimlink.crc8 ((List.ofFn frame).take 32) = frame 32 } := by
  have sized : ¬ (List.ofFn frame).length ≠ frameLen := by simp [frameLen]
  rw [parseFrame, if_neg sized]
  simp [crc8_eq, BitVec.toNat_inj]

end FanatecWheel.Host
