import FanatecWheel.Rimlink.Frame

/-!
# Switch decoders

`app/src/debounce.h`, `app/src/dpad.c` and `app/src/funky.c`: the 2-sample
debounce, the analog D-pad ladder with its hysteresis, and the funky switch with
its chord fault. Every decoder takes one sample for each tick.
-/

namespace FanatecWheel.App

open Rimlink

/-! ### Buttons -/

structure Debounce where
  state : Bool
  prev : Bool
deriving DecidableEq

/-- `debounce_feed`, with the debounced state it returns. -/
def debounceFeed (d : Debounce) (raw : Bool) : Debounce × Bool :=
  let state := if raw = d.prev ∧ raw ≠ d.state then raw else d.state
  (⟨state, raw⟩, state)

/-! ### Analog D-pad -/

/-- The eight positions of the ladder: idle, right, left, left and right, down,
up, up and down, button. -/
abbrev DpadPos := Fin 8

structure DpadDecoder where
  thr : Fin 7 → U16
  hyst : U16
  cur : DpadPos

/-- `default_thr`. -/
def dpadDefaultThr : Fin 7 → U16 := ![3732, 3052, 2556, 2020, 1196, 656, 288]

/-- `DPAD_DEFAULT_HYST`. -/
def dpadDefaultHyst : U16 := 40

/-- `dpad_init`; no table stands for the null pointer. -/
def dpadInit (thr : Option (Fin 7 → U16)) (hyst : U16) : DpadDecoder where
  thr := thr.getD dpadDefaultThr
  hyst := if hyst ≠ 0 then hyst else dpadDefaultHyst
  cur := 0

/-- `window_of`: the first threshold below the sample. -/
def windowOf (d : DpadDecoder) (raw : U16) : DpadPos :=
  match (List.finRange 7).find? fun i => d.thr i < raw with
  | some i => i.castSucc
  | none => 7

theorem boundary_lt {cur next : DpadPos} (other : next ≠ cur) :
    (if cur < next then cur else next).val < 7 := by
  have apart := Fin.val_ne_of_ne other
  split
  next up =>
    have below : cur.val < next.val := up
    omega
  next down =>
    have above : ¬ cur.val < next.val := down
    omega

/-- `dpad_decode`, with the position it returns. The boundary is the threshold
below the upper one of the two windows. -/
def dpadDecode (d : DpadDecoder) (raw : U16) : DpadDecoder × DpadPos :=
  let next := windowOf d raw
  if other : next = d.cur then (d, d.cur)
  else
    let boundary : Fin 7 := (if d.cur < next then d.cur else next).castLT (boundary_lt other)
    let thr := d.thr boundary
    let dist := if thr < raw then raw - thr else thr - raw
    let d := if d.hyst < dist then { d with cur := next } else d
    (d, d.cur)

def dpadApplyBits (buttons : U32) (pos : DpadPos) (on : Bool) : U32 :=
  match pos with
  | 0 => buttons
  | 1 => buttonBitChange buttons RimButtonBit.dpadRight.bit on
  | 2 => buttonBitChange buttons RimButtonBit.dpadLeft.bit on
  | 3 =>
    -- left and right together: calibrate the wheel center
    buttonBitChange (buttonBitChange buttons RimButtonBit.dpadButton.bit on)
      RimButtonBit.joystickButton.bit on
  | 4 => buttonBitChange buttons RimButtonBit.dpadDown.bit on
  | 5 => buttonBitChange buttons RimButtonBit.dpadUp.bit on
  | 6 => buttonBitChange buttons RimButtonBit.menu.bit on
  | 7 => buttonBitChange buttons RimButtonBit.dpadButton.bit on

/-! ### Funky switch -/

inductive FunkyDir
  | idle | up | down | left | right
deriving DecidableEq

def funkyMUp : U8 := 1

def funkyMDown : U8 := 2

def funkyMLeft : U8 := 4

def funkyMRight : U8 := 8

structure Funky where
  dirRawPrev : U8
  dirStable : U8
  pushRawPrev : Bool
  pushStable : Bool
  fault : Bool
  faultCount : U32
deriving DecidableEq

def funkyInit : Funky := ⟨0, 0, false, false, false, 0⟩

/-- Two opposite contacts are closed. -/
def oppositeChord (mask : U8) : Bool :=
  mask &&& (funkyMUp ||| funkyMDown) = funkyMUp ||| funkyMDown ∨
    mask &&& (funkyMLeft ||| funkyMRight) = funkyMLeft ||| funkyMRight

def funkyFeed (f : Funky) (dirMask : U8) (push : Bool) : Funky :=
  let dirMask := dirMask &&& 0x0F
  let dirStable :=
    if dirMask = f.dirRawPrev ∧ dirMask ≠ f.dirStable then dirMask else f.dirStable
  let pushStable := if push = f.pushRawPrev ∧ push ≠ f.pushStable then push else f.pushStable
  let chord := oppositeChord dirStable
  { dirRawPrev := dirMask
    dirStable
    pushRawPrev := push
    pushStable
    fault := chord
    faultCount := if chord && !f.fault then f.faultCount + 1 else f.faultCount }

/-- `funky_dir_get`: idle on a fault and on a diagonal. -/
def funkyDirGet (f : Funky) : FunkyDir :=
  if f.fault then .idle
  else if f.dirStable = funkyMUp then .up
  else if f.dirStable = funkyMDown then .down
  else if f.dirStable = funkyMLeft then .left
  else if f.dirStable = funkyMRight then .right
  else .idle

def funkyPushGet (f : Funky) : Bool := f.pushStable

end FanatecWheel.App
