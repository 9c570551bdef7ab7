import FanatecWheel.App.Encoder
import FanatecWheel.App.RimSettings
import FanatecWheel.App.Switches

/-!
# Input service

`app/src/input_svc.c`: one tick of `input_thread` samples the whole fabric,
composes a snapshot and decides whether to publish it. The build has all of the
fabric: six buttons, the ladder, four encoders, the funky switch and two clutches.
-/

namespace FanatecWheel.App

open Rimlink

structure InputV2State where
  encDelta : Fin 4 → I8
  encIllegal : Fin 4 → U32
  funkyDir : FunkyDir
  funkyPush : Bool
  funkyFaults : U32
  clutch : Fin 2 → U8
  clutchCombined : U8
  clutchDiag : Fin 2 → U8

/-- The latency ring. -/
structure LatencyRing where
  ring : Fin 128 → U32
  idx : U32
  maxCyc : U32

/-- The statics of `input_svc.c`, the settings it works on, and the locals that
`input_thread` keeps from tick to tick. -/
structure InputSvc where
  settings : RimSettings
  btnDb : Fin 6 → Debounce
  dpad : DpadDecoder
  dpadPrevPos : DpadPos
  manualBits : U32
  enc : Fin 4 → Encoder
  funky : Funky
  clutch : Fin 2 → ClutchChan
  dual : DualClutch
  v2 : InputV2State
  chordPrev : Bool
  lat : LatencyRing
  prevButtons : U32
  prevAxisSig : U8
  hold : U32

/-- The levels of an encoder's two lines. -/
structure AbLevel where
  a : Bool
  b : Bool

/-- What a tick reads from the hardware: the pins, the ADC results (`none` for a
failed conversion), and the cycle counter at both ends. -/
structure Samples where
  buttons : Fin 6 → Bool
  dpadAdc : Option I16
  encAb : Fin 4 → AbLevel
  fk : Fin 5 → Bool
  clutchAdc : Fin 2 → Option I16
  t0 : U32
  t1 : U32

/-- The 2-bit A/B state, A in the low bit. -/
def AbLevel.ab (l : AbLevel) : U8 := (if l.a then 1 else 0) ||| (if l.b then 2 else 0)

/-- `input_svc_init` on zeroed statics. -/
def inputSvcInit (settings : RimSettings) (levels : Fin 4 → AbLevel) : InputSvc where
  settings
  btnDb := fun _ => ⟨false, false⟩
  dpad := dpadInit (some settings.dpadThr) settings.dpadHyst
  dpadPrevPos := 0
  manualBits := 0
  enc := fun i => encoderInit (levels i).ab 4
  funky := funkyInit
  clutch := fun ch => clutchChanInit (settings.clutchCal ch)
  dual := dualClutchInit settings.clutchMode settings.bitePoint
  v2 := {
    encDelta := fun _ => 0
    encIllegal := fun _ => 0
    funkyDir := .idle
    funkyPush := false
    funkyFaults := 0
    clutch := fun _ => 0
    clutchCombined := 0
    clutchDiag := fun _ => 0 }
  chordPrev := false
  lat := ⟨fun _ => 0, 0, 0⟩
  prevButtons := BitVec.allOnes 32
  prevAxisSig := 0
  hold := 0

/-- `input_svc_clutch_mode_set`; `none` is `-EINVAL`. -/
def inputSvcClutchModeSet (s : InputSvc) (mode bite : U8) : Option InputSvc :=
  if clutchModeMapped < mode then none
  else some { s with
    settings.clutchMode := mode
    settings.bitePoint := bite
    dual := dualClutchInit mode bite }

/-- `adc_sample`: a negative conversion reads as zero. -/
def adcSample (buf : I16) : U16 := if buf.slt 0 then 0 else buf

def latencyNote (l : LatencyRing) (cyc : U32) : LatencyRing where
  ring := Function.update l.ring (Fin.ofNat 128 l.idx.toNat) cyc
  idx := l.idx + 1
  maxCyc := if l.maxCyc < cyc then cyc else l.maxCyc

def funkyApply (f : Funky) (buttons : U32) : U32 :=
  let buttons := match funkyDirGet f with
    | .up => buttonBitChange buttons RimButtonBit.dpadUp.bit true
    | .down => buttonBitChange buttons RimButtonBit.dpadDown.bit true
    | .left => buttonBitChange buttons RimButtonBit.dpadLeft.bit true
    | .right => buttonBitChange buttons RimButtonBit.dpadRight.bit true
    | .idle => buttons
  if funkyPushGet f then buttonBitChange buttons RimButtonBit.dpadButton.bit true else buttons

/-- `clutch_chord_check`: the edge of the chord cycles the mode. -/
def clutchChordCheck (s : InputSvc) (buttons : U32) : InputSvc :=
  let chord : Bool := 200 < s.v2.clutch 0 ∧ 200 < s.v2.clutch 1 ∧
    buttons &&& (1#32 <<< (RimButtonBit.menu.bit - 1).toNat) ≠ 0
  let next : U8 := BitVec.ofNat 8 ((s.settings.clutchMode.toNat + 1) % 3)
  let s :=
    if chord && !s.chordPrev then
      (inputSvcClutchModeSet s next s.settings.bitePoint).getD s
    else s
  { s with chordPrev := chord }

/-! ### The stages of a tick -/

/-- The buttons, in the order of the map. -/
def buttonsStage (s : InputSvc) (x : Samples) : InputSvc × U32 :=
  ({ s with btnDb := fun i => (debounceFeed (s.btnDb i) (x.buttons i)).1 },
    (List.finRange 6).foldl (fun buttons i =>
      buttonBitChange buttons (s.settings.buttonMap i)
        (debounceFeed (s.btnDb i) (x.buttons i)).2) 0)

/-- The ladder: a failed conversion leaves the last position in force. -/
def dpadStage (s : InputSvc) (x : Samples) : InputSvc :=
  match x.dpadAdc with
  | some buf =>
    let decoded := dpadDecode s.dpad (adcSample buf)
    { s with dpad := decoded.1, dpadPrevPos := decoded.2 }
  | none => s

def encoderStage (s : InputSvc) (x : Samples) : InputSvc :=
  { s with enc := fun i => encoderFeed (s.enc i) (x.encAb i).ab }

def funkyStage (s : InputSvc) (x : Samples) : InputSvc :=
  let fkMask : U8 := (if x.fk 0 then 1 else 0) ||| (if x.fk 1 then 2 else 0) |||
    (if x.fk 2 then 4 else 0) ||| (if x.fk 3 then 8 else 0)
  { s with funky := funkyFeed s.funky fkMask (x.fk 4) }

/-- One clutch channel with its output and flags; nothing moves when the
conversion failed. -/
def clutchSample (s : InputSvc) (x : Samples) (ch : Fin 2) : ClutchChan × U8 × U8 :=
  match x.clutchAdc ch with
  | some buf =>
    let fed := clutchChanFeed (s.clutch ch) (adcSample buf)
    (fed.1, fed.2, fed.1.diag)
  -- the readings of the last good conversion stay in force
  | none => (s.clutch ch, s.v2.clutch ch, s.v2.clutchDiag ch)

def clutchStage (s : InputSvc) (x : Samples) : InputSvc :=
  let s := { s with
    clutch := fun ch => (clutchSample s x ch).1
    v2.clutch := fun ch => (clutchSample s x ch).2.1
    v2.clutchDiag := fun ch => (clutchSample s x ch).2.2 }
  let combined := dualClutchCombine s.dual (s.v2.clutch 0) (s.v2.clutch 1)
  { s with dual := combined.1, v2.clutchCombined := combined.2 }

/-- All four deltas are consumed, whichever is selected. -/
def consumeStage (s : InputSvc) : InputSvc :=
  { s with
    enc := fun i => (encoderConsume (s.enc i)).1
    v2.encDelta := fun i => (encoderConsume (s.enc i)).2
    v2.encIllegal := fun i => (s.enc i).illegal
    v2.funkyDir := funkyDirGet s.funky
    v2.funkyPush := funkyPushGet s.funky
    v2.funkyFaults := s.funky.faultCount }

/-- The channel that feeds the encoder byte. -/
def selectedEncoder (s : InputSvc) : Fin 4 := Fin.ofNat 4 s.settings.encoderSel.toNat

/-- The axes by `rim/map/axis`, the selected delta and the buttons. -/
def snapStage (s : InputSvc) (frameEnc : I8) (buttons t0 : U32) : RimInputs where
  axisX := if s.settings.axisMap = 1 then s.v2.clutchCombined else s.v2.clutch 0
  axisY := if s.settings.axisMap = 1 then 0 else s.v2.clutch 1
  encoder := frameEnc
  buttons
  timestamp := t0

/-- One tick up to the composed snapshot. -/
def inputCompose (s : InputSvc) (x : Samples) : InputSvc × RimInputs :=
  let (s, buttons) := buttonsStage s x
  let s := dpadStage s x
  let buttons := dpadApplyBits buttons s.dpadPrevPos true
  let s := encoderStage s x
  let s := funkyStage s x
  let buttons := funkyApply s.funky buttons
  let s := clutchStage s x
  let s := consumeStage s
  -- the selection is read after every delta was consumed
  let frameEnc := s.v2.encDelta (selectedEncoder s)
  let buttons := buttons ||| s.manualBits
  -- the mode change of a chord takes effect in the next tick
  let s := clutchChordCheck s buttons
  (s, snapStage s frameEnc buttons x.t0)

def axisSig (snap : RimInputs) : U8 := snap.axisX ^^^ snap.axisY ^^^ snap.encoder

/-- `changed`. -/
def snapChanged (s : InputSvc) (snap : RimInputs) : Bool :=
  snap.buttons ≠ s.prevButtons ∨ axisSig snap ≠ s.prevAxisSig ∨ snap.encoder ≠ 0

/-- The rule for publishing: every change, and each twentieth tick without one. -/
def publishStage (s : InputSvc) (snap : RimInputs) : InputSvc × Option RimInputs :=
  if snapChanged s snap then
    ({ s with prevButtons := snap.buttons, prevAxisSig := axisSig snap }, some snap)
  else
    -- no change: the snapshot is repeated every twentieth tick
    let hold := s.hold + 1
    if 20 ≤ hold then ({ s with hold := 0 }, some snap) else ({ s with hold }, none)

/-- One tick of `input_thread`, with the snapshot it publishes. -/
def inputTick (s : InputSvc) (x : Samples) : InputSvc × Option RimInputs :=
  let (s, snap) := inputCompose s x
  let (s, published) := publishStage s snap
  ({ s with lat := latencyNote s.lat (x.t1 - x.t0) }, published)

/-! ### What the last two stages do -/

/-- The publish stage: a change is published and recorded, the twentieth tick
without one publishes too, and every other tick counts. -/
theorem publishStage_cases (s : InputSvc) (snap : RimInputs) :
    (snapChanged s snap = true ∧ publishStage s snap =
      ({ s with prevButtons := snap.buttons, prevAxisSig := axisSig snap }, some snap)) ∨
    (snapChanged s snap = false ∧ 20 ≤ s.hold + 1 ∧
      publishStage s snap = ({ s with hold := 0 }, some snap)) ∨
    (snapChanged s snap = false ∧ s.hold + 1 < 20 ∧
      publishStage s snap = ({ s with hold := s.hold + 1 }, none)) := by
  simp only [publishStage]
  cases changed : snapChanged s snap with
  | true => exact .inl ⟨rfl, rfl⟩
  | false =>
    by_cases full : 20 ≤ s.hold + 1
    · exact .inr (.inl ⟨rfl, full, by rw [if_neg Bool.false_ne_true, if_pos full]⟩)
    · exact .inr (.inr ⟨rfl, BitVec.not_le.mp full, by rw [if_neg Bool.false_ne_true, if_neg full]⟩)

/-- The chord sets the clutch mode or nothing. -/
theorem clutchChordCheck_cases (s : InputSvc) (buttons : U32) :
    ∃ chord, clutchChordCheck s buttons = { s with chordPrev := chord } ∨
      ∃ next t, inputSvcClutchModeSet s next s.settings.bitePoint = some t ∧
        clutchChordCheck s buttons = { t with chordPrev := chord } := by
  unfold clutchChordCheck
  extract_lets chord next after
  refine ⟨chord, ?_⟩
  by_cases edge : (chord && !s.chordPrev) = true
  · cases set : inputSvcClutchModeSet s next s.settings.bitePoint with
    | none =>
      left
      simp only [after, if_pos edge, set, Option.getD_none]
    | some t =>
      right
      exact ⟨next, t, set, by simp only [after, if_pos edge, set, Option.getD_some]⟩
  · left
    simp only [after, if_neg edge]

/-! ### The delta of a tick -/

/-- The delta that `encoder_consume` returns for the selected channel, whose line
levels are fed first. -/
def consumedDelta (s : InputSvc) (x : Samples) : I8 :=
  (encoderConsume (encoderFeed (s.enc (selectedEncoder s)) (x.encAb (selectedEncoder s)).ab)).2

@[simp] theorem dpadStage_settings (s : InputSvc) (x : Samples) :
    (dpadStage s x).settings = s.settings := by
  unfold dpadStage
  split <;> rfl

@[simp] theorem dpadStage_enc (s : InputSvc) (x : Samples) : (dpadStage s x).enc = s.enc := by
  unfold dpadStage
  split <;> rfl

/-- The composed snapshot carries the consumed delta of the selected channel. -/
theorem inputCompose_encoder (s : InputSvc) (x : Samples) :
    (inputCompose s x).2.encoder = consumedDelta s x := by
  simp only [inputCompose, snapStage, consumedDelta, selectedEncoder, consumeStage, clutchStage,
    funkyStage, encoderStage, dpadStage_settings, dpadStage_enc, buttonsStage]

/-- A published snapshot is the composed one. -/
theorem inputTick_published {s : InputSvc} {x : Samples} {snap : RimInputs}
    (published : (inputTick s x).2 = some snap) : snap = (inputCompose s x).2 := by
  simp only [inputTick, publishStage] at published
  split at published
  · exact (Option.some.inj published).symm
  · split at published
    · exact (Option.some.inj published).symm
    · cases published

/-- A tick that publishes nothing composed no change, so no encoder step. -/
theorem inputTick_silent {s : InputSvc} {x : Samples} (silent : (inputTick s x).2 = none) :
    consumedDelta s x = 0 := by
  simp only [inputTick, publishStage] at silent
  split at silent
  · cases silent
  next same =>
    rw [← inputCompose_encoder]
    by_contra moved
    exact same (by simp only [snapChanged, ne_eq, moved, not_false_eq_true, or_true, decide_true])

end FanatecWheel.App
