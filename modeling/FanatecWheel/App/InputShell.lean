import FanatecWheel.App.InputSvc

/-!
# The input service seen from the shell

The setters of `app/src/input_svc.c`: the button map, the calibration of the
ladder and the manual override word. With the clutch mode, whose setter the chord
calls too, they are all that writes the settings while the firmware runs. The
input thread runs cooperatively, so that none of them falls into a tick.
-/

namespace FanatecWheel.App

open Rimlink

/-- `RIMLINK_BUTTON_BITS`. -/
def buttonBits : U8 := 22

/-- `input_svc_map_set`; `none` is `-EINVAL`. -/
def inputSvcMapSet (s : InputSvc) (idx : U32) (bit : U8) : Option InputSvc :=
  if inside : idx.toNat < 6 then
    if bit < 1 ∨ buttonBits < bit then none
    else some { s with
      settings.buttonMap := Function.update s.settings.buttonMap ⟨idx.toNat, inside⟩ bit }
  else none

/-- `input_svc_dpad_cal`; `none` is `-EINVAL`, when some threshold is not below the one
before it. -/
def inputSvcDpadCal (s : InputSvc) (thr : Fin 7 → U16) (hyst : U16) : Option InputSvc :=
  if ∃ i : Fin 6, thr i.castSucc ≤ thr i.succ then none
  else some { s with
    settings.dpadThr := thr
    settings.dpadHyst := hyst
    dpad := dpadInit (some thr) hyst }

/-- `input_svc_manual_bit`: bits outside 1..24 are ignored. -/
def inputSvcManualBit (s : InputSvc) (bit : U8) (on : Bool) : InputSvc :=
  if bit < 1 ∨ 24 < bit then s
  else if on then { s with manualBits := s.manualBits ||| (1#32 <<< (bit - 1).toNat) }
  else { s with manualBits := s.manualBits &&& ~~~(1#32 <<< (bit - 1).toNat) }

def inputSvcManualToggle (s : InputSvc) (bit : U8) : InputSvc :=
  if bit < 1 ∨ 24 < bit then s
  else { s with manualBits := s.manualBits ^^^ (1#32 <<< (bit - 1).toNat) }

/-- The calls that other threads make. -/
inductive InputCall
  | mapSet (idx : U32) (bit : U8)
  | dpadCal (thr : Fin 7 → U16) (hyst : U16)
  | clutchModeSet (mode bite : U8)
  | manualBit (bit : U8) (on : Bool)
  | manualToggle (bit : U8)

/-- A call; one that is refused leaves the service as it is. -/
def inputCall (s : InputSvc) : InputCall → InputSvc
  | .mapSet idx bit => (inputSvcMapSet s idx bit).getD s
  | .dpadCal thr hyst => (inputSvcDpadCal s thr hyst).getD s
  | .clutchModeSet mode bite => (inputSvcClutchModeSet s mode bite).getD s
  | .manualBit bit on => inputSvcManualBit s bit on
  | .manualToggle bit => inputSvcManualToggle s bit

/-! ### What the setters maintain -/

/-- The settings the input service relies on: the thresholds descend, every button is
mapped to a bit of the frame, and the clutch mode is one of the three. -/
structure RimSettings.Valid (st : RimSettings) : Prop where
  descending : ∀ i j : Fin 7, i < j → st.dpadThr j < st.dpadThr i
  mapped : ∀ i, 1 ≤ st.buttonMap i ∧ st.buttonMap i ≤ buttonBits
  mode : st.clutchMode ≤ clutchModeMapped

theorem RimSettings.default_valid : RimSettings.default.Valid where
  descending := by decide
  mapped := by decide
  mode := by decide

/-- Neighbours in order make a descending table. -/
private theorem descending_of_steps {thr : Fin 7 → U16}
    (steps : ¬ ∃ i : Fin 6, thr i.castSucc ≤ thr i.succ) (i j : Fin 7) (later : i < j) :
    thr j < thr i := by
  have falls : StrictAnti fun k => (thr k).toNat := by
    rw [Fin.strictAnti_iff_succ_lt]
    intro k
    have apart : ¬ thr k.castSucc ≤ thr k.succ := fun close => steps ⟨k, close⟩
    exact BitVec.lt_def.mp (BitVec.not_le.mp apart)
  exact BitVec.lt_def.mpr (falls later)

theorem inputSvcMapSet_valid {s t : InputSvc} (valid : s.settings.Valid) {idx : U32} {bit : U8}
    (set : inputSvcMapSet s idx bit = some t) : t.settings.Valid := by
  unfold inputSvcMapSet at set
  split at set
  next inside =>
    split at set
    · cases set
    next known =>
      cases set
      refine ⟨valid.descending, fun i => ?_, valid.mode⟩
      simp only [Function.update_apply]
      split
      · simp only [not_or, BitVec.not_lt] at known
        exact known
      · exact valid.mapped i
  · cases set

theorem inputSvcDpadCal_valid {s t : InputSvc} (valid : s.settings.Valid) {thr : Fin 7 → U16}
    {hyst : U16} (set : inputSvcDpadCal s thr hyst = some t) : t.settings.Valid := by
  unfold inputSvcDpadCal at set
  split at set
  · cases set
  next steps =>
    cases set
    exact ⟨descending_of_steps steps, valid.mapped, valid.mode⟩

theorem inputSvcClutchModeSet_valid {s t : InputSvc} (valid : s.settings.Valid) {mode bite : U8}
    (set : inputSvcClutchModeSet s mode bite = some t) : t.settings.Valid := by
  unfold inputSvcClutchModeSet at set
  split at set
  · cases set
  next known =>
    cases set
    exact ⟨valid.descending, valid.mapped, BitVec.not_lt.mp known⟩

private theorem valid_getD {s : InputSvc} {result : Option InputSvc} (valid : s.settings.Valid)
    (set : ∀ t, result = some t → t.settings.Valid) : (result.getD s).settings.Valid := by
  cases result with
  | none => exact valid
  | some t => exact set t rfl

theorem inputCall_valid {s : InputSvc} (valid : s.settings.Valid) (c : InputCall) :
    (inputCall s c).settings.Valid := by
  cases c with
  | mapSet idx bit => exact valid_getD valid fun _ => inputSvcMapSet_valid valid
  | dpadCal thr hyst => exact valid_getD valid fun _ => inputSvcDpadCal_valid valid
  | clutchModeSet mode bite => exact valid_getD valid fun _ => inputSvcClutchModeSet_valid valid
  | manualBit bit on =>
    simp only [inputCall, inputSvcManualBit]
    split
    · exact valid
    · split <;> exact valid
  | manualToggle bit =>
    simp only [inputCall, inputSvcManualToggle]
    split <;> exact valid

theorem clutchChordCheck_valid {s : InputSvc} (valid : s.settings.Valid) (buttons : U32) :
    (clutchChordCheck s buttons).settings.Valid := by
  obtain ⟨chord, same | ⟨next, t, set, same⟩⟩ := clutchChordCheck_cases s buttons
  · rw [same]
    exact valid
  · have kept := inputSvcClutchModeSet_valid valid set
    rw [same]
    exact kept

theorem publishStage_settings (s : InputSvc) (snap : RimInputs) :
    (publishStage s snap).1.settings = s.settings := by
  rcases publishStage_cases s snap with ⟨-, same⟩ | ⟨-, -, same⟩ | ⟨-, -, same⟩ <;> rw [same]

theorem inputTick_valid {s : InputSvc} (valid : s.settings.Valid) (x : Samples) :
    (inputTick s x).1.settings.Valid := by
  simp only [inputTick, publishStage_settings, inputCompose]
  refine clutchChordCheck_valid ?_ _
  -- no stage before the chord writes the settings
  simpa only [consumeStage, clutchStage, funkyStage, encoderStage, dpadStage_settings,
    buttonsStage] using valid

end FanatecWheel.App
