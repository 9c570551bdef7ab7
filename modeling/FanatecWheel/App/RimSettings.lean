import FanatecWheel.App.Clutch

/-!
# Settings

`app/src/rim_settings.c`: the calibration, map and mode subtrees that the input
service reads, with their defaults.
-/

namespace FanatecWheel.App

structure RimSettings where
  clutchCal : Fin 2 → ClutchCal
  dpadThr : Fin 7 → U16
  dpadHyst : U16
  buttonMap : Fin 6 → U8
  encoderSel : U8
  axisMap : U8
  clutchMode : U8
  bitePoint : U8

/-- The initialiser of `rs`. -/
def RimSettings.default : RimSettings where
  clutchCal := fun _ => { min := 400, max := 3700, guard := 50, deadzone := 8 }
  dpadThr := ![3732, 3052, 2556, 2020, 1196, 656, 288]
  dpadHyst := 40
  buttonMap := ![8, 5, 13, 11, 9, 12]
  encoderSel := 0
  axisMap := 0
  clutchMode := clutchModeBite
  bitePoint := 128

end FanatecWheel.App
