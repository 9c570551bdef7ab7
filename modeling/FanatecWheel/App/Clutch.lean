import FanatecWheel.Foundation.Words

/-!
# Hall clutches

`app/src/clutch.c`: the pipeline of one channel (median of three, low pass,
calibration, dead zone, slew limit, with its diagnosis flags) and the
combination of the two paddles.
-/

namespace FanatecWheel.App

def clutchDiagRate : U8 := 1

def clutchDiagOpen : U8 := 2

def clutchDiagShort : U8 := 4

structure ClutchCal where
  min : U16
  max : U16
  guard : U16
  deadzone : U8
deriving DecidableEq

structure ClutchChan where
  cal : ClutchCal
  med : Fin 3 → U16
  medI : Fin 3
  iir : U16
  iirShift : U8
  out : U8
  outPrev : U8
  rateLimit : U16
  railLo : U16
  railHi : U16
  diag : U8

def clutchChanInit (cal : ClutchCal) : ClutchChan where
  cal
  med := fun _ => 0
  medI := 0
  iir := 0
  iirShift := 2
  out := 0
  outPrev := 0
  rateLimit := 64
  railLo := 64
  railHi := 4030
  diag := 0

/-- `MIN`. -/
def minOf (a b : U16) : U16 := if a < b then a else b

/-- `MAX`. -/
def maxOf (a b : U16) : U16 := if b < a then a else b

/-- `median3`. The sum is cut to 16 bits in the end, so that it may wrap before. -/
def median3 (a b c : U16) : U16 :=
  let lo := minOf a (minOf b c)
  let hi := maxOf a (maxOf b c)
  a + b + c - lo - hi

/-- The rail check at the head of `clutch_chan_feed`. -/
def railDiag (c : ClutchChan) (raw : U16) : U8 :=
  let diag := c.diag &&& ~~~(clutchDiagOpen ||| clutchDiagShort)
  if raw < c.railLo then diag ||| clutchDiagOpen
  else if c.railHi < raw then diag ||| clutchDiagShort
  else diag

/-- The low pass: a signed difference, divided toward zero. -/
def iirNext (c : ClutchChan) (m : U16) : U16 :=
  BitVec.ofInt 16
    (c.iir.toNat + ((m.toNat : ℤ) - c.iir.toNat).tdiv (2 ^ c.iirShift.toNat))

/-- Calibration with guard bands, then the dead zone. The lower edge is a 16-bit
sum and wraps. -/
def clutchScale (cal : ClutchCal) (iir : U16) : U32 :=
  let lo := cal.min + cal.guard
  let hi := if cal.guard < cal.max then cal.max - cal.guard else 0
  let out255 : U32 :=
    if hi ≤ lo then 0
    else if iir ≤ lo then 0
    else if hi ≤ iir then 255
    else (iir - lo).setWidth 32 * 255 / (hi - lo).setWidth 32
  if out255 ≤ cal.deadzone.setWidth 32 then 0 else out255

/-- `clutch_chan_feed`, with the output it returns. -/
def clutchChanFeed (c : ClutchChan) (raw : U16) : ClutchChan × U8 :=
  let diag := railDiag c raw
  let med := Function.update c.med c.medI raw
  let iir := iirNext c (median3 (med 0) (med 1) (med 2))
  let out255 := clutchScale c.cal iir
  let step : ℤ := out255.toInt - c.outPrev.toNat
  let diag := diag &&& ~~~clutchDiagRate
  let fast := (c.rateLimit.toNat : ℤ) < step ∨ step < -(c.rateLimit.toNat : ℤ)
  let diag := if fast then diag ||| clutchDiagRate else diag
  -- a step beyond the limit is flagged and cut to the limit
  let out255 : U32 :=
    if fast then
      if 0 < step then c.outPrev.setWidth 32 + c.rateLimit.setWidth 32
      else c.outPrev.setWidth 32 - c.rateLimit.setWidth 32
    else out255
  let out := out255.setWidth 8
  ({ c with diag, med, medI := c.medI + 1, iir, outPrev := out, out }, out)

/-! ### Dual clutch -/

/-- `enum clutch_mode`, cast from a byte of the settings, which may be any. -/
def clutchModeBite : U8 := 0

def clutchModeAxes : U8 := 1

def clutchModeMapped : U8 := 2

def paddleActiveThr : U8 := 32

/-- `struct dual_clutch`. `master` is a paddle. -/
structure DualClutch where
  mode : U8
  bitePoint : U8
  launch : Bool
  master : Fin 2
deriving DecidableEq

def dualClutchInit (mode bitePoint : U8) : DualClutch where
  mode
  bitePoint
  launch := false
  master := 0

/-- `dual_clutch_combine`, with the value it returns. -/
def dualClutchCombine (d : DualClutch) (c0 c1 : U8) : DualClutch × U8 :=
  if d.mode = clutchModeAxes then (d, c0)
  else if d.mode = clutchModeMapped then (d, 0)
  else
    let p0 : Bool := paddleActiveThr < c0
    let p1 : Bool := paddleActiveThr < c1
    if !p0 && !p1 then ({ d with launch := false }, 0)
    else if p0 != p1 then
      -- the only paddle pulled gives its value and becomes the master
      ({ d with master := if p0 then 0 else 1, launch := false }, if p0 then c0 else c1)
    else
      let masterVal := if d.master = 0 then c0 else c1
      ({ d with launch := true }, if d.bitePoint < masterVal then masterVal else d.bitePoint)

end FanatecWheel.App
