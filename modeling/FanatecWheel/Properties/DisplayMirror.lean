import FanatecWheel.App.OutputSvc
import FanatecWheel.Foundation.Trace

/-!
# The mirror of the display

A change of the display that comes too soon after the last refresh is dropped by the interval
filter, but the change filter has taken it: when the base repeats it later there is no change
any more, and the mirror is left behind.
-/

namespace FanatecWheel.App

open Foundation Rimlink

/-- The service with the segments that the TM1637 was given last. -/
structure Mirror where
  svc : OutputSvc
  segments : Option (Bytes 4)

/-- The segments after some calls. -/
def lastSegments (before : Option (Bytes 4)) (calls : List OutputCall) : Option (Bytes 4) :=
  calls.foldl
    (fun shown call =>
      match call with
      | .tm1637SetSegments seg => some seg
      | _ => shown) before

/-- After the initialisation, with the result of `tm1637_init`. -/
def mirrorStart (ready : ℤ) : Mirror :=
  let (svc, _, calls) := outputSvcInit true ready .boot
  ⟨svc, lastSegments none calls⟩

/-- One valid frame at its uptime, with the segments after it. -/
def mirrorStep (m : Mirror) (frame : ℤ × BaseOutputs) : Mirror × Option (Bytes 4) :=
  let (svc, calls) := outputSvcRx true m.svc frame.1 frame.2
  let segments := lastSegments m.segments calls
  (⟨svc, segments⟩, segments)

/-- The last refresh is old enough for the next. -/
def RefreshDue (m : Mirror) (now : ℤ) : Prop := outputMinRefreshMs ≤ now - m.svc.lastRefresh

instance (m : Mirror) (now : ℤ) : Decidable (RefreshDue m now) := inferInstanceAs (Decidable (_ ≤ _))

/-- When a refresh is due the frame is on the display afterwards. -/
def Mirrored (m : Mirror) (frame : ℤ × BaseOutputs) : Prop :=
  RefreshDue m frame.1 → (mirrorStep m frame).2 = some (mirrorSegments frame.2.disp)

instance (m : Mirror) (frame : ℤ × BaseOutputs) : Decidable (Mirrored m frame) :=
  inferInstanceAs (Decidable (_ → _))

/-- A refresh is due and the frame repeats the value of the one before it, whose change did not
reach the display. -/
def RepeatsDropped (m : Mirror) (frame : ℤ × BaseOutputs) : Prop :=
  RefreshDue m frame.1 ∧ frame.2.disp = m.svc.prevDisp ∧
    m.segments ≠ some (mirrorSegments m.svc.prevDisp)

/-! ### One frame -/

/-- Without a change the display is left as it is. -/
theorem mirrorStep_repeat {m : Mirror} {frame : ℤ × BaseOutputs}
    (same : frame.2.disp = m.svc.prevDisp) :
    (mirrorStep m frame).2 = m.segments ∧
      (mirrorStep m frame).1.svc.prevDisp = m.svc.prevDisp := by
  simp [mirrorStep, outputSvcRx, same, lastSegments]

/-- A change that is due is shown. -/
theorem mirrorStep_due {m : Mirror} {frame : ℤ × BaseOutputs}
    (changed : frame.2.disp ≠ m.svc.prevDisp) (due : RefreshDue m frame.1) :
    (mirrorStep m frame).2 = some (mirrorSegments frame.2.disp) ∧
      (mirrorStep m frame).1.svc.prevDisp = frame.2.disp := by
  unfold RefreshDue at due
  simp [mirrorStep, outputSvcRx, changed, due, lastSegments]

theorem mirrored_iff (m : Mirror) (frame : ℤ × BaseOutputs) :
    Mirrored m frame ↔ ¬ RepeatsDropped m frame := by
  unfold Mirrored RepeatsDropped
  by_cases same : frame.2.disp = m.svc.prevDisp
  · -- a repeat leaves the display as it is, so it has to show the value before
    rw [(mirrorStep_repeat same).1, same]
    constructor
    · rintro shown ⟨due, -, other⟩
      exact other (shown due)
    · intro kept due
      by_contra other
      exact kept ⟨due, rfl, other⟩
  · constructor
    · rintro - ⟨-, repeated, -⟩
      exact same repeated
    · intro _ due
      exact (mirrorStep_due same due).1

/-! ### Runs -/

/-- A run shows every frame that is due exactly when it has no due frame that repeats a dropped
change. -/
theorem mirror_latest (ready : ℤ) (frames : List (ℤ × BaseOutputs)) :
    Along mirrorStep Mirrored (mirrorStart ready) frames ↔
      Along mirrorStep (fun m frame => ¬ RepeatsDropped m frame) (mirrorStart ready) frames :=
  along_congr mirrorStep (fun m frame (_ : True) => mirrored_iff m frame) (fun _ _ _ => trivial)
    trivial frames

/-- From a display that is up to date on, a run whose changes all come when a refresh is due
shows every frame. -/
theorem mirror_keeps_pace {m : Mirror} (shown : m.segments = some (mirrorSegments m.svc.prevDisp))
    {frames : List (ℤ × BaseOutputs)}
    (paced : Along mirrorStep
      (fun m frame => frame.2.disp ≠ m.svc.prevDisp → RefreshDue m frame.1) m frames) :
    Along mirrorStep Mirrored m frames := by
  induction frames generalizing m with
  | nil => exact trivial
  | cons frame rest ih =>
    obtain ⟨first, later⟩ := paced
    refine ⟨(mirrored_iff m frame).mpr fun dropped => dropped.2.2 shown, ih ?_ later⟩
    change (mirrorStep m frame).2 = some (mirrorSegments (mirrorStep m frame).1.svc.prevDisp)
    by_cases same : frame.2.disp = m.svc.prevDisp
    · rw [(mirrorStep_repeat same).1, (mirrorStep_repeat same).2, shown]
    · rw [(mirrorStep_due same (first same)).1, (mirrorStep_due same (first same)).2]

/-- A change 5 ms after a refresh is not shown when it is repeated 15 ms later. -/
theorem repeat_not_mirrored :
    let shows (digit : U8) : BaseOutputs := ⟨![digit, 0, 0], 0, ![0, 0]⟩
    let frames := [(1000, shows 0x06), (1005, shows 0x5B), (1020, shows 0x5B)]
    frames.Pairwise (fun f g => f.1 ≤ g.1) ∧
      ¬ Along mirrorStep Mirrored (mirrorStart 0) frames := by
  decide

end FanatecWheel.App
