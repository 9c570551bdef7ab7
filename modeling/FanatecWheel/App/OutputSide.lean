import FanatecWheel.App.LedSvc
import FanatecWheel.App.LraSvc
import FanatecWheel.App.OutputSvc
import FanatecWheel.App.PowerMgr

/-!
# The output side

The services behind `output_svc_rx` on the one system workqueue: the rail, the strip, and the
haptic driver with its stop works. A valid frame reaches them through the calls of the output
service; their timers run out when they are due.
-/

namespace FanatecWheel.App

open Foundation Rimlink

/-- The real-time register of the haptic driver, which both channels share, and the two stop
works. -/
structure HapticDriver where
  rtp : U8
  queue : Delayable (Fin 2)

def HapticDriver.boot : HapticDriver := ⟨0, .idle 0⟩

/-- `lra_hw_set`, and `k_work_reschedule` of a stop work. -/
def HapticDriver.perform (d : HapticDriver) : LraCall → HapticDriver
  | .hwSet _ level => { d with rtp := level }
  | .reschedule chan delayMs => { d with queue := d.queue.reschedule chan delayMs.toNat }

/-- `stop0` and `stop1`, off the queue. -/
def HapticDriver.stop (d : HapticDriver) (chan : Fin 2) : HapticDriver :=
  ({ d with queue := d.queue.take chan }).perform (.hwSet chan 0)

/-- The calls of some cues, in order. -/
def HapticDriver.play (d : HapticDriver) (cues : List CueEvent) : HapticDriver :=
  (cues.flatMap CueEvent.calls).foldl HapticDriver.perform d

structure OutputSide where
  svc : OutputSvc
  power : PowerMgr
  led : LedSvc
  lra : LraSvc
  driver : HapticDriver

/-- At uptime 0, after the initialisation of the services. -/
def OutputSide.boot (mirror : Bool) : OutputSide where
  svc := (outputSvcInit mirror 0 .boot).1
  power := .boot
  led := .boot
  lra := .boot
  driver := .boot

namespace OutputSide

/-- The uptime. -/
def now (s : OutputSide) : ℤ := s.power.queue.now

/-- A call of the output service, made at once. -/
def perform (s : OutputSide) : OutputCall → OutputSide
  | .noteValidRx => { s with power := powerMgrNoteValidRx s.power }
  | .ledSubmit leds disp => { s with led := ledSvcSubmit s.led leds disp }
  | .lraRumble rumble =>
    let (lra, cues) := lraSvcRumble s.lra (fun _ => s.now) rumble
    { s with lra, driver := s.driver.play cues }
  | .tm1637SetSegments _ => s

/-- `output_svc_rx`. -/
def receive (mirror : Bool) (s : OutputSide) (out : BaseOutputs) : OutputSide :=
  let (svc, calls) := outputSvcRx mirror s.svc s.now out
  calls.foldl perform { s with svc }

/-- `lra_svc_cue`. -/
def cue (s : OutputSide) (chan : U32) (level : U8) (durationMs : U32) : OutputSide :=
  let (lra, event) := cueStep s.lra ⟨s.now, chan, level, durationMs⟩
  { s with lra, driver := s.driver.play [event] }

/-- Time goes on for every queue. -/
structure MayPass (s : OutputSide) (t : ℤ) : Prop where
  power : s.power.queue.MayPass t
  led : s.led.queue.MayPass t
  driver : s.driver.queue.MayPass t

instance (s : OutputSide) (t : ℤ) : Decidable (s.MayPass t) :=
  decidable_of_iff (s.power.queue.MayPass t ∧ s.led.queue.MayPass t ∧ s.driver.queue.MayPass t)
    ⟨fun ⟨power, led, driver⟩ => ⟨power, led, driver⟩, fun may => ⟨may.power, may.led, may.driver⟩⟩

def pass (s : OutputSide) (t : ℤ) (may : s.MayPass t) : OutputSide :=
  { s with
    power.queue := s.power.queue.pass t may.power
    led.queue := s.led.queue.pass t may.led
    driver.queue := s.driver.queue.pass t may.driver }

/-- No timer is due that has not run. -/
structure Settled (s : OutputSide) : Prop where
  power : s.power.queue.Settled
  led : s.led.queue.Settled
  driver : s.driver.queue.Settled

end OutputSide

end FanatecWheel.App
