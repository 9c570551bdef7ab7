import FanatecWheel.App.CycleClock
import FanatecWheel.Rimlink.Link

/-!
# SPI link

`app/src/link_spi.c`: the link thread arms a transfer and submits what it received, and an
interrupt at every rising edge of CS takes the time. The build has all of the pins.
-/

namespace FanatecWheel.App

open Foundation Rimlink

/-- The statics of `link_spi.c`, its two output pins, and the adapter it drives. -/
structure LinkSpi where
  adapter : Adapter
  armed : Bool
  lastCsRiseCyc : U32
  bootReadyCyc : U32
  linkReady : Bool
  errLed : Bool

/-- Zero-initialised statics behind `rimlink_init`. -/
def LinkSpi.boot (id : RimId) (cfg : Option Bool) (now : ℤ) : LinkSpi where
  adapter := init (.boot id) cfg now
  armed := false
  lastCsRiseCyc := 0
  bootReadyCyc := 0
  linkReady := false
  errLed := false

/-- `cs_sense_isr` at cycle count `now`. -/
def csSenseIsr (hz : ℕ) (s : LinkSpi) (now : U32) : LinkSpi :=
  let s := if s.lastCsRiseCyc ≠ 0 then
      { s with adapter := noteCsGap s.adapter (cycToUs32 hz (now - s.lastCsRiseCyc)) }
    else s
  let s := { s with lastCsRiseCyc := now }
  if s.armed then s else { s with adapter := noteRearmMiss s.adapter, errLed := true }

/-- The link thread up to `spi_transceive`; it may read the cycle counter twice. -/
def linkArm (s : LinkSpi) (now : ℤ) (cycle readyCyc : U32) : LinkSpi :=
  { s with
    adapter := (txAcquire s.adapter now cycle).1
    armed := true
    linkReady := true
    bootReadyCyc := if s.bootReadyCyc = 0 then readyCyc ||| 1 else s.bootReadyCyc }

/-- The link thread after `spi_transceive`, which returned a length or, as `none`, an error. -/
def linkDone (s : LinkSpi) (rxFrame : Frame) (ret : Option ℕ) (cycle : U32) : LinkSpi :=
  { s with
    adapter := rxSubmit s.adapter rxFrame (ret.getD 0) cycle
    armed := false
    linkReady := false }

def linkSpiBootReadyUs (hz : ℕ) (s : LinkSpi) : U32 :=
  if s.bootReadyCyc = 0 then 0 else cycToUs32 hz s.bootReadyCyc

/-! ### The link as a system -/

/-- A transaction on the bus: CS falls and rises again, in cycles since the clock started. -/
structure Txn where
  fall : ℕ
  rise : ℕ
  ordered : fall ≤ rise

/-- What the 32-bit cycle counter shows. -/
def tick (cycle : ℕ) : U32 := BitVec.ofNat 32 cycle

/-- A call of another service: gaps are noted by the interrupt alone. -/
structure OtherCall where
  call : Call
  noGap : ∀ gapUs, call.op ≠ .noteCsGap gapUs

inductive LinkEvent
  | txn (t : Txn)
  | arm (now : ℤ) (cycle readyCyc : U32)
  | done (rxFrame : Frame) (ret : Option ℕ) (cycle : U32)
  | other (c : OtherCall)

def linkStep (hz : ℕ) (s : LinkSpi) : LinkEvent → LinkSpi
  | .txn t => csSenseIsr hz s (tick t.rise)
  | .arm now cycle readyCyc => linkArm s now cycle readyCyc
  | .done rxFrame ret cycle => linkDone s rxFrame ret cycle
  | .other c => { s with adapter := (Rimlink.step s.adapter c.call).1 }

def linkRun (hz : ℕ) (s : LinkSpi) (events : List LinkEvent) : LinkSpi :=
  events.foldl (linkStep hz) s

/-! ### What the pins and the boot time say -/

theorem csSenseIsr_frame (hz : ℕ) (s : LinkSpi) (now : U32) :
    (csSenseIsr hz s now).armed = s.armed ∧ (csSenseIsr hz s now).linkReady = s.linkReady ∧
      (csSenseIsr hz s now).bootReadyCyc = s.bootReadyCyc := by
  unfold csSenseIsr
  dsimp only
  split <;> split <;> exact ⟨rfl, rfl, rfl⟩

/-- The ready pin is high exactly while a transfer is armed. -/
theorem linkReady_armed (hz : ℕ) {s : LinkSpi} (agree : s.linkReady = s.armed)
    (events : List LinkEvent) :
    (linkRun hz s events).linkReady = (linkRun hz s events).armed := by
  induction events generalizing s with
  | nil => exact agree
  | cons e rest ih =>
    apply ih
    cases e with
    | txn t =>
      obtain ⟨armed, ready, -⟩ := csSenseIsr_frame hz s (tick t.rise)
      rw [linkStep, armed, ready, agree]
    | arm now cycle readyCyc => rfl
    | done rxFrame ret cycle => rfl
    | other c => exact agree

theorem bootReadyCyc_linkArm (s : LinkSpi) (now : ℤ) (cycle readyCyc : U32) :
    (linkArm s now cycle readyCyc).bootReadyCyc ≠ 0 := by
  simp only [linkArm]
  split
  · -- the time is made odd so that it is not taken for no time
    intro zero
    have low := congrArg (fun w : U32 => w.getLsbD 0) zero
    simp at low
  · assumption

/-- The time of the first armed transfer is kept. -/
theorem bootReadyCyc_linkRun (hz : ℕ) {s : LinkSpi} (ready : s.bootReadyCyc ≠ 0)
    (events : List LinkEvent) : (linkRun hz s events).bootReadyCyc = s.bootReadyCyc := by
  induction events generalizing s with
  | nil => rfl
  | cons e rest ih =>
    have kept : (linkStep hz s e).bootReadyCyc = s.bootReadyCyc := by
      cases e with
      | txn t => exact (csSenseIsr_frame hz s (tick t.rise)).2.2
      | arm now cycle readyCyc => exact if_neg ready
      | done rxFrame ret cycle => rfl
      | other c => rfl
    exact (ih (by rwa [kept])).trans kept

/-- **Boot to ready**: what is reported after the first arming is reported ever after. -/
theorem bootReadyUs_latched (hz : ℕ) (s : LinkSpi) (now : ℤ) (cycle readyCyc : U32)
    (events : List LinkEvent) :
    linkSpiBootReadyUs hz (linkRun hz (linkArm s now cycle readyCyc) events) =
      linkSpiBootReadyUs hz (linkArm s now cycle readyCyc) := by
  have kept := bootReadyCyc_linkRun hz (bootReadyCyc_linkArm s now cycle readyCyc) events
  rw [linkSpiBootReadyUs, kept, linkSpiBootReadyUs]

end FanatecWheel.App
