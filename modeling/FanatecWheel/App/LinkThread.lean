import FanatecWheel.App.LinkSpi
import FanatecWheel.Foundation.Trace

/-!
# The link thread, statement by statement

`app/src/link_spi.c`: the loop of `link_thread`, with the interrupt of CS, the SPI driver and the
other users of the adapter between any two of its statements. The driver is not part of the
repository: a transfer it holds ends at any time, with any bytes and any result. An edge of CS
runs the interrupt and nothing else.
-/

namespace FanatecWheel.App

open Foundation Rimlink

/-- The statement that the thread executes next. -/
inductive LinkPc
  | acquire | setArmed | setReady | noteBoot | transceive
  /-- In the driver. -/
  | waiting
  | clearArmed | clearReady | submit | sleep
deriving DecidableEq

/-- What a transfer left in `rx_frame`, and the length that `spi_transceive` returned, `none` for
an error. -/
structure Received where
  frame : Frame
  ret : Option ℕ
deriving DecidableEq

/-- The thread with the statics of `link_spi.c`; `txb` is the buffer `txb.buf` points to. -/
structure LinkThread where
  spi : LinkSpi
  pc : LinkPc
  txb : Fin 2
  rx : Received

inductive ThreadAct
  /-- The thread executes its next statement. -/
  | thread (now : ℤ) (cycle : U32)
  /-- CS rises. -/
  | rise (cycle : U32)
  /-- The driver ends the transfer it holds, good or bad. -/
  | complete (rx : Received)
  /-- Another thread uses the adapter. -/
  | other (c : Call)

inductive TransferEvent
  | acquired (frame : Frame)
  /-- A transfer ended, whose transmit buffer held these bytes. -/
  | ended (miso : Frame) (rx : Received)
  | submitted (rx : Received)
  /-- CS rose: the flag, and whether the driver held a transfer. -/
  | rose (armed held : Bool)
  | reset
  | other
deriving DecidableEq

/-- The calls of the other services: acquiring, submitting and the two notes of the interrupt are
the link's own. -/
def fromOthers (c : Call) : Bool :=
  match c.op with
  | .txAcquire | .rxSubmit _ _ | .noteCsGap _ | .noteRearmMiss => false
  | _ => true

namespace LinkThread

variable (s : LinkThread)

def next (pc : LinkPc) : LinkThread := { s with pc := pc }

/-- The next statement; none in the driver. -/
def threadStep (now : ℤ) (cycle : U32) : Option (LinkThread × TransferEvent) :=
  match s.pc with
  | .acquire =>
    let (adapter, index) := txAcquire s.spi.adapter now cycle
    some ({ s with spi.adapter := adapter, txb := index, pc := .setArmed },
      .acquired (adapter.lnk.buf index))
  | .setArmed => some ({ s with spi.armed := true, pc := .setReady }, .other)
  | .setReady => some ({ s with spi.linkReady := true, pc := .noteBoot }, .other)
  | .noteBoot =>
    some ({ s with
      spi.bootReadyCyc := if s.spi.bootReadyCyc = 0 then cycle ||| 1 else s.spi.bootReadyCyc
      pc := .transceive }, .other)
  | .transceive => some (s.next .waiting, .other)
  | .waiting => none
  | .clearArmed => some ({ s with spi.armed := false, pc := .clearReady }, .other)
  | .clearReady => some ({ s with spi.linkReady := false, pc := .submit }, .other)
  | .submit =>
    -- an error is submitted as a frame of length zero
    some ({ s with
      spi.adapter := rxSubmit s.spi.adapter s.rx.frame (s.rx.ret.getD 0) cycle
      pc := if s.rx.ret.isSome then .acquire else .sleep }, .submitted s.rx)
  | .sleep => some (s.next .acquire, .other)

/-- The driver returns to the thread. -/
def ended (rx : Received) : LinkThread × TransferEvent :=
  ({ s with rx := rx, pc := .clearArmed }, .ended (s.spi.adapter.lnk.buf s.txb) rx)

def rise (hz : ℕ) (cycle : U32) : LinkThread × TransferEvent :=
  ({ s with spi := csSenseIsr hz s.spi cycle }, .rose s.spi.armed (s.pc = .waiting))

def step (hz : ℕ) : ThreadAct → Option (LinkThread × TransferEvent)
  | .thread now cycle => s.threadStep now cycle
  | .rise cycle => some (s.rise hz cycle)
  | .complete rx => if s.pc = .waiting then some (s.ended rx) else none
  | .other c =>
    if fromOthers c then
      some ({ s with spi.adapter := (Rimlink.step s.spi.adapter c).1 },
        if c.op = .statsReset then .reset else .other)
    else none

end LinkThread

/-- The thread from its release on, behind `rimlink_init`. -/
def linkThread (hz : ℕ) (id : RimId) (cfg : Option Bool) (t0 : ℤ) :
    Machine LinkThread ThreadAct TransferEvent where
  start := { spi := .boot id cfg t0, pc := .acquire, txb := 0, rx := ⟨fun _ => 0, none⟩ }
  step := fun s act => s.step hz act

/-! ### Whole iterations -/

/-- Execute so many statements. -/
def statements (now : ℤ) (cycle : U32) : ℕ → LinkThread → Option LinkThread
  | 0, s => some s
  | n + 1, s => (s.threadStep now cycle).bind fun (t, _) => statements now cycle n t

/-- With nothing in between, the statements up to the driver are `linkArm`. -/
theorem statements_linkArm {s : LinkThread} (here : s.pc = .acquire) (now : ℤ) (cycle : U32) :
    statements now cycle 5 s = some { s with
      spi := linkArm s.spi now cycle cycle
      txb := (txAcquire s.spi.adapter now cycle).2
      pc := .waiting } := by
  simp only [statements, LinkThread.threadStep, here, Option.bind_some, LinkThread.next, linkArm]

/-- Those behind it are `linkDone`. -/
theorem statements_linkDone {s : LinkThread} (here : s.pc = .clearArmed) (now : ℤ) (cycle : U32) :
    statements now cycle 3 s = some { s with
      spi := linkDone s.spi s.rx.frame s.rx.ret cycle
      pc := if s.rx.ret.isSome then .acquire else .sleep } := by
  simp only [statements, LinkThread.threadStep, here, Option.bind_some, linkDone]

end FanatecWheel.App
