import FanatecWheel.Foundation.Trace
import FanatecWheel.Rimlink.Link
import FanatecWheel.BaseSim.Main

/-!
# Simulator and rim over an ideal link

The link thread of the rim (`app/src/link_spi.c`) arms the frame it acquired and
waits for the transfer; the simulator clocks it. An ideal link brings the first 33
bytes, or as many as were clocked, to the rim with that count, and the armed
frame to the simulator.
-/

namespace FanatecWheel.BaseSim

open Foundation Rimlink

/-- Both ends. `rxFrame` is the receive buffer of the link thread and `txBuf` the
buffer its transfer was submitted with. -/
structure IdealLink where
  sim : Sim
  rim : Adapter
  rxFrame : Frame
  txBuf : Option (Fin 2)

/-- What a step is seen to do: a transaction with the number of bytes clocked, the
fault injected and the outputs the rim decoded from it. -/
inductive LinkEvent
  | transacted (len : ℕ) (injected : SimFault) (decoded : Option BaseOutputs)
  | entered (cmd : SimCmd)
  | silent

/-- The link thread arms, the simulator runs a transaction, a command is entered, or
the rim calls its adapter. -/
inductive LinkAct
  | arm (now : ℤ) (cycle : U32)
  | transact (fill : Bytes 41) (cycle : U32)
  | command (cmd : SimCmd)
  | rim (c : Call)

namespace IdealLink

variable (s : IdealLink)

/-- The link thread up to `spi_transceive`. -/
def arm (now : ℤ) (cycle : U32) : IdealLink :=
  let acquired := txAcquire s.rim now cycle
  { s with rim := acquired.1, txBuf := some acquired.2 }

/-- The receive buffer after a transfer of `len` bytes. -/
def received (len : ℕ) (sent : Bytes 41) : Frame :=
  fun i => if i.val < len then frameOf sent i else s.rxFrame i

/-- What the simulator clocks in: the armed frame, then bytes nobody reads. -/
def clockedIn (index : Fin 2) (fill : Bytes 41) : Bytes 41 :=
  fun i => if inside : i.val < 33 then s.rim.lnk.buf index ⟨i.val, inside⟩ else fill i

/-- The transfer and both its ends: `run_transaction`, and `rimlink_rx_submit` of the
bytes and the count that arrived. -/
def transact (index : Fin 2) (fill : Bytes 41) (cycle : U32) : IdealLink :=
  let count := min s.sim.txnLen 33
  let frame := s.received count s.sim.mosiTxn
  { sim := runTransaction s.sim (some (s.clockedIn index fill))
    rim := rxSubmit s.rim frame count cycle
    rxFrame := frame
    txBuf := none }

/-- What the rim decodes from the transfer. -/
def decoded (cycle : U32) : Option BaseOutputs :=
  let count := min s.sim.txnLen 33
  (rxReceive s.rim (s.received count s.sim.mosiTxn) count cycle).2

def step : LinkAct → Option (IdealLink × LinkEvent)
  | .arm now cycle =>
    match s.txBuf with
    -- one transfer at a time
    | none => some (s.arm now cycle, .silent)
    | some _ => none
  | .transact fill cycle =>
    match s.txBuf with
    | none => none
    | some index =>
      some (s.transact index fill cycle,
        .transacted s.sim.txnLen s.sim.injected (s.decoded cycle))
  | .command cmd => some ({ s with sim := s.sim.command cmd }, .entered cmd)
  | .rim c =>
    match c.op with
    -- the link thread's own calls, and no reset
    | .txAcquire | .rxSubmit _ _ | .statsReset => none
    | _ => some ({ s with rim := (Rimlink.step s.rim c).1 }, .silent)

end IdealLink

/-- Both ends from boot on, the simulator sealed by its `main`. -/
def linkMachine (id : RimId) (now : ℤ) (clockHz cadenceUs jitterUs flushBytes : U32) :
    Machine IdealLink LinkAct LinkEvent where
  start := {
    sim := sealMosi (.boot clockHz cadenceUs jitterUs flushBytes)
    rim := init (.boot id) (some true) now
    rxFrame := fun _ => 0
    txBuf := none }
  step := IdealLink.step

end FanatecWheel.BaseSim
