import FanatecWheel.BaseSim.Console

/-!
# The simulator's thread under its console

`sim_thread` of `app/sim/src/main.c`, from one place where it blocks to the next, between the
stores of the handlers. The driver is not part of the repository: a transfer ends with what it
brought in, or fails.
-/

namespace FanatecWheel.BaseSim

open Foundation App
open Rimlink hiding Reply

/-! ### One turn -/

/-- What is handed to `spi_transceive`, and the fault that is in it. -/
structure SimTxn where
  hz : U32
  len : ℕ
  mosi : Bytes 41
  injected : SimFault

namespace Sim

variable (s : Sim)

/-- `run_transaction` up to `spi_transceive`. -/
def beginTxn : Sim × SimTxn :=
  (if s.inject then { s with faultsInjected := s.faultsInjected + 1 } else s,
    ⟨s.clockHz, s.txnLen, s.mosiTxn, s.injected⟩)

/-- `run_transaction` behind it. -/
def endTxn (len : ℕ) (miso : Option (Bytes 41)) : Sim :=
  match miso with
  | none => s
  | some miso =>
    let s := { s with miso := miso, txn := s.txn + 1 }
    -- truncated on purpose: no verdict on what came in
    if len < 33 then s
    else
      let s := if miso (at_ offHeader) ≠ header then { s with firstByteErr := s.firstByteErr + 1 }
        else s
      if crc8 (crcRegion (frameOf miso)) ≠ miso (at_ offCrc) then
        { s with misoCrcErr := s.misoCrcErr + 1 }
      else s

/-- Nothing in between: the whole of `run_transaction`. -/
theorem runTransaction_split (miso : Option (Bytes 41)) :
    runTransaction s miso = s.beginTxn.1.endTxn s.beginTxn.2.len miso := rfl

/-- The jitter fault is on. -/
def jitters : Bool := s.fault = .jitter && s.faultN ≠ 0

/-- The sleep behind a transaction, with the two random numbers; it counts as a fault. -/
def pause (rand1 rand2 : U32) : Sim × U32 :=
  let sleepUs := s.cadenceUs
  -- the jitter of the profile, then that of the fault
  let sleepUs := if 0 < s.jitterUs then sleepUs + rand1 % s.jitterUs else sleepUs
  let sleepUs := if s.jitters then sleepUs + rand2 % s.faultN * 1000 else sleepUs
  (if s.jitters then { s with faultsInjected := s.faultsInjected + 1 } else s,
    if 100 < sleepUs then sleepUs else 100)

end Sim

/-! ### The thread and the shell -/

/-- The simulator with the length of the transfer that the driver holds, if it holds one, and the
stores that the handler in progress has still to do. -/
structure SimThread where
  sys : SimSys
  transfer : Option ℕ
  todo : List SimStore

inductive SimAct
  /-- The shell calls a handler. -/
  | line (argv : List String)
  /-- The handler does its next store. -/
  | store
  /-- The thread's sleep is over. -/
  | wake
  /-- The transfer is over. -/
  | transferred (miso : Option (Bytes 41)) (rand1 rand2 : U32)

inductive SimEvent
  | called (argv : List String) (ret : I32)
  | stored (w : SimStore)
  | stopped
  | clocked (t : SimTxn)
  | ended (len : ℕ) (miso : Option (Bytes 41)) (sleepUs : U32) (jittered : Bool)

namespace SimThread

variable (s : SimThread)

def wake : SimThread × SimEvent :=
  if s.sys.running then
    let (sim, t) := s.sys.sim.beginTxn
    ({ s with sys.sim := sim, transfer := some t.len }, .clocked t)
  else (s, .stopped)

def transferred (len : ℕ) (miso : Option (Bytes 41)) (rand1 rand2 : U32) : SimThread × SimEvent :=
  let sim := s.sys.sim.endTxn len miso
  let (sim', sleepUs) := sim.pause rand1 rand2
  ({ s with sys.sim := sim', transfer := none }, .ended len miso sleepUs sim.jitters)

def step (p : SimProfile) : SimAct → Option (SimThread × SimEvent)
  | .line argv =>
    match s.todo with
    | [] => (handlerOf argv).map fun line =>
        ({ s with todo := storesOf argv line }, .called argv (handle p s.sys argv line).2.ret)
    -- one handler at a time
    | _ :: _ => none
  | .store =>
    match s.todo with
    | [] => none
    | w :: rest => some ({ s with sys := s.sys.store w, todo := rest }, .stored w)
  | .wake =>
    match s.transfer with
    | none => some s.wake
    | some _ => none
  | .transferred miso rand1 rand2 =>
    match s.transfer with
    | none => none
    | some len => some (s.transferred len miso rand1 rand2)

end SimThread

/-- The simulator behind its `main`, which runs above the thread and the shell. -/
def SimSys.boot (clockHz cadenceUs jitterUs flushBytes : U32) : SimSys where
  sim := sealMosi (.boot clockHz cadenceUs jitterUs flushBytes)
  running := true

def simMachine (p : SimProfile) (clockHz cadenceUs jitterUs flushBytes : U32) :
    Machine SimThread SimAct SimEvent where
  start := ⟨.boot clockHz cadenceUs jitterUs flushBytes, none, []⟩
  step s := s.step p

end FanatecWheel.BaseSim
