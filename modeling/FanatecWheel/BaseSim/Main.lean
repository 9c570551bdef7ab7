import FanatecWheel.App.Seg7
import FanatecWheel.Rimlink.Capture

/-!
# Base-side simulator

`app/sim/src/main.c`: sealing the frame sent to the rim, one transaction with its
fault injection, flush bytes and verdict, and the shell commands that change what
is sent. The text arguments of a command come parsed, as `strtoul` and `atoi`
return them.
-/

namespace FanatecWheel.BaseSim

open Rimlink App

inductive SimFault
  | none | crc | trunc | extra | jitter
deriving DecidableEq

/-- The static `sim`, less `running`, the cadence loop's own switch. -/
structure Sim where
  cadenceUs : U32
  jitterUs : U32
  clockHz : U32
  flushBytes : U32
  fault : SimFault
  faultN : U32
  txn : U32
  misoCrcErr : U32
  firstByteErr : U32
  faultsInjected : U32
  mosi : Bytes 41
  miso : Bytes 41

/-- The initialiser of `sim`, with the values of the generated profile. -/
def Sim.boot (clockHz cadenceUs jitterUs flushBytes : U32) : Sim where
  cadenceUs := cadenceUs
  jitterUs := jitterUs
  clockHz := clockHz
  flushBytes := flushBytes
  fault := .none
  faultN := 100
  txn := 0
  misoCrcErr := 0
  firstByteErr := 0
  faultsInjected := 0
  mosi := fun _ => 0
  miso := fun _ => 0

/-- The first `RIMLINK_FRAME_LEN` bytes of a transfer buffer. -/
def frameOf (b : Bytes 41) : Frame := fun i => b (i.castLE (by decide))

/-- The place of a frame byte in a transfer buffer. -/
def at_ (i : Fin 33) : Fin 41 := i.castLE (by decide)

def sealMosi (s : Sim) : Sim :=
  -- the CRC is taken last, over the header and the identity
  let mosi := Function.update s.mosi (at_ offHeader) header
  let mosi := Function.update mosi (at_ offId) (rimIdPorsche918Rsr.setWidth 8)
  { s with mosi := Function.update mosi (at_ offCrc) (crc8 (crcRegion (frameOf mosi))) }

/-! ### One transaction -/

def Sim.inject (s : Sim) : Bool :=
  s.fault ≠ .none && s.faultN ≠ 0 && (s.txn + 1) % s.faultN = 0

/-- `mosi_txn` as it is clocked out. -/
def Sim.mosiTxn (s : Sim) : Bytes 41 :=
  -- the fault goes into a copy: the sealed frame stays intact
  if s.inject && s.fault = .crc then
    Function.update s.mosi (at_ offCrc) (s.mosi (at_ offCrc) ^^^ 0xFF)
  else s.mosi

/-- `len` after the fault injection. -/
def Sim.faultLen (s : Sim) : ℕ :=
  if s.inject then
    match s.fault with
    | .trunc => min (max 1 (min (s.faultN % 33).toNat 32)) 32
    | .extra => 34
    | _ => 33
  else 33

/-- `len` after the flush emulation. -/
def Sim.txnLen (s : Sim) : ℕ :=
  if s.faultLen = 33 ∧ 0 < s.flushBytes then s.faultLen + min s.flushBytes.toNat 8 else s.faultLen

/-- The fault injected into the next transaction. -/
def Sim.injected (s : Sim) : SimFault := if s.inject then s.fault else .none

/-- `run_transaction`: `miso` is what the transfer brought in, or `none` when
`spi_transceive` failed. -/
def runTransaction (s : Sim) (miso : Option (Bytes 41)) : Sim :=
  let len := s.txnLen
  let s := if s.inject then { s with faultsInjected := s.faultsInjected + 1 } else s
  match miso with
  | none => s
  | some miso =>
    let s := { s with miso := miso, txn := s.txn + 1 }
    -- truncated on purpose: no verdict on what came in
    if len < 33 then s
    else
      let s := if miso (at_ offHeader) ≠ header then { s with firstByteErr := s.firstByteErr + 1 }
        else s
      if crc8 (crcRegion (frameOf miso)) ≠ miso (at_ offCrc) then
        { s with misoCrcErr := s.misoCrcErr + 1 }
      else s

/-! ### Shell commands -/

/-- `cmd_sim_disp`: up to three characters, blank beyond the text. -/
def cmdSimDisp (s : Sim) (txt : Option (List Char)) : Sim :=
  let txt := txt.getD []
  let glyph (i : ℕ) : U8 := (txt[i]?.map seg7FromAscii).getD 0
  let mosi := Function.update s.mosi (at_ (offDisp + 0)) (glyph 0)
  let mosi := Function.update mosi (at_ (offDisp + 1)) (glyph 1)
  let mosi := Function.update mosi (at_ (offDisp + 2)) (glyph 2)
  sealMosi { s with mosi := mosi }

def cmdSimLeds (s : Sim) (v : U32) : Sim :=
  let v : U16 := v.setWidth 16
  let mosi := Function.update s.mosi (at_ offLeds) (v.setWidth 8)
  let mosi := Function.update mosi (at_ (offLeds + 1)) ((v >>> 8).setWidth 8)
  sealMosi { s with mosi := mosi }

def cmdSimRumble (s : Sim) (b0 b1 : U32) : Sim :=
  let mosi := Function.update s.mosi (at_ offRumble) (b0.setWidth 8)
  let mosi := Function.update mosi (at_ (offRumble + 1)) (b1.setWidth 8)
  sealMosi { s with mosi := mosi }

/-- `cmd_sim_fault`: an unknown mode is refused before the parameter is read. -/
def cmdSimFault (s : Sim) (mode : String) (n : Option U32) : Except Errno Sim :=
  let set (fault : SimFault) : Except Errno Sim :=
    .ok { s with fault := fault, faultN := n.getD s.faultN }
  if mode = "none" then set .none
  else if mode = "crc" then set .crc
  else if mode = "trunc" then set .trunc
  else if mode = "extra" then set .extra
  else if mode = "jitter" then set .jitter
  else .error .einval

/-- `cmd_sim_profile`, with its four arguments or as a query. -/
def cmdSimProfile (s : Sim) (args : Option (U32 × U32 × U32 × U32)) : Except Errno Sim :=
  match args with
  | none => .ok s
  | some (hz, cadenceUs, jitterUs, flushBytes) =>
    if hz.toNat < 100000 ∨ 12000000 < hz.toNat then .error .einval
    else .ok { s with
      clockHz := hz
      cadenceUs := cadenceUs
      jitterUs := jitterUs
      flushBytes := flushBytes }

/-- The commands that change what is sent. -/
inductive SimCmd
  | disp (txt : Option (List Char))
  | leds (v : U32)
  | rumble (b0 b1 : U32)
  | fault (mode : String) (n : Option U32)
  | profile (args : Option (U32 × U32 × U32 × U32))
deriving DecidableEq

/-- A command; one that fails leaves the simulator as it is. -/
def Sim.command (s : Sim) : SimCmd → Sim
  | .disp txt => cmdSimDisp s txt
  | .leds v => cmdSimLeds s v
  | .rumble b0 b1 => cmdSimRumble s b0 b1
  | .fault mode n => (cmdSimFault s mode n).toOption.getD s
  | .profile args => (cmdSimProfile s args).toOption.getD s

end FanatecWheel.BaseSim
