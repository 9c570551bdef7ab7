import FanatecWheel.App.Health
import FanatecWheel.App.InputSvc
import FanatecWheel.App.OutputSvc

/-!
# Diagnostic shell

`app/src/diag_svc.c`: what the commands `rim stats`, `rim input`, `rim health` and
`rim cap dump` print, as lists of characters.
-/

namespace FanatecWheel.App

open Rimlink

/-! ### The commands -/

/-- What the getters of the other services return to the shell. -/
structure DeviceCounters where
  link : Stats
  output : OutputStats
  /-- `input_svc_latency_get`. -/
  p99Us : U32
  maxUs : U32
  v2 : InputV2State
  health : Health

/-- `enum funky_dir`. -/
def FunkyDir.code (dir : FunkyDir) : ℕ := dir.ctorIdx

def cmdRimStats (d : DeviceCounters) : Text :=
  let s := d.link
  let o := d.output
  let gap := if s.csGapMinUs = BitVec.allOnes 32 then 0 else s.csGapMinUs
  shellPrint ["txn:          ".toList, fmtU s.txnCount.toNat] ++
  shellPrint ["crc_err_rx:   ".toList, fmtU s.crcErrRx.toNat] ++
  shellPrint ["short_frame:  ".toList, fmtU s.shortFrame.toNat] ++
  shellPrint ["rearm_miss:   ".toList, fmtU s.rearmMiss.toNat] ++
  shellPrint ["overrun:      ".toList, fmtU s.overrun.toNat] ++
  shellPrint ["stale_clear:  ".toList, fmtU s.staleClear.toNat] ++
  shellPrint ["cs_gap us:    min ".toList, fmtU gap.toNat, " max ".toList,
    fmtU s.csGapMaxUs.toNat] ++
  shellPrint ["snap lat us:  p99 ".toList, fmtU d.p99Us.toNat, " max ".toList,
    fmtU d.maxUs.toNat] ++
  shellPrint ["leds_last:    0x".toList, fmtHexUpper16 o.ledsLast, " (".toList,
    fmtU o.ledsChanges.toNat, " changes)".toList] ++
  shellPrint ["rumble_last:  ".toList, fmtHexUpper (o.rumbleLast 0), " ".toList,
    fmtHexUpper (o.rumbleLast 1), " (".toList, fmtU o.rumbleChanges.toNat, " changes)".toList] ++
  shellPrint ["disp_changes: ".toList, fmtU o.dispChanges.toNat]

def cmdRimInput (d : DeviceCounters) : Text :=
  let v2 := d.v2
  shellPrint ["enc: ".toList, fmtD (v2.encDelta 0).toInt, " ".toList, fmtD (v2.encDelta 1).toInt,
    " ".toList, fmtD (v2.encDelta 2).toInt, " ".toList, fmtD (v2.encDelta 3).toInt,
    " (illegal ".toList, fmtU (v2.encIllegal 0).toNat, " ".toList,
    fmtU (v2.encIllegal 1).toNat, " ".toList, fmtU (v2.encIllegal 2).toNat, " ".toList,
    fmtU (v2.encIllegal 3).toNat, ")".toList] ++
  shellPrint ["funky: dir=".toList, fmtU v2.funkyDir.code, " push=".toList,
    fmtD (if v2.funkyPush then 1 else 0), " faults=".toList, fmtU v2.funkyFaults.toNat] ++
  shellPrint ["clutch: ".toList, fmtU (v2.clutch 0).toNat, " ".toList, fmtU (v2.clutch 1).toNat,
    " combined=".toList, fmtU v2.clutchCombined.toNat, " diag=[".toList,
    fmtHex (v2.clutchDiag 0), " ".toList, fmtHex (v2.clutchDiag 1), "]".toList]

/-- The getter folds the link statistics in first. -/
def cmdRimHealth (d : DeviceCounters) : Text :=
  let h := (healthGet d.health d.link).2
  shellPrint ["power_cycles=".toList, fmtU h.powerCycles.toNat, " mate=".toList,
    fmtU h.mateEvents.toNat, " txn=".toList, fmtU h.txnTotal.toNat, " err=".toList,
    fmtU h.errTotal.toNat, " wdt_resets=".toList, fmtU h.wdtResets.toNat, " thermal=".toList,
    fmtU h.thermalEvents.toNat]

/-! ### The capture dump -/

/-- The line of `rim cap dump` for one entry of the capture ring. -/
def capLine (i : U32) (e : CapEntry) : Text :=
  shellFprintf ["CAP,".toList, fmtU i.toNat, ",".toList, fmtU e.timestamp.toNat, ",".toList,
    if e.dir = .tx then "TX".toList else "RX".toList, ",".toList, fmtU e.crcOk.toNat, ",".toList,
    fmtU e.csGapUs.toNat, ",".toList] ++
  ((List.finRange 33).flatMap fun b => shellFprintf [fmtHexUpper (e.frame b)]) ++
  shellFprintf ["\n".toList]

/-- The loop of `rim cap dump` from entry `i` on, and its last line. -/
def capDumpFrom (c : Capture) (i : U32) : Text :=
  match _ : capRead c i with
  | .ok e => capLine i e ++ capDumpFrom c (i + 1)
  | .error _ => shellPrint ["CAPEND,".toList, fmtU i.toNat]
termination_by c.avail.toNat - i.toNat
decreasing_by
  rename_i found
  obtain ⟨-, inside, next⟩ := capRead_ok c found
  omega

def cmdRimCapDump (c : Capture) : Text := capDumpFrom c 0

end FanatecWheel.App
