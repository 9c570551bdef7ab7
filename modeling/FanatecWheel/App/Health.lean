import FanatecWheel.Rimlink.Counters

/-!
# Lifetime health counters

`app/src/health.c`: each fold adds the change of the link statistics since the
previous fold to 64-bit totals. The machine runs the folds among the receive
path, the resets of the statistics and everything else the link does.
-/

namespace FanatecWheel.App

open Foundation Rimlink

structure HealthCounters where
  powerCycles : U32
  mateEvents : U32
  txnTotal : U64
  errTotal : U64
  wdtResets : U32
  thermalEvents : U32
deriving DecidableEq

def HealthCounters.zero : HealthCounters := ⟨0, 0, 0, 0, 0, 0⟩

/-- The statics of `health.c`: the totals and the statistics at the last fold. -/
structure Health where
  hc : HealthCounters
  last : Stats

variable (h : Health)

/-- `fold_stats` on the statistics `now`: the differences are taken in 32 bits. -/
def foldStats (now : Stats) : Health where
  hc := { h.hc with
    txnTotal := h.hc.txnTotal + (now.txnCount - h.last.txnCount).setWidth 64
    errTotal := h.hc.errTotal + ((now.crcErrRx - h.last.crcErrRx) +
      (now.shortFrame - h.last.shortFrame) + (now.overrun - h.last.overrun)).setWidth 64 }
  last := now

/-- `health_commit`, with the record it hands to the settings. -/
def healthCommit (now : Stats) : Health × HealthCounters :=
  let h := foldStats h now
  (h, h.hc)

def healthGet (now : Stats) : Health × HealthCounters :=
  let h := foldStats h now
  (h, h.hc)

def healthNoteMate : Health := { h with hc.mateEvents := h.hc.mateEvents + 1 }

/-- `health_init`: `loaded` is the record found in the settings, `wdtCause` whether
the watchdog caused the reset. -/
def healthInit (loaded : Option HealthCounters) (wdtCause : Bool) : Health :=
  let hc := loaded.getD h.hc
  let hc := { hc with powerCycles := hc.powerCycles + 1 }
  { h with hc := if wdtCause then { hc with wdtResets := hc.wdtResets + 1 } else hc }

/-- The link and the health counters. `since` is a history variable: what the
link did since the last fold. -/
structure HealthSys where
  rx : RxSys
  health : Health
  since : List RxEvent

inductive HealthAct
  | link (act : RxAct)
  | healthGet
  | healthCommit
  | noteMate

inductive HealthEvent
  | link (e : RxEvent)
  | folded (hc : HealthCounters)
  | mate
deriving DecidableEq

namespace HealthSys

def now (s : HealthSys) : Stats := statsGet s.rx.adapter

/-- A fold ran and left the record. -/
def folded (s : HealthSys) (result : Health × HealthCounters) : HealthSys × HealthEvent :=
  ({ s with health := result.1, since := [] }, .folded result.2)

def step (s : HealthSys) : HealthAct → Option (HealthSys × HealthEvent)
  | .link act =>
    (s.rx.step act).map fun (rx, e) => ({ s with rx := rx, since := s.since ++ [e] }, .link e)
  | .healthGet => some (s.folded (App.healthGet s.health s.now))
  | .healthCommit => some (s.folded (App.healthCommit s.health s.now))
  | .noteMate => some ({ s with health := healthNoteMate s.health }, .mate)

end HealthSys

/-- From `health_init` on, after the link was initialised. -/
def healthMachine (id : RimId) (boot : ℤ) (loaded : Option HealthCounters) (wdtCause : Bool) :
    Machine HealthSys HealthAct HealthEvent where
  start := {
    rx := .boot id boot
    health := healthInit ⟨.zero, .zero⟩ loaded wdtCause
    since := [] }
  step := HealthSys.step

end FanatecWheel.App
