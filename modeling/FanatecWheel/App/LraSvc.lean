import FanatecWheel.Foundation.Trace
import FanatecWheel.Rimlink.Capture

/-!
# Haptics service

`app/src/lra_svc.c`: the cue gate of a channel, the entry point for cues and the rumble bytes
of the base behind their switch. Uptime is an integer number of milliseconds and is passed to
the calls that read the clock.
-/

namespace FanatecWheel.App

open Foundation Rimlink

/-- `LRA_MAX_DURATION_MS`. -/
def lraMaxDurationMs : U32 := 100

/-- `LRA_COOLDOWN_MS`. -/
def lraCooldownMs : ℤ := 50

structure LraGate where
  busyUntilMs : ℤ
  readyAtMs : ℤ
deriving DecidableEq

/-- `lra_gate_request`, with the duration it grants. -/
def lraGateRequest (g : LraGate) (nowMs : ℤ) (durationMs : U32) : LraGate × U32 :=
  if nowMs < g.readyAtMs then (g, 0)
  else
    let durationMs := if lraMaxDurationMs < durationMs then lraMaxDurationMs else durationMs
    if durationMs = 0 then (g, 0)
    else
      let busyUntilMs := nowMs + durationMs.toNat
      (⟨busyUntilMs, busyUntilMs + lraCooldownMs⟩, durationMs)

structure LraStats where
  requested : U32
  played : U32
  capped : U32
  blocked : U32
  sourceEnabled : Bool
deriving DecidableEq

/-- The static `hsvc`. -/
structure LraSvc where
  gate : Fin 2 → LraGate
  stats : LraStats
  sourceEn : Bool

/-- Zero-initialised statics. -/
def LraSvc.boot : LraSvc where
  gate := fun _ => ⟨0, 0⟩
  stats := ⟨0, 0, 0, 0, false⟩
  sourceEn := false

/-- What the service asks of the driver and of the workqueue. -/
inductive LraCall
  | hwSet (chan : Fin 2) (level : U8)
  /-- `k_work_reschedule` of the channel's stop work. -/
  | reschedule (chan : Fin 2) (delayMs : U32)
deriving DecidableEq

/-- `lra_svc_cue` at uptime `nowMs`, with its result and its calls. -/
def lraSvcCue (s : LraSvc) (nowMs : ℤ) (chan : U32) (level : U8) (durationMs : U32) :
    LraSvc × Except Errno Unit × List LraCall :=
  if valid : chan.toNat < 2 then
    let chan : Fin 2 := ⟨chan.toNat, valid⟩
    let s := { s with
      stats.requested := s.stats.requested + 1
      stats.capped :=
        if lraMaxDurationMs < durationMs then s.stats.capped + 1 else s.stats.capped }
    let (gate, granted) := lraGateRequest (s.gate chan) nowMs durationMs
    let s := { s with gate := Function.update s.gate chan gate }
    if granted = 0 then
      ({ s with stats.blocked := s.stats.blocked + 1 }, .error .ebusy, [])
    else
      ({ s with stats.played := s.stats.played + 1 }, .ok (),
        [.hwSet chan level, .reschedule chan granted])
  else (s, .error .einval, [])

def lraSvcSourceEnable (s : LraSvc) (en : Bool) : LraSvc :=
  { s with sourceEn := en, stats.sourceEnabled := en }

/-- A call of `lra_svc_cue`. -/
structure CueRequest where
  nowMs : ℤ
  chan : U32
  level : U8
  durationMs : U32

/-- What a call of `lra_svc_cue` did. -/
structure CueEvent where
  request : CueRequest
  result : Except Errno Unit
  calls : List LraCall

def cueStep (s : LraSvc) (r : CueRequest) : LraSvc × CueEvent :=
  let (s, result, calls) := lraSvcCue s r.nowMs r.chan r.level r.durationMs
  (s, ⟨r, result, calls⟩)

/-- The cues that `lra_svc_rumble` asks for: full length on each channel with a level. -/
def rumbleRequests (nowMs : Fin 2 → ℤ) (rumble : Bytes 2) : List CueRequest :=
  [(0 : Fin 2), 1].filterMap fun ch =>
    if rumble ch ≠ 0 then
      some ⟨nowMs ch, BitVec.ofNat 32 ch.val, rumble ch, lraMaxDurationMs⟩
    else none

/-- `lra_svc_rumble`: nothing while the source is off. Each cue reads the clock itself. -/
def lraSvcRumble (s : LraSvc) (nowMs : Fin 2 → ℤ) (rumble : Bytes 2) :
    LraSvc × List CueEvent :=
  if s.sourceEn then
    let requests := rumbleRequests nowMs rumble
    (final cueStep s requests, trace cueStep s requests)
  else (s, [])

/-- The entry points of the service. -/
inductive LraAct
  | cue (r : CueRequest)
  | sourceEnable (en : Bool)
  | rumble (nowMs : Fin 2 → ℤ) (rumble : Bytes 2)

/-- One call, with the cues it asked for. -/
def lraStep (s : LraSvc) : LraAct → LraSvc × List CueEvent
  | .cue r =>
    let (s, e) := cueStep s r
    (s, [e])
  | .sourceEnable en => (lraSvcSourceEnable s en, [])
  | .rumble nowMs rumble => lraSvcRumble s nowMs rumble

end FanatecWheel.App
