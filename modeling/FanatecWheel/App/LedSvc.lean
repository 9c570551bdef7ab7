import Mathlib.Data.Fintype.Defs
import FanatecWheel.Foundation.Delayable
import FanatecWheel.Foundation.Words

/-!
# LED service

`app/src/led_svc.c` with a strip: the renderer, the two delayable works and the
submit of the receive path. Works and submit run on one queue, one at a time.
-/

namespace FanatecWheel.App

open Foundation

/-- `LED_MIN_PERIOD_MS`. -/
def ledMinPeriodMs : ℤ := 17

/-- `LED_QUIET_MS`. -/
def ledQuietMs : ℕ := 200

/-- `LED_STRIP_LEN` LEDs of three colours. -/
structure LedFrame where
  rgb : Fin 15 → Bytes 3
  flags : U8

/-- `struct led_frame f = {0}`. -/
def LedFrame.dark : LedFrame := ⟨fun _ _ => 0, 0⟩

structure LedStats where
  framesRendered : U32
  framesPushed : U32
  rateLimited : U32
  quietEntries : U32
  quiet : Bool

inductive LedWork
  | render | quiet
deriving DecidableEq

instance ledWorks : Fintype LedWork := ⟨{.render, .quiet}, by rintro (_ | _) <;> decide⟩

/-- The static `lsvc`, and the frame the strip was given last. -/
structure LedSvc where
  leds : U16
  disp : Bytes 3
  dirty : Bool
  lastPushMs : ℤ
  stats : LedStats
  queue : Delayable LedWork
  pushed : LedFrame

/-- Zero-initialised statics at uptime 0, a dark strip. -/
def LedSvc.boot : LedSvc where
  leds := 0
  disp := fun _ => 0
  dirty := false
  lastPushMs := 0
  stats := ⟨0, 0, 0, 0, false⟩
  queue := .idle 0
  pushed := .dark

/-! ### The renderer -/

/-- `MAX` of a colour and a level, in place. -/
def maxAt (rgb : Fin 15 → Bytes 3) (led : ℕ) (colour : Fin 3) (level : ℕ) : Fin 15 → Bytes 3 :=
  fun k c =>
    if k.val = led ∧ c = colour ∧ rgb k c < BitVec.ofNat 8 level then BitVec.ofNat 8 level
    else rgb k c

/-- One logical position: centred on LED `i * 14 / 8`, with the remainder on the next one. -/
def renderPosition (rgb : Fin 15 → Bytes 3) (i : ℕ) : Fin 15 → Bytes 3 :=
  let cX8 := i * 14 * 8 / 8
  let lo := cX8 / 8
  let frac := cX8 % 8
  -- green to red across the bar
  let r := i * 255 / 8
  let g := 255 - r
  let mainLvl := 255 - frac * 255 / 8
  let nextLvl := frac * 255 / 8
  let rgb := maxAt rgb lo 0 (r * mainLvl / 255)
  let rgb := maxAt rgb lo 1 (g * mainLvl / 255)
  if 0 < nextLvl ∧ lo + 1 < 15 then
    let rgb := maxAt rgb (lo + 1) 0 (r * nextLvl / 255)
    maxAt rgb (lo + 1) 1 (g * nextLvl / 255)
  else rgb

/-- `led_render`; the displayed characters do not enter yet. -/
def ledRender (leds : U16) (_disp : Bytes 3) : LedFrame where
  rgb := (List.range 9).foldl
    (fun rgb i => if leds.getLsbD i then renderPosition rgb i else rgb) fun _ _ => 0
  flags := ((leds >>> 9) &&& 0x7F).setWidth 8

/-! ### The works and the submit -/

/-- `frame_push`: the strip is ready and takes the frame. -/
def framePush (s : LedSvc) (f : LedFrame) : LedSvc :=
  { s with pushed := f, stats.framesPushed := s.stats.framesPushed + 1 }

def renderHandler (s : LedSvc) : LedSvc :=
  if !s.dirty then s
  else
    let s := { s with dirty := false }
    let f := ledRender s.leds s.disp
    let s := { s with
      stats.framesRendered := s.stats.framesRendered + 1
      stats.quiet := false }
    let s := framePush s f
    { s with lastPushMs := s.queue.now }

def quietHandler (s : LedSvc) : LedSvc :=
  let s := framePush s .dark
  { s with stats.quietEntries := s.stats.quietEntries + 1, stats.quiet := true }

/-- `led_svc_submit`. A change is rendered as soon as the last frame is old enough. -/
def ledSvcSubmit (s : LedSvc) (leds : U16) (disp : Bytes 3) : LedSvc :=
  let changed : Bool := leds ≠ s.leds ∨ disp ≠ s.disp ∨ s.stats.quiet
  let s := { s with leds, disp, dirty := s.dirty || changed }
  let s := { s with queue := s.queue.reschedule .quiet ledQuietMs }
  if !changed then s
  else
    let since := s.queue.now - s.lastPushMs
    if ledMinPeriodMs ≤ since then
      { s with queue := s.queue.reschedule .render 0 }
    else
      { s with
        stats.rateLimited := s.stats.rateLimited + 1
        queue := s.queue.reschedule .render (ledMinPeriodMs - since).toNat }

/-- The item is taken off the queue and its handler runs. -/
def runLedWork (s : LedSvc) (w : LedWork) : LedSvc :=
  let s := { s with queue := s.queue.take w }
  match w with
  | .render => renderHandler s
  | .quiet => quietHandler s

/-! ### What the calls do -/

/-- A submit that changes nothing only re-arms the quiet timer. -/
theorem ledSvcSubmit_same {s : LedSvc} (quiet : s.stats.quiet = false) :
    ledSvcSubmit s s.leds s.disp =
      { s with queue := s.queue.reschedule .quiet ledQuietMs } := by
  simp only [ledSvcSubmit, quiet, ne_eq, not_true_eq_false, Bool.false_eq_true, or_self,
    decide_false, Bool.or_false, Bool.not_false, if_true]

/-- Any other submit is rendered when 17 ms have passed since the last frame. -/
theorem ledSvcSubmit_changed {s : LedSvc} {leds : U16} {disp : Bytes 3}
    (changed : leds ≠ s.leds ∨ disp ≠ s.disp ∨ s.stats.quiet = true) :
    ∃ limited : U32, ∃ delay : ℕ,
      s.queue.now + delay = max s.queue.now (s.lastPushMs + ledMinPeriodMs) ∧
      ledSvcSubmit s leds disp =
        { s with
          leds
          disp
          dirty := true
          stats.rateLimited := limited
          queue := (s.queue.reschedule .quiet ledQuietMs).reschedule .render delay } := by
  simp only [ledSvcSubmit, changed, decide_true, Bool.or_true, Bool.not_true, Bool.false_eq_true,
    if_false, Delayable.reschedule_now]
  split
  next old =>
    refine ⟨s.stats.rateLimited, 0, ?_, rfl⟩
    rw [max_eq_left (by omega)]
    exact add_zero _
  next fresh =>
    refine ⟨s.stats.rateLimited + 1, (ledMinPeriodMs - (s.queue.now - s.lastPushMs)).toNat, ?_, rfl⟩
    rw [max_eq_right (by omega)]
    omega

/-- The handler that finds a frame to render. -/
theorem renderHandler_dirty {s : LedSvc} (dirty : s.dirty = true) :
    ∃ stats : LedStats, stats.quiet = false ∧ renderHandler s =
      { s with
        dirty := false
        stats
        pushed := ledRender s.leds s.disp
        lastPushMs := s.queue.now } := by
  rw [renderHandler, dirty]
  exact ⟨_, rfl, rfl⟩

end FanatecWheel.App
