import FanatecWheel.App.LedSvc
import FanatecWheel.Foundation.Trace

/-!
# The strip follows the submits

The change filter compares with the last submit, not with the strip, a change waits
for the frame period, and the quiet timer darkens the strip without touching what was
submitted. Together they lose no update: at rest the strip shows the last submit, and
nothing once that is 200 ms old.
-/

namespace FanatecWheel.App

open Foundation

/-! ### Submits and works in time -/

inductive LedAct
  | submit (leds : U16) (disp : Bytes 3)
  | run (w : LedWork)
  | pass (t : ℤ)

inductive LedEvent
  | submitted (time : ℤ) (leds : U16) (disp : Bytes 3)
  | rendered (time : ℤ)
  | other

/-- A run of the render work that finds nothing to render is not a rendering. -/
def workEvent (s : LedSvc) : LedWork → LedEvent
  | .render => if s.dirty then .rendered s.queue.now else .other
  | .quiet => .other

/-- A work runs when it is due, and time waits for it. -/
def ledMachine : Machine LedSvc LedAct LedEvent where
  start := .boot
  step s
    | .submit leds disp => some (ledSvcSubmit s leds disp, .submitted s.queue.now leds disp)
    | .run w =>
      if s.queue.due w = some s.queue.now then some (runLedWork s w, workEvent s w) else none
    | .pass t =>
      if may : s.queue.MayPass t then some ({ s with queue := s.queue.pass t may }, .other)
      else none

/-- What the receive path submitted, and when. -/
structure Submit where
  time : ℤ
  leds : U16
  disp : Bytes 3

def LedEvent.submit? : LedEvent → Option Submit
  | .submitted time leds disp => some ⟨time, leds, disp⟩
  | _ => none

def lastSubmit (events : List LedEvent) : Option Submit :=
  (events.filterMap LedEvent.submit?).getLast?

theorem lastSubmit_snoc (events : List LedEvent) (e : LedEvent) :
    lastSubmit (events ++ [e]) = e.submit?.or (lastSubmit events) := by
  rw [lastSubmit, List.filterMap_append]
  cases submitted : e.submit? with
  | none => simp [lastSubmit, submitted]
  | some x => simp [submitted]

/-! ### Where the service stands -/

/-- The service waits for its first submit, or it shows or is about to show the last one, or
it went dark. -/
inductive LedPhase (s : LedSvc) : Option Submit → Prop
  | unused (leds : s.leds = 0) (clean : s.dirty = false) (lit : s.stats.quiet = false)
      (idle : ∀ w, s.queue.due w = none) (pushed : s.pushed = .dark) (disp : s.disp = fun _ => 0) :
      LedPhase s none
  | waiting (time deadline : ℤ) (past : time ≤ s.queue.now) (dirty : s.dirty = true)
      (quiet : s.queue.due .quiet = some (time + ledQuietMs))
      (render : s.queue.due .render = some deadline)
      (spaced : s.lastPushMs + ledMinPeriodMs ≤ deadline)
      (soon : deadline ≤ time + ledMinPeriodMs) :
      LedPhase s (some ⟨time, s.leds, s.disp⟩)
  | shown (time : ℤ) (past : time ≤ s.queue.now) (clean : s.dirty = false)
      (lit : s.stats.quiet = false) (quiet : s.queue.due .quiet = some (time + ledQuietMs))
      (render : s.queue.due .render = none) (pushed : s.pushed = ledRender s.leds s.disp) :
      LedPhase s (some ⟨time, s.leds, s.disp⟩)
  | dark (time : ℤ) (past : time + ledQuietMs ≤ s.queue.now) (clean : s.dirty = false)
      (quiet : s.stats.quiet = true) (idle : ∀ w, s.queue.due w = none)
      (pushed : s.pushed = .dark) :
      LedPhase s (some ⟨time, s.leds, s.disp⟩)

private theorem quiet_ne_render : LedWork.quiet ≠ LedWork.render := by decide

private theorem render_ne_quiet : LedWork.render ≠ LedWork.quiet := by decide

private theorem phase_submit {s : LedSvc} {last : Option Submit} (phase : LedPhase s last)
    (clock : s.lastPushMs ≤ s.queue.now) (leds : U16) (disp : Bytes 3) :
    LedPhase (ledSvcSubmit s leds disp) (some ⟨s.queue.now, leds, disp⟩) ∧
      (ledSvcSubmit s leds disp).lastPushMs = s.lastPushMs ∧
      (ledSvcSubmit s leds disp).queue.now = s.queue.now := by
  by_cases changed : leds ≠ s.leds ∨ disp ≠ s.disp ∨ s.stats.quiet = true
  · obtain ⟨limited, delay, deadline, same⟩ := ledSvcSubmit_changed changed
    rw [same]
    refine ⟨.waiting s.queue.now (s.queue.now + delay) (le_refl _) rfl ?_ ?_ ?_ ?_, rfl, rfl⟩
    · rw [Delayable.reschedule_other _ quiet_ne_render, Delayable.reschedule_due]
    · exact Delayable.reschedule_due ..
    · rw [deadline]
      exact le_max_right _ _
    · rw [deadline]
      exact max_le (by simp only [ledMinPeriodMs]; omega) (by omega)
  · simp only [not_or, ne_eq, not_not, Bool.not_eq_true] at changed
    obtain ⟨rfl, rfl, lit⟩ := changed
    rw [ledSvcSubmit_same lit]
    refine ⟨?_, rfl, rfl⟩
    have armed : (s.queue.reschedule .quiet ledQuietMs).due .quiet =
        some (s.queue.now + ledQuietMs) := Delayable.reschedule_due ..
    have kept : (s.queue.reschedule .quiet ledQuietMs).due .render = s.queue.due .render :=
      Delayable.reschedule_other _ render_ne_quiet _
    cases phase with
    | unused leds clean _ idle pushed disp =>
      refine .shown s.queue.now (le_refl _) clean lit armed (kept.trans (idle .render)) ?_
      -- the strip is dark, and so is the rendering of no LED
      rw [leds]
      exact pushed
    | waiting time deadline past dirty _ render spaced soon =>
      exact .waiting s.queue.now deadline (le_refl _) dirty armed (kept.trans render) spaced
        (by omega)
    | shown time past clean _ _ render pushed =>
      exact .shown s.queue.now (le_refl _) clean lit armed (kept.trans render) pushed
    | dark time past clean quiet =>
      rw [lit] at quiet
      cases quiet

private theorem phase_pass {s : LedSvc} {last : Option Submit} (phase : LedPhase s last) {t : ℤ}
    (may : s.queue.MayPass t) : LedPhase { s with queue := s.queue.pass t may } last := by
  have later := may.1
  cases phase with
  | unused leds clean lit idle pushed disp => exact .unused leds clean lit idle pushed disp
  | waiting time deadline past dirty quiet render spaced soon =>
    exact .waiting time deadline (past.trans later) dirty quiet render spaced soon
  | shown time past clean lit quiet render pushed =>
    exact .shown time (past.trans later) clean lit quiet render pushed
  | dark time past clean quiet idle pushed =>
    exact .dark time (past.trans later) clean quiet idle pushed

/-- A render work that runs has a frame to render, 17 ms after the last one at least. -/
private theorem phase_render {s : LedSvc} {last : Option Submit} (phase : LedPhase s last)
    (due : s.queue.due .render = some s.queue.now) :
    s.dirty = true ∧ s.lastPushMs + ledMinPeriodMs ≤ s.queue.now ∧
      LedPhase (runLedWork s .render) last ∧
      (runLedWork s .render).lastPushMs = s.queue.now ∧
      (runLedWork s .render).queue.now = s.queue.now := by
  -- only while a submit waits is there a rendering on the queue
  cases phase with
  | unused _ _ _ idle =>
    rw [idle] at due
    cases due
  | waiting time deadline past dirty quiet render spaced =>
    rw [render, Option.some.injEq] at due
    have stripped : ({ s with queue := s.queue.take .render } : LedSvc).dirty = true := dirty
    obtain ⟨stats, lit, same⟩ := renderHandler_dirty stripped
    have ran : runLedWork s .render = renderHandler { s with queue := s.queue.take .render } := rfl
    rw [ran, same]
    refine ⟨dirty, due ▸ spaced, .shown time past rfl lit ?_ ?_ rfl, rfl, rfl⟩
    · exact (Delayable.take_other _ quiet_ne_render).trans quiet
    · exact Delayable.take_due ..
  | shown _ _ _ _ _ render =>
    rw [render] at due
    cases due
  | dark _ _ _ _ idle =>
    rw [idle] at due
    cases due

/-- The quiet work finds nothing left to render. -/
private theorem phase_quiet {s : LedSvc} {last : Option Submit} (phase : LedPhase s last)
    (due : s.queue.due .quiet = some s.queue.now) :
    LedPhase (runLedWork s .quiet) last ∧
      (runLedWork s .quiet).lastPushMs = s.lastPushMs ∧
      (runLedWork s .quiet).queue.now = s.queue.now := by
  refine ⟨?_, rfl, rfl⟩
  cases phase with
  | unused _ _ _ idle =>
    rw [idle] at due
    cases due
  | waiting time deadline past dirty quiet render spaced soon =>
    -- the render deadline lies before the quiet one, and is not passed
    have open_ := s.queue.timely .render deadline render
    rw [quiet, Option.some.injEq] at due
    simp only [ledMinPeriodMs, ledQuietMs] at soon due
    omega
  | shown time past clean lit quiet render pushed =>
    rw [quiet, Option.some.injEq] at due
    refine .dark time (le_of_eq due) clean rfl ?_ rfl
    rintro (_ | _)
    · exact (Delayable.take_other _ render_ne_quiet).trans render
    · exact Delayable.take_due ..
  | dark _ _ _ _ idle =>
    rw [idle] at due
    cases due

/-! ### Whole runs -/

/-- A rendering follows every earlier one by 17 ms at least. -/
def RenderSpaced (before : List LedEvent) (e : LedEvent) : Prop :=
  ∀ t, e = .rendered t → ∀ t', .rendered t' ∈ before → t' + ledMinPeriodMs ≤ t

structure LedInv (events : List LedEvent) (s : LedSvc) : Prop where
  phase : LedPhase s (lastSubmit events)
  clock : s.lastPushMs ≤ s.queue.now
  pushes : ∀ t, .rendered t ∈ events → t ≤ s.lastPushMs
  spaced : Guarded RenderSpaced events

private theorem ledInv_boot : LedInv [] .boot where
  phase := .unused rfl rfl rfl (fun _ => rfl) rfl rfl
  clock := le_refl _
  pushes := fun _ member => nomatch member
  spaced := guarded_nil _

/-- An event that is no rendering leaves the spacing alone. -/
private theorem spaced_other {events : List LedEvent} {s : LedSvc} (inv : LedInv events s)
    (t : LedSvc) (e : LedEvent) (other : ∀ τ, e ≠ .rendered τ)
    (same : t.lastPushMs = s.lastPushMs) :
    (∀ τ, .rendered τ ∈ events ++ [e] → τ ≤ t.lastPushMs) ∧
      Guarded RenderSpaced (events ++ [e]) := by
  constructor
  · intro τ member
    rw [same]
    rcases List.mem_append.mp member with earlier | added
    · exact inv.pushes τ earlier
    · exact absurd (List.mem_singleton.mp added).symm (other τ)
  · exact guarded_snoc inv.spaced fun τ rendered => absurd rendered (other τ)

private theorem ledInv_render {events : List LedEvent} {s : LedSvc} (inv : LedInv events s)
    (due : s.queue.due .render = some s.queue.now) :
    LedInv (events ++ [workEvent s .render]) (runLedWork s .render) := by
  obtain ⟨dirty, spaced, phase, pushed, now⟩ := phase_render inv.phase due
  have event : workEvent s .render = .rendered s.queue.now := by
    simp only [workEvent, dirty, if_true]
  rw [event]
  refine ⟨?_, by rw [pushed, now], fun τ member => ?_, guarded_snoc inv.spaced ?_⟩
  · rw [lastSubmit_snoc]
    exact phase
  · rw [pushed]
    rcases List.mem_append.mp member with earlier | added
    · exact (inv.pushes τ earlier).trans inv.clock
    · cases List.mem_singleton.mp added
      exact le_refl _
  · rintro τ rendered τ' earlier
    cases rendered
    have before := inv.pushes τ' earlier
    omega

private theorem ledInv_step {events : List LedEvent} {s t : LedSvc} {a : LedAct} {e : LedEvent}
    (inv : LedInv events s) (stepped : ledMachine.step s a = some (t, e)) :
    LedInv (events ++ [e]) t := by
  cases a with
  | submit leds disp =>
    cases stepped
    obtain ⟨phase, pushed, now⟩ := phase_submit inv.phase inv.clock leds disp
    obtain ⟨pushes, spaced⟩ := spaced_other inv _ (.submitted s.queue.now leds disp)
      (by rintro τ ⟨⟩) pushed
    refine ⟨?_, by rw [pushed, now]; exact inv.clock, pushes, spaced⟩
    rw [lastSubmit_snoc]
    exact phase
  | run w =>
    simp only [ledMachine] at stepped
    split at stepped
    next due =>
      cases stepped
      cases w with
      | render => exact ledInv_render inv due
      | quiet =>
        -- the strip goes dark, which is no rendering and no submit
        obtain ⟨phase, pushed, now⟩ := phase_quiet inv.phase due
        obtain ⟨pushes, spaced⟩ := spaced_other inv _ .other (by rintro τ ⟨⟩) pushed
        refine ⟨?_, by rw [pushed, now]; exact inv.clock, pushes, spaced⟩
        rw [lastSubmit_snoc]
        exact phase
    · cases stepped
  | pass τ =>
    simp only [ledMachine] at stepped
    split at stepped
    next may =>
      cases stepped
      obtain ⟨pushes, spaced⟩ := spaced_other inv { s with queue := s.queue.pass τ may } .other
        (by rintro τ ⟨⟩) rfl
      refine ⟨?_, inv.clock.trans may.1, pushes, spaced⟩
      rw [lastSubmit_snoc]
      exact phase_pass inv.phase may
    · cases stepped

theorem led_inv {events : List LedEvent} {s : LedSvc} (reached : ledMachine.Reaches events s) :
    LedInv events s :=
  reached.induct ledInv_boot fun _ _ _ _ _ inv _ stepped => ledInv_step inv stepped

/-- **Convergence and rate.** Renderings are 17 ms apart; 17 ms after a submit the strip shows
it, and 200 ms after it the strip is dark until the next one. -/
theorem led_converges {events : List LedEvent} {s : LedSvc} (reached : ledMachine.Reaches events s) :
    Guarded RenderSpaced events ∧
    (s.queue.Settled → ∀ last, lastSubmit events = some last →
      (last.time + ledMinPeriodMs ≤ s.queue.now → s.queue.now < last.time + ledQuietMs →
        s.pushed = ledRender last.leds last.disp) ∧
      (last.time + ledQuietMs ≤ s.queue.now → s.pushed = .dark)) := by
  have inv := led_inv reached
  refine ⟨inv.spaced, fun settled last submitted => ?_⟩
  have phase := inv.phase
  rw [submitted] at phase
  cases phase with
  | waiting time deadline past dirty quiet render spaced soon =>
    -- the strip is behind for less than 17 ms
    have ahead := settled .render deadline render
    refine ⟨fun late => ?_, fun late => ?_⟩ <;>
      simp only [ledMinPeriodMs, ledQuietMs] at late soon <;> omega
  | shown time past clean lit quiet render pushed =>
    have fresh := settled .quiet _ quiet
    exact ⟨fun _ _ => pushed, fun late => absurd fresh (not_lt.mpr late)⟩
  | dark time past clean quiet idle pushed =>
    exact ⟨fun _ fresh => absurd past (not_le.mpr fresh), fun _ => pushed⟩

/-- Two changes 5 ms apart, and a look at the strip 17 ms after the second. -/
def twoChanges : List LedAct :=
  [.pass 20, .submit 0x1FF fun _ => 0, .run .render, .pass 25, .submit 3 fun _ => 0, .pass 37,
    .run .render, .pass 42]

theorem led_converges_run : ∃ s events,
    ledMachine.run ledMachine.start twoChanges = some (s, events) ∧
      s.pushed = ledRender 3 fun _ => 0 := by
  have ran : (ledMachine.run ledMachine.start twoChanges).map (fun (s, events) =>
      (s.queue.now, s.queue.due .render, s.queue.due .quiet,
        (lastSubmit events).map fun x => (x.time, x.leds))) =
      some (42, none, some 225, some (25, 3)) := by
    decide +kernel
  obtain ⟨⟨s, events⟩, reached, fields⟩ := Option.map_eq_some_iff.mp ran
  simp only [Prod.mk.injEq, Option.map_eq_some_iff] at fields
  obtain ⟨now, render, quiet, last, submitted, time, leds⟩ := fields
  have settled : s.queue.Settled := by
    rintro (_ | _) d member
    · rw [render] at member
      cases member
    · rw [quiet] at member
      cases member
      rw [now]
      decide
  have converged := ((led_converges (Machine.reaches_of_run reached)).2 settled last submitted).1
  rw [time, now, leds] at converged
  exact ⟨s, events, reached, converged (by decide) (by decide)⟩

end FanatecWheel.App
