import FanatecWheel.App.OutputSide
import FanatecWheel.Properties.HapticsGate
import FanatecWheel.Properties.LedConvergence
import FanatecWheel.Properties.RailSequencing

/-!
# A silent link darkens the rim

Rail, strip and motors each have a timer of their own, armed by the calls for a valid frame.
Together they leave nothing on: 200 ms after the last valid frame the rail is off, the strip
dark and the haptic driver at rest, and by default no frame ever moves a motor.
-/

namespace FanatecWheel.App

open Foundation Rimlink

/-! ### The services in time -/

inductive OutputAct
  | receive (out : BaseOutputs)
  | cue (chan : U32) (level : U8) (durationMs : U32)
  | sourceEnable (en : Bool)
  | fault
  | expire
  | ledWork (w : LedWork)
  | stop (chan : Fin 2)
  | pass (t : ℤ)

inductive OutputEvent
  | received (time : ℤ) (out : BaseOutputs)
  | cued (time : ℤ)
  | sourced (en : Bool)
  | faulted
  | expired
  | worked (rendered : Option ℤ)
  | stopped
  | passed

/-- When the work renders a frame, if it does. -/
def renderTime (s : LedSvc) : LedWork → Option ℤ
  | .render => if s.dirty then some s.queue.now else none
  | .quiet => none

/-- The services take calls at any time, and time waits for their timers. -/
def outputMachine (mirror : Bool) : Machine OutputSide OutputAct OutputEvent where
  start := .boot mirror
  step s
    | .receive out => some (s.receive mirror out, .received s.now out)
    | .cue chan level durationMs => some (s.cue chan level durationMs, .cued s.now)
    | .sourceEnable en => some ({ s with lra := lraSvcSourceEnable s.lra en }, .sourced en)
    | .fault => some ({ s with power := powerMgrFault s.power }, .faulted)
    | .expire =>
      if s.power.queue.due () = some s.now then
        some ({ s with power := powerMgrExpire s.power }, .expired)
      else none
    | .ledWork w =>
      if s.led.queue.due w = some s.led.queue.now then
        some ({ s with led := runLedWork s.led w }, .worked (renderTime s.led w))
      else none
    | .stop chan =>
      if s.driver.queue.due chan = some s.driver.queue.now then
        some ({ s with driver := s.driver.stop chan }, .stopped)
      else none
    | .pass t => if may : s.MayPass t then some (s.pass t may, .passed) else none

/-! ### What each service sees -/

/-- The steps of the power manager. -/
def OutputEvent.power : OutputEvent → List PowerEvent
  | .received time _ => [.received time]
  | .faulted => [.faulted]
  | .expired => [.expired]
  | .passed => [.passed]
  | _ => []

/-- The steps of the LED service. -/
def OutputEvent.led : OutputEvent → List LedEvent
  | .received time out => [.submitted time out.leds out.disp]
  | .worked rendered => [rendered.elim .other .rendered]
  | .passed => [.other]
  | _ => []

/-- When a valid frame was received. -/
def OutputEvent.frameTime : OutputEvent → Option ℤ
  | .received time _ => some time
  | _ => none

/-- When a cue was asked for, but by a frame. -/
def OutputEvent.cueTime : OutputEvent → Option ℤ
  | .cued time => some time
  | _ => none

def frameTimes (events : List OutputEvent) : List ℤ := events.filterMap OutputEvent.frameTime

def cueTimes (events : List OutputEvent) : List ℤ := events.filterMap OutputEvent.cueTime

/-- The calls for a valid frame; a fourth is for the display. -/
theorem outputSvcRx_calls (mirror : Bool) (s : OutputSvc) (now : ℤ) (out : BaseOutputs) :
    ∃ shown : Option (Bytes 4), (outputSvcRx mirror s now out).2 =
      [.noteValidRx, .ledSubmit out.leds out.disp, .lraRumble out.rumble] ++
        shown.toList.map .tm1637SetSegments := by
  unfold outputSvcRx
  by_cases same : out.disp = s.prevDisp
  · exact ⟨none, by simp [same]⟩
  · simp only [same, ne_eq, not_false_eq_true, decide_true, if_true, Bool.not_true,
      Bool.false_eq_true, if_false]
    split
    · exact ⟨some (mirrorSegments out.disp), rfl⟩
    · exact ⟨none, rfl⟩

/-! ### The clocks -/

theorem noteValidRx_now (s : PowerMgr) : (powerMgrNoteValidRx s).queue.now = s.queue.now := by
  unfold powerMgrNoteValidRx
  split
  · have kept : (railSet s true).queue.now = s.queue.now :=
      congrArg Delayable.now (railSet_frame s true).2
    exact kept
  · rfl

theorem powerMgrFault_now (s : PowerMgr) : (powerMgrFault s).queue.now = s.queue.now := by
  rw [powerMgrFault, (railSet_frame _ false).2]

theorem powerMgrExpire_now (s : PowerMgr) : (powerMgrExpire s).queue.now = s.queue.now := by
  rw [powerMgrExpire, staleHandler, (railSet_frame _ false).2]
  rfl

theorem ledSvcSubmit_now (s : LedSvc) (leds : U16) (disp : Bytes 3) :
    (ledSvcSubmit s leds disp).queue.now = s.queue.now := by
  unfold ledSvcSubmit
  dsimp only
  split
  · rfl
  · split <;> rfl

theorem runLedWork_now (s : LedSvc) (w : LedWork) :
    (runLedWork s w).queue.now = s.queue.now := by
  cases w with
  | render =>
    simp only [runLedWork, renderHandler]
    split <;> rfl
  | quiet => rfl

/-- A valid frame is one call of each service. -/
theorem receive_eq (mirror : Bool) (s : OutputSide) (out : BaseOutputs) :
    s.receive mirror out =
      { svc := (outputSvcRx mirror s.svc s.now out).1
        power := powerMgrNoteValidRx s.power
        led := ledSvcSubmit s.led out.leds out.disp
        lra := (lraSvcRumble s.lra (fun _ => s.now) out.rumble).1
        driver := s.driver.play (lraSvcRumble s.lra (fun _ => s.now) out.rumble).2 } := by
  obtain ⟨shown, calls⟩ := outputSvcRx_calls mirror s.svc s.now out
  have made : s.receive mirror out = (outputSvcRx mirror s.svc s.now out).2.foldl
      OutputSide.perform { s with svc := (outputSvcRx mirror s.svc s.now out).1 } := rfl
  rw [made, calls]
  cases shown <;>
    simp only [Option.toList_none, Option.toList_some, List.map_nil, List.map_cons,
      List.append_nil, List.cons_append, List.nil_append, List.foldl_cons, List.foldl_nil,
      OutputSide.perform, OutputSide.now, noteValidRx_now]

/-! ### The motors -/

/-- A level in the register waits for a stop work, due 100 ms after one of the times at most. -/
def Driven (times : List ℤ) (d : HapticDriver) : Prop :=
  d.rtp ≠ 0 → ∃ chan deadline, d.queue.due chan = some deadline ∧
    ∃ time ∈ times, deadline ≤ time + 100

theorem driven_mono {times later : List ℤ} {d : HapticDriver} (driven : Driven times d)
    (more : times ⊆ later) : Driven later d := by
  intro moving
  obtain ⟨chan, deadline, due, time, member, bound⟩ := driven moving
  exact ⟨chan, deadline, due, time, more member, bound⟩

/-- One cue asked for now. -/
theorem driven_cue {times : List ℤ} {d : HapticDriver} (driven : Driven times d) (s : LraSvc)
    (r : CueRequest) (now : r.nowMs = d.queue.now) (member : r.nowMs ∈ times) :
    Driven times (d.play [(cueStep s r).2]) ∧
      (d.play [(cueStep s r).2]).queue.now = d.queue.now := by
  have silent (e : CueEvent) (quiet : e.calls = []) : d.play [e] = d := by
    simp only [HapticDriver.play, List.flatMap_cons, quiet, List.flatMap_nil, List.append_nil,
      List.foldl_nil]
  -- refused requests play nothing
  rcases cueStep_cases s r with ⟨-, same⟩ | ⟨_, -, -, _, -, same⟩ |
    ⟨ch, -, -, granted, -, length, _, -, same⟩
  · rw [same, silent _ rfl]
    exact ⟨driven, rfl⟩
  · rw [same, silent _ rfl]
    exact ⟨driven, rfl⟩
  · -- the level is set and the stop work scheduled
    rw [same]
    refine ⟨fun _ => ⟨ch, d.queue.now + granted.toNat, ?_, r.nowMs, member, ?_⟩, rfl⟩
    · exact Delayable.reschedule_due ..
    · rw [length, now]
      omega

theorem driven_cues {times : List ℤ} {d : HapticDriver} (driven : Driven times d) (s : LraSvc)
    (requests : List CueRequest)
    (asked : ∀ r ∈ requests, r.nowMs = d.queue.now ∧ r.nowMs ∈ times) :
    Driven times (d.play (trace cueStep s requests)) ∧
      (d.play (trace cueStep s requests)).queue.now = d.queue.now := by
  -- on the requests: the clock stands still between them
  induction requests generalizing s d with
  | nil => exact ⟨driven, rfl⟩
  | cons r rest ih =>
    obtain ⟨first, later⟩ := List.forall_mem_cons.mp asked
    obtain ⟨driven', now⟩ := driven_cue driven s r first.1 first.2
    have both := ih driven' (cueStep s r).1 fun r' member => now ▸ later r' member
    have split : d.play (trace cueStep s (r :: rest)) =
        (d.play [(cueStep s r).2]).play (trace cueStep (cueStep s r).1 rest) := by
      simp only [HapticDriver.play, trace, List.flatMap_cons, List.flatMap_nil, List.append_nil,
        List.foldl_append]
    rw [split]
    exact ⟨both.1, both.2.trans now⟩

/-! ### Runs -/

section Runs

variable {mirror : Bool} {events : List OutputEvent} {s : OutputSide}

/-- The queues stand at one time. -/
def OutputSide.InStep (s : OutputSide) : Prop :=
  s.led.queue.now = s.now ∧ s.driver.queue.now = s.now

private theorem rumble_driven {times : List ℤ} {d : HapticDriver} (driven : Driven times d)
    (lra : LraSvc) (rumble : Bytes 2) (member : d.queue.now ∈ times) :
    Driven times (d.play (lraSvcRumble lra (fun _ => d.queue.now) rumble).2) ∧
      (d.play (lraSvcRumble lra (fun _ => d.queue.now) rumble).2).queue.now = d.queue.now := by
  unfold lraSvcRumble
  split
  · refine driven_cues driven lra _ fun r asked => ?_
    obtain ⟨ch, -, some_request⟩ := List.mem_filterMap.mp asked
    obtain ⟨-, same⟩ := Option.ite_none_right_eq_some.mp some_request
    cases same
    exact ⟨rfl, member⟩
  · exact ⟨driven, rfl⟩

/-- Nobody asked for a cue or enabled the frame source. -/
def ByDefault (events : List OutputEvent) : Prop := cueTimes events = [] ∧ .sourced true ∉ events

/-- What holds of the clocks and the motors after every event. -/
structure MotorInv (events : List OutputEvent) (s : OutputSide) : Prop where
  clocks : s.InStep
  driven : Driven (frameTimes events ++ cueTimes events) s.driver
  posture : ByDefault events → s.lra.sourceEn = false ∧ s.driver.rtp = 0

private theorem times_snoc (events : List OutputEvent) (e : OutputEvent) :
    frameTimes events ++ cueTimes events ⊆
      frameTimes (events ++ [e]) ++ cueTimes (events ++ [e]) := by
  have frames : frameTimes events ⊆ frameTimes (events ++ [e]) := by
    rw [frameTimes, frameTimes, List.filterMap_append]
    exact List.subset_append_left ..
  have cues : cueTimes events ⊆ cueTimes (events ++ [e]) := by
    rw [cueTimes, cueTimes, List.filterMap_append]
    exact List.subset_append_left ..
  exact List.append_subset.mpr ⟨List.Subset.trans frames (List.subset_append_left ..),
    List.Subset.trans cues (List.subset_append_right ..)⟩

private theorem byDefault_before {e : OutputEvent} (default : ByDefault (events ++ [e])) :
    ByDefault events ∧ e.cueTime = none ∧ e ≠ .sourced true := by
  obtain ⟨cues, source⟩ := default
  rw [cueTimes, List.filterMap_append, List.append_eq_nil_iff] at cues
  rw [List.mem_append, List.mem_singleton, not_or] at source
  refine ⟨⟨cues.1, source.1⟩, ?_, Ne.symm source.2⟩
  cases asked : e.cueTime with
  | none => rfl
  | some time =>
    have last := cues.2
    rw [List.filterMap_cons, asked] at last
    cases last

/-- A step that leaves the motors alone. -/
private theorem motorInv_other (inv : MotorInv events s) {t : OutputSide} (e : OutputEvent)
    (clocks : t.InStep) (driver : t.driver.rtp = s.driver.rtp)
    (queue : t.driver.queue.due = s.driver.queue.due)
    (source : e ≠ .sourced true → s.lra.sourceEn = false → t.lra.sourceEn = false) :
    MotorInv (events ++ [e]) t := by
  refine ⟨clocks, ?_, fun default => ?_⟩
  · have driven : Driven (frameTimes events ++ cueTimes events) t.driver := by
      unfold Driven
      rw [driver, queue]
      exact inv.driven
    exact driven_mono driven (times_snoc events e)
  · obtain ⟨before, -, other⟩ := byDefault_before default
    obtain ⟨off, still⟩ := inv.posture before
    exact ⟨source other off, driver.trans still⟩

private theorem motorInv_receive (inv : MotorInv events s) (out : BaseOutputs) :
    MotorInv (events ++ [.received s.now out]) (s.receive mirror out) := by
  have times : s.now ∈ frameTimes (events ++ [.received s.now out]) ++
      cueTimes (events ++ [.received s.now out]) := by
    rw [frameTimes, List.filterMap_append, List.mem_append, List.mem_append]
    exact .inl (.inr (List.mem_singleton.mpr rfl))
  have before := driven_mono inv.driven (times_snoc events (.received s.now out))
  obtain ⟨driven, clock⟩ := rumble_driven before s.lra out.rumble (inv.clocks.2 ▸ times)
  rw [inv.clocks.2] at driven clock
  rw [receive_eq]
  refine ⟨⟨?_, ?_⟩, driven, fun default => ?_⟩
  · exact (ledSvcSubmit_now ..).trans (inv.clocks.1.trans (noteValidRx_now s.power).symm)
  · exact clock.trans (noteValidRx_now s.power).symm
  · obtain ⟨off, still⟩ := inv.posture (byDefault_before default).1
    -- the frame source is off, so the frame asks for no cue
    have nothing : lraSvcRumble s.lra (fun _ => s.now) out.rumble = (s.lra, []) := by
      simp only [lraSvcRumble, off, Bool.false_eq_true, if_false]
    rw [nothing]
    exact ⟨off, still⟩

private theorem motorInv_cue (inv : MotorInv events s) (chan : U32) (level : U8)
    (durationMs : U32) : MotorInv (events ++ [.cued s.now]) (s.cue chan level durationMs) := by
  have times : s.now ∈ frameTimes (events ++ [.cued s.now]) ++
      cueTimes (events ++ [.cued s.now]) := by
    rw [cueTimes, List.filterMap_append, List.mem_append, List.mem_append]
    exact .inr (.inr (List.mem_singleton.mpr rfl))
  have before := driven_mono inv.driven (times_snoc events (.cued s.now))
  obtain ⟨driven, clock⟩ := driven_cue before s.lra ⟨s.now, chan, level, durationMs⟩
    inv.clocks.2.symm times
  refine ⟨⟨inv.clocks.1, clock.trans inv.clocks.2⟩, driven, fun default => ?_⟩
  cases (byDefault_before default).2.1

private theorem motorInv_step (inv : MotorInv events s) {t : OutputSide} {act : OutputAct}
    {e : OutputEvent} (stepped : (outputMachine mirror).step s act = some (t, e)) :
    MotorInv (events ++ [e]) t := by
  cases act with
  | receive out =>
    cases stepped
    exact motorInv_receive inv out
  | cue chan level durationMs =>
    cases stepped
    exact motorInv_cue inv chan level durationMs
  | sourceEnable en =>
    cases stepped
    refine motorInv_other inv _ inv.clocks rfl rfl fun other _ => ?_
    cases en with
    | true => exact absurd rfl other
    | false => rfl
  | fault =>
    cases stepped
    have clock := powerMgrFault_now s.power
    exact motorInv_other inv .faulted ⟨inv.clocks.1.trans clock.symm, inv.clocks.2.trans clock.symm⟩
      rfl rfl fun _ off => off
  | expire =>
    simp only [outputMachine] at stepped
    split at stepped <;> cases stepped
    have clock := powerMgrExpire_now s.power
    exact motorInv_other inv .expired ⟨inv.clocks.1.trans clock.symm, inv.clocks.2.trans clock.symm⟩
      rfl rfl fun _ off => off
  | ledWork w =>
    simp only [outputMachine] at stepped
    split at stepped <;> cases stepped
    exact motorInv_other inv _ ⟨(runLedWork_now s.led w).trans inv.clocks.1, inv.clocks.2⟩ rfl rfl
      fun _ off => off
  | stop chan =>
    simp only [outputMachine] at stepped
    split at stepped <;> cases stepped
    -- the register is zero after a stop, whichever channel it was for
    refine ⟨inv.clocks, fun moving => absurd rfl moving, fun default => ?_⟩
    exact ⟨(inv.posture (byDefault_before default).1).1, rfl⟩
  | pass τ =>
    simp only [outputMachine] at stepped
    split at stepped <;> cases stepped
    exact motorInv_other inv .passed ⟨rfl, rfl⟩ rfl rfl fun _ off => off

private theorem motor_inv (reached : (outputMachine mirror).Reaches events s) :
    MotorInv events s := by
  refine Machine.ReachesBy.induct (P := MotorInv) ?_
    (fun _ _ _ _ _ inv _ stepped => motorInv_step inv stepped) reached
  exact ⟨⟨rfl, rfl⟩, fun moving => absurd rfl moving, fun _ => ⟨rfl, rfl⟩⟩

/-- A run of the output side is one of the power manager. -/
theorem power_reaches (reached : (outputMachine mirror).Reaches events s) :
    powerMachine.Reaches (events.flatMap OutputEvent.power) s.power := by
  refine Machine.ReachesBy.project (f := OutputSide.power) rfl ?_ reached
  intro _ s act t e _ _ stepped before
  cases act with
  | receive out =>
    cases stepped
    rw [receive_eq]
    exact before.one (a := .noteValidRx) trivial rfl rfl
  | cue chan level durationMs =>
    cases stepped
    exact before.stutter rfl rfl
  | sourceEnable en =>
    cases stepped
    exact before.stutter rfl rfl
  | fault =>
    cases stepped
    exact before.one (a := .fault) trivial rfl rfl
  | expire =>
    simp only [outputMachine] at stepped
    split at stepped <;> cases stepped
    next due => exact before.one (a := .expire) trivial (if_pos due) rfl
  | ledWork w =>
    simp only [outputMachine] at stepped
    split at stepped <;> cases stepped
    exact before.stutter rfl rfl
  | stop chan =>
    simp only [outputMachine] at stepped
    split at stepped <;> cases stepped
    exact before.stutter rfl rfl
  | pass τ =>
    simp only [outputMachine] at stepped
    split at stepped <;> cases stepped
    next may => exact before.one (a := .pass τ) trivial (dif_pos may.power) rfl

/-- A run of the output side is one of the LED service. -/
theorem led_reaches (reached : (outputMachine mirror).Reaches events s) :
    ledMachine.Reaches (events.flatMap OutputEvent.led) s.led := by
  refine Machine.ReachesBy.project (f := OutputSide.led) rfl ?_ reached
  intro _ s act t e run _ stepped before
  cases act with
  | receive out =>
    cases stepped
    have clock := (motor_inv run).clocks.1
    rw [receive_eq]
    refine before.one (a := .submit out.leds out.disp) trivial rfl ?_
    rw [clock]
    rfl
  | cue chan level durationMs =>
    cases stepped
    exact before.stutter rfl rfl
  | sourceEnable en =>
    cases stepped
    exact before.stutter rfl rfl
  | fault =>
    cases stepped
    exact before.stutter rfl rfl
  | expire =>
    simp only [outputMachine] at stepped
    split at stepped <;> cases stepped
    exact before.stutter rfl rfl
  | ledWork w =>
    simp only [outputMachine] at stepped
    split at stepped <;> cases stepped
    next due =>
      refine before.one (a := .run w) trivial (if_pos due) ?_
      cases w with
      | render => cases dirty : s.led.dirty <;> simp [OutputEvent.led, workEvent, renderTime, dirty]
      | quiet => rfl
  | stop chan =>
    simp only [outputMachine] at stepped
    split at stepped <;> cases stepped
    exact before.stutter rfl rfl
  | pass τ =>
    simp only [outputMachine] at stepped
    split at stepped <;> cases stepped
    next may => exact before.one (a := .pass τ) trivial (dif_pos may.led) rfl

/-- A frame that the power manager saw is one that was received. -/
private theorem frameTimes_power {time : ℤ}
    (seen : .received time ∈ events.flatMap OutputEvent.power) : time ∈ frameTimes events := by
  obtain ⟨e, member, saw⟩ := List.mem_flatMap.mp seen
  refine List.mem_filterMap.mpr ⟨e, member, ?_⟩
  cases e with
  | received t out =>
    cases List.mem_singleton.mp saw
    rfl
  | faulted => cases List.mem_singleton.mp saw
  | expired => cases List.mem_singleton.mp saw
  | passed => cases List.mem_singleton.mp saw
  | _ => cases saw

/-- A submit that the LED service saw came with a frame. -/
private theorem frameTimes_led {last : Submit}
    (seen : lastSubmit (events.flatMap OutputEvent.led) = some last) :
    last.time ∈ frameTimes events := by
  obtain ⟨x, member, submit⟩ := List.mem_filterMap.mp (List.mem_of_getLast? seen)
  obtain ⟨e, here, saw⟩ := List.mem_flatMap.mp member
  refine List.mem_filterMap.mpr ⟨e, here, ?_⟩
  cases e with
  | received time out =>
    cases List.mem_singleton.mp saw
    cases submit
    rfl
  | worked rendered =>
    cases List.mem_singleton.mp saw
    cases rendered <;> cases submit
  | passed =>
    cases List.mem_singleton.mp saw
    cases submit
  | _ => cases saw

/-- At rest, 200 ms after the last submit or with none, the strip is dark. -/
theorem strip_dark {events : List LedEvent} {s : LedSvc} (inv : LedInv events s)
    (settled : s.queue.Settled)
    (silent : ∀ last ∈ lastSubmit events, last.time + ledQuietMs ≤ s.queue.now) :
    s.pushed = .dark := by
  have phase := inv.phase
  cases submitted : lastSubmit events with
  | none =>
    rw [submitted] at phase
    cases phase with
    | unused leds clean lit idle pushed disp => exact pushed
  | some last =>
    rw [submitted] at phase silent
    have old := silent last rfl
    cases phase with
    | waiting time deadline past dirty quiet render spaced soon =>
      -- its rendering would be due by now
      have ahead := settled .render deadline render
      simp only [ledMinPeriodMs, ledQuietMs] at old soon
      omega
    | shown time past clean lit quiet render pushed =>
      exact absurd (settled .quiet _ quiet) (not_lt.mpr old)
    | dark time past clean quiet idle pushed => exact pushed

/-- **A silent link darkens the rim.** While nobody asks for a cue and the frame source is off no
motor moves. Once every timer that ran out has been handled: 200 ms after the last valid frame,
and before the first, the rail is off and the strip dark, and the haptic driver is at rest too
when no cue was asked for in the last 100 ms. -/
theorem outputs_isolated (reached : (outputMachine mirror).Reaches events s) :
    (ByDefault events → s.driver.rtp = 0) ∧
    (s.Settled → (∀ time ∈ frameTimes events, time + pwrStaleMs ≤ s.now) →
      s.power.stats.railOn = false ∧ s.led.pushed = .dark ∧
      ((∀ time ∈ cueTimes events, time + 100 ≤ s.now) → s.driver.rtp = 0)) := by
  have motors := motor_inv reached
  refine ⟨fun default => (motors.posture default).2, fun settled silent => ⟨?_, ?_, ?_⟩⟩
  · by_contra on
    simp only [Bool.not_eq_false] at on
    obtain ⟨-, time, due, ⟨before, after, split, -⟩, -⟩ := (rail_inv (power_reaches reached)).lit on
    have member : .received time ∈ events.flatMap OutputEvent.power := by
      rw [split]
      exact List.mem_append_right _ (List.mem_cons_self ..)
    have ahead := settled.power () _ due
    have old := silent time (frameTimes_power member)
    simp only [OutputSide.now] at old
    omega
  · refine strip_dark (led_inv (led_reaches reached)) settled.led fun last submitted => ?_
    rw [motors.clocks.1]
    exact silent last.time (frameTimes_led submitted)
  · intro unasked
    by_contra moving
    obtain ⟨chan, deadline, due, time, member, bound⟩ := motors.driven moving
    have ahead := settled.driver chan deadline due
    rw [motors.clocks.2] at ahead
    rcases List.mem_append.mp member with frame | cue
    · have old := silent time frame
      simp only [pwrStaleMs] at old
      omega
    · have old := unasked time cue
      omega

end Runs

/-- One frame with LEDs and rumble, until every timer has run out. -/
def oneFrame : List OutputAct :=
  [.sourceEnable true, .pass 20, .receive ⟨fun _ => 0, 3, ![9, 0]⟩, .ledWork .render, .pass 120,
    .stop 0, .pass 220, .expire, .ledWork .quiet]

theorem outputs_isolated_run : ∃ s events,
    (outputMachine false).run (outputMachine false).start oneFrame = some (s, events) ∧
      s.power.stats.railOn = false ∧ s.led.pushed = .dark ∧ s.driver.rtp = 0 := by
  have ran : ((outputMachine false).run (outputMachine false).start oneFrame).map
      (fun (s, events) => (s.now, frameTimes events, cueTimes events,
        [s.power.queue.due (), s.led.queue.due .render, s.led.queue.due .quiet,
          s.driver.queue.due 0, s.driver.queue.due 1])) =
      some (220, [20], [], [none, none, none, none, none]) := by
    decide +kernel
  obtain ⟨⟨s, events⟩, reached, fields⟩ := Option.map_eq_some_iff.mp ran
  simp only [Prod.mk.injEq, List.cons.injEq, and_true] at fields
  obtain ⟨now, frames, cues, stale, render, quiet, stop0, stop1⟩ := fields
  have stops : ∀ chan, s.driver.queue.due chan = none := Fin.forall_fin_two.mpr ⟨stop0, stop1⟩
  have settled : s.Settled := by
    refine ⟨fun w d member => ?_, fun w d member => ?_, fun chan d member => ?_⟩
    · rw [stale] at member
      cases member
    · cases w with
      | render =>
        rw [render] at member
        cases member
      | quiet =>
        rw [quiet] at member
        cases member
    · rw [stops] at member
      cases member
  have dark := (outputs_isolated (Machine.reaches_of_run reached)).2 settled (by
    rw [frames, now]
    decide)
  exact ⟨s, events, reached, dark.1, dark.2.1, dark.2.2 (by rw [cues]; exact fun _ none => nomatch none)⟩

end FanatecWheel.App
