import FanatecWheel.App.PowerMgr
import FanatecWheel.Foundation.Trace

/-!
# Sequencing of the output rail

Valid frames, faults and the stale timer in any order: the rail is on only between a
valid frame and the next expiry, and not after a fault.
-/

namespace FanatecWheel.App

open Foundation

inductive PowerAct
  | noteValidRx
  | fault
  | expire
  | pass (t : ℤ)

inductive PowerEvent
  | received (time : ℤ)
  | faulted
  | expired
  | passed
deriving DecidableEq

/-- The timer runs out when it is due, and time waits for it. -/
def powerMachine : Machine PowerMgr PowerAct PowerEvent where
  start := .boot
  step s
    | .noteValidRx => some (powerMgrNoteValidRx s, .received s.queue.now)
    | .fault => some (powerMgrFault s, .faulted)
    | .expire =>
      if s.queue.due () = some s.queue.now then some (powerMgrExpire s, .expired) else none
    | .pass t =>
      if may : s.queue.MayPass t then some ({ s with queue := s.queue.pass t may }, .passed)
      else none

/-- A valid frame was received at `time`, and the timer has not run out since. -/
def ReceivedAt (time : ℤ) (events : List PowerEvent) : Prop :=
  ∃ before after, events = before ++ .received time :: after ∧ .expired ∉ after

theorem receivedAt_last (events : List PowerEvent) (time : ℤ) :
    ReceivedAt time (events ++ [.received time]) := ⟨events, [], rfl, by simp⟩

theorem receivedAt_snoc {time : ℤ} {events : List PowerEvent} (received : ReceivedAt time events)
    {e : PowerEvent} (other : e ≠ .expired) : ReceivedAt time (events ++ [e]) := by
  obtain ⟨before, after, rfl, kept⟩ := received
  refine ⟨before, after ++ [e], by rw [List.append_assoc, List.cons_append], ?_⟩
  simp only [List.mem_append, List.mem_singleton, not_or]
  exact ⟨kept, Ne.symm other⟩

/-- What holds after every event. -/
structure RailInv (events : List PowerEvent) (s : PowerMgr) : Prop where
  latched : s.faulted = true ↔ .faulted ∈ events
  counted : Counted s.stats
  /-- No fault, and a frame the timer runs for. -/
  lit : s.stats.railOn = true → s.faulted = false ∧
    ∃ time : ℤ, s.queue.due () = some (time + pwrStaleMs) ∧ ReceivedAt time events ∧ time ≤ s.queue.now

private theorem railInv_boot : RailInv [] .boot where
  latched := by simp [PowerMgr.boot]
  counted := rfl
  lit := fun on => nomatch on

private theorem railInv_receive {events : List PowerEvent} {s : PowerMgr} (inv : RailInv events s) :
    RailInv (events ++ [.received s.queue.now]) (powerMgrNoteValidRx s) := by
  have armed : (powerMgrNoteValidRx s).queue = s.queue.reschedule () pwrStaleMs := by
    unfold powerMgrNoteValidRx
    cases s.faulted with
    | true => rfl
    | false => simp only [Bool.not_false, if_true, (railSet_frame s true).2]
  have latch : (powerMgrNoteValidRx s).faulted = s.faulted := by
    unfold powerMgrNoteValidRx
    split
    · exact (railSet_frame s true).1
    · rfl
  refine ⟨?_, ?_, fun on => ?_⟩
  · rw [latch, inv.latched]
    simp
  · unfold powerMgrNoteValidRx
    split
    · exact railSet_counted inv.counted true
    · exact inv.counted
  · have clear : s.faulted = false := by
      by_contra latched
      simp only [Bool.not_eq_false] at latched
      -- with the fault latched the rail stays as it is, which is off
      have kept : (powerMgrNoteValidRx s).stats = s.stats := by
        rw [powerMgrNoteValidRx, latched]
        rfl
      rw [kept] at on
      have fine := (inv.lit on).1
      rw [latched] at fine
      cases fine
    refine ⟨latch.trans clear, s.queue.now, ?_, receivedAt_last .., ?_⟩
    · rw [armed, Delayable.reschedule_due]
    · rw [armed]
      exact le_refl _

private theorem railInv_off {events : List PowerEvent} (s : PowerMgr)
    (latched : s.faulted = true ↔ .faulted ∈ events) (counted : Counted s.stats) :
    RailInv events (railSet s false) := by
  refine ⟨by rw [(railSet_frame s false).1, latched], railSet_counted counted false, fun on => ?_⟩
  rw [railSet_on] at on
  cases on

private theorem railInv_step {events : List PowerEvent} {s t : PowerMgr} {a : PowerAct}
    {e : PowerEvent} (inv : RailInv events s) (stepped : powerMachine.step s a = some (t, e)) :
    RailInv (events ++ [e]) t := by
  cases a with
  | noteValidRx =>
    cases stepped
    exact railInv_receive inv
  | fault =>
    cases stepped
    exact railInv_off { s with faulted := true } (by simp) inv.counted
  | expire =>
    simp only [powerMachine] at stepped
    split at stepped
    · -- the deadline is gone with the rail, so the next valid frame starts both again
      cases stepped
      exact railInv_off { s with
        queue := s.queue.take ()
        stats.staleTrips := s.stats.staleTrips + 1 } (by simp [inv.latched]) inv.counted
    · cases stepped
  | pass τ =>
    simp only [powerMachine] at stepped
    split at stepped
    next may =>
      cases stepped
      refine ⟨?_, inv.counted, fun on => ?_⟩
      · simp only [inv.latched]
        simp
      · obtain ⟨clear, time, due, received, past⟩ := inv.lit on
        exact ⟨clear, time, due, receivedAt_snoc received (by decide), past.trans may.1⟩
    · cases stepped

theorem rail_inv {events : List PowerEvent} {s : PowerMgr}
    (reached : powerMachine.Reaches events s) : RailInv events s :=
  reached.induct railInv_boot fun _ _ _ _ _ inv _ stepped => railInv_step inv stepped

/-- **Rail sequencing.** The rail is on only with no fault latched and a valid frame received
after the last expiry, 200 ms ago at most; the counters tell its state; and a fault is for
good. -/
theorem rail_sequenced {events : List PowerEvent} {s : PowerMgr}
    (reached : powerMachine.Reaches events s) :
    (s.stats.railOn = true → s.faulted = false ∧
      ∃ time, ReceivedAt time events ∧ time ≤ s.queue.now ∧ s.queue.now ≤ time + pwrStaleMs) ∧
    s.stats.onEvents - s.stats.offEvents = (if s.stats.railOn then 1 else 0) ∧
    (.faulted ∈ events → s.stats.railOn = false) := by
  have inv := rail_inv reached
  refine ⟨fun on => ?_, inv.counted, fun fault => ?_⟩
  · obtain ⟨clear, time, due, received, past⟩ := inv.lit on
    exact ⟨clear, time, received, past, s.queue.timely () _ due⟩
  · by_contra on
    simp only [Bool.not_eq_false] at on
    have clear := (inv.lit on).1
    rw [inv.latched.mpr fault] at clear
    cases clear

/-- A frame, an expiry, a second frame, and 100 ms. -/
theorem rail_sequenced_run : ∃ s events,
    powerMachine.run powerMachine.start
      [.pass 5, .noteValidRx, .pass 205, .expire, .noteValidRx, .pass 305] = some (s, events) ∧
    s.stats.railOn = true ∧ s.faulted = false ∧ ∃ time, ReceivedAt time events ∧ 105 ≤ time := by
  have ran : (powerMachine.run powerMachine.start
      [.pass 5, .noteValidRx, .pass 205, .expire, .noteValidRx, .pass 305]).map
        (fun (s, _) => (s.stats.railOn, s.queue.now)) = some (true, 305) := by
    decide +kernel
  obtain ⟨⟨s, events⟩, reached, fields⟩ := Option.map_eq_some_iff.mp ran
  simp only [Prod.mk.injEq] at fields
  obtain ⟨clear, time, received, -, recent⟩ :=
    (rail_sequenced (Machine.reaches_of_run reached)).1 fields.1
  rw [fields.2, pwrStaleMs] at recent
  exact ⟨s, events, reached, fields.1, clear, time, received, by omega⟩

end FanatecWheel.App
