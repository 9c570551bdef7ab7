import FanatecWheel.Foundation.Delayable
import FanatecWheel.Foundation.Words

/-!
# Output power manager

`app/src/power_mgr.c`: the rail behind the load switch, its counters, the fault
latch and the stale timer.
-/

namespace FanatecWheel.App

open Foundation

/-- `PWR_STALE_MS`. -/
def pwrStaleMs : ℕ := 200

structure PowerStats where
  railOn : Bool
  onEvents : U32
  offEvents : U32
  staleTrips : U32

/-- The static `pm`; the stale timer is the only work of its queue. -/
structure PowerMgr where
  stats : PowerStats
  faulted : Bool
  queue : Delayable Unit

def PowerMgr.boot : PowerMgr where
  stats := ⟨false, 0, 0, 0⟩
  faulted := false
  queue := .idle 0

/-- `rail_set`: only edges are counted. -/
def railSet (s : PowerMgr) (on : Bool) : PowerMgr :=
  if s.stats.railOn = on then s
  else
    let s := { s with stats.railOn := on }
    if on then { s with stats.onEvents := s.stats.onEvents + 1 }
    else { s with stats.offEvents := s.stats.offEvents + 1 }

def staleHandler (s : PowerMgr) : PowerMgr :=
  railSet { s with stats.staleTrips := s.stats.staleTrips + 1 } false

def powerMgrNoteValidRx (s : PowerMgr) : PowerMgr :=
  let s := if !s.faulted then railSet s true else s
  { s with queue := s.queue.reschedule () pwrStaleMs }

def powerMgrFault (s : PowerMgr) : PowerMgr := railSet { s with faulted := true } false

/-- The stale timer ran out. -/
def powerMgrExpire (s : PowerMgr) : PowerMgr := staleHandler { s with queue := s.queue.take () }

/-! ### The rail and its counters -/

theorem railSet_on (s : PowerMgr) (on : Bool) : (railSet s on).stats.railOn = on := by
  unfold railSet
  split
  next same => exact same
  · cases on <;> rfl

theorem railSet_frame (s : PowerMgr) (on : Bool) :
    (railSet s on).faulted = s.faulted ∧ (railSet s on).queue = s.queue := by
  unfold railSet
  split
  · exact ⟨rfl, rfl⟩
  · cases on <;> exact ⟨rfl, rfl⟩

/-- The counters tell the state of the rail. -/
def Counted (stats : PowerStats) : Prop :=
  stats.onEvents - stats.offEvents = if stats.railOn then 1 else 0

/-- The rail is switched where it stood, so that one edge is counted. -/
theorem railSet_counted {s : PowerMgr} (counted : Counted s.stats) (on : Bool) :
    Counted (railSet s on).stats := by
  unfold railSet
  split
  · exact counted
  next other =>
    cases on with
    | true =>
      simp only [Bool.not_eq_true] at other
      simp only [Counted, other, Bool.false_eq_true, if_false] at counted
      simp only [Counted, if_true]
      bv_omega
    | false =>
      simp only [Bool.not_eq_false] at other
      simp only [Counted, other, if_true] at counted
      simp only [Counted, Bool.false_eq_true, if_false]
      bv_omega

end FanatecWheel.App
