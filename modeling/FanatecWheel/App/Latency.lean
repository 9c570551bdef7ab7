import FanatecWheel.App.CycleClock
import FanatecWheel.App.InputSvc
import FanatecWheel.Foundation.InsertionSort

/-!
# Latency report

`input_svc_latency_get` of `app/src/input_svc.c`: the shell's view of the latency ring.
-/

namespace FanatecWheel.App

open Foundation

/-- How many samples the report looks at. -/
def LatencyRing.count (l : LatencyRing) : ℕ := min l.idx.toNat 128

/-- The copy on the stack after the sort; `none` for an access outside of it. -/
def latencySorted (l : LatencyRing) : Option (List U32) :=
  sortFirst l.count (List.ofFn l.ring)

def latencyP99Cyc (l : LatencyRing) : Option U32 := do
  let copy ← latencySorted l
  if 0 < l.count then copy[l.count * 99 / 100]? else some 0

/-- The 99th percentile and the maximum, both in microseconds. -/
def inputSvcLatencyGet (hz : ℕ) (l : LatencyRing) : Option (U32 × U32) := do
  let p99Cyc ← latencyP99Cyc l
  some (cycToUs32 hz p99Cyc, cycToUs32 hz l.maxCyc)

end FanatecWheel.App
