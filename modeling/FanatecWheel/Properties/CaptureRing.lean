import FanatecWheel.Rimlink.Capture

/-!
# What the capture ring gives back

The ring holds the newest 256 entries of the log of everything it recorded. The
host reads them through a count that is 32 bits wide, so a read is right for
every index as long as that count still tells how full the ring is.
-/

namespace FanatecWheel.Rimlink

open Foundation

/-- The reading a log of entries calls for: entry `idx` of the newest 256, oldest
first, and `-ERANGE` past the end. -/
def capExpected (log : List CapEntry) (idx : ℕ) : Except Errno CapEntry :=
  if inside : idx < min log.length capDepth then
    .ok (log.get ⟨log.length - min log.length capDepth + idx, by omega⟩)
  else .error .erange

private theorem capExpected_eq (log : List CapEntry) (idx : ℕ) :
    capExpected log idx = capResult (if idx < min log.length capDepth then
      log[log.length - min log.length capDepth + idx]? else none) := by
  unfold capExpected
  by_cases inside : idx < min log.length capDepth
  · have below : log.length - min log.length capDepth + idx < log.length := by omega
    rw [dif_pos inside, if_pos inside, List.getElem?_eq_getElem below]
    rfl
  · rw [dif_neg inside, if_neg inside]
    rfl

private theorem capDepth_dvd : capDepth ∣ 2 ^ 32 := ⟨2 ^ 24, by decide⟩

private theorem capStep_holds {c : Capture} {log : List CapEntry} (held : c.toRing.Holds log)
    (op : CapOp) : (capStep c op).1.toRing.Holds (log ++ (capStep c op).2.toList) := by
  cases op with
  | record dir frame crcOk csGapUs cycle =>
    by_cases ready : c.Open
    · simp only [capStep, capRecord_open ready, if_pos ready, Option.toList_some]
      exact Ring.holds_append capDepth_dvd held _
    · simpa only [capStep, capRecord_shut ready, if_neg ready, Option.toList_none,
        List.append_nil] using held
  | noteAnomaly =>
    simpa only [capStep, capNoteAnomaly_toRing, Option.toList_none, List.append_nil] using held
  | start => simpa [capStep, capStart] using held
  | stop => simpa [capStep, capStop] using held
  | freeze => simpa [capStep, capFreeze] using held
  | freezeOnAnomaly en => simpa [capStep, capFreezeOnAnomaly] using held

/-- After any run the slots hold the newest entries of the log. -/
theorem cap_holds_log (ops : List CapOp) :
    (final capStep Capture.boot ops).toRing.Holds (capLog Capture.boot ops) := by
  unfold capLog
  apply run_induction capStep (P := fun _ outs c => c.toRing.Holds (outs.filterMap id))
  · exact Ring.holds_nil _ rfl
  · intro past outs c op held
    have moved := capStep_holds held op
    rw [List.filterMap_append]
    cases wrote : (capStep c op).2 <;> simpa [wrote] using moved

/-- Reading the ring is right for every index if and only if fewer than `2 ^ 32`
entries were recorded since boot, over all starts, or the wrapped count has reached
256 again. -/
theorem capRead_exact_iff (ops : List CapOp) :
    (∀ idx : U32, capRead (final capStep Capture.boot ops) idx =
        capExpected (capLog Capture.boot ops) idx.toNat) ↔
      (capLog Capture.boot ops).length < 2 ^ 32 ∨
        256 ≤ (capLog Capture.boot ops).length % 2 ^ 32 := by
  have held := cap_holds_log ops
  rw [show (capLog Capture.boot ops).length < 2 ^ 32 ∨
      256 ≤ (capLog Capture.boot ops).length % 2 ^ 32 ↔
        Ring.Telling capDepth 32 (capLog Capture.boot ops).length from Iff.rfl,
    ← Ring.reads_log_iff capDepth_dvd (by decide) held]
  apply forall_congr'
  intro idx
  rw [capExpected_eq, capRead, capResult_inj]

/-- Arm the ring and record `n` transactions. -/
def capFill (n : ℕ) : List CapOp :=
  .start :: List.replicate n (.record .tx (fun _ => 0) true 0 0)

private theorem capFill_log (n : ℕ) : (capLog Capture.boot (capFill n)).length = n := by
  -- an open ring stays open while it records
  have records : ∀ k c, c.Open →
      (capLog c (List.replicate k (.record .tx (fun _ => 0) true 0 0))).length = k := by
    intro k
    induction k with
    | zero => intro c _; rfl
    | succ k ih =>
      intro c ready
      have kept : (capRecord c .tx (fun _ => 0) true 0 0).Open := by
        simpa only [Capture.Open, capRecord_armed, capRecord_frozen] using ready
      have rest := ih _ kept
      simp only [capLog, List.replicate_succ, trace, capStep, if_pos ready] at rest ⊢
      simpa using rest
  exact records n (capStart Capture.boot) ⟨rfl, rfl⟩

/-- After `2 ^ 32` records the ring is full and every read reports `-ERANGE`. -/
theorem capRead_wraps :
    capRead (final capStep Capture.boot (capFill (2 ^ 32))) 0 ≠
      capExpected (capLog Capture.boot (capFill (2 ^ 32))) 0 := by
  have held := cap_holds_log (capFill (2 ^ 32))
  have length := capFill_log (2 ^ 32)
  -- the counter is back at zero, so nothing seems readable
  have empty : (final capStep Capture.boot (capFill (2 ^ 32))).toRing.avail ≤ (0 : U32) := by
    rw [BitVec.le_def, Ring.avail_toNat (by decide) held, length]
    decide
  have missing : capRead (final capStep Capture.boot (capFill (2 ^ 32))) 0 = .error .erange := by
    rw [capRead, Ring.read, if_pos empty]
    rfl
  rw [missing, capExpected, dif_pos (by rw [length]; decide)]
  exact fun same => by cases same

end FanatecWheel.Rimlink
