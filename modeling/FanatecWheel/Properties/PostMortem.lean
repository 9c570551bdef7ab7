import FanatecWheel.Foundation.Trace
import FanatecWheel.Rimlink.Link

/-!
# Freezing the capture ring after a fault

Once frozen the ring keeps its entries and its count until it is started again.
While it is open with freeze-on-anomaly set, valid traffic keeps it open, and the
first frame that is corrupt or short freezes it: the corrupt one is the newest
entry, the short one leaves none.
-/

namespace FanatecWheel.Rimlink

open Foundation

/-! ### Frozen -/

private theorem capRecord_keeps {c : Capture} (frozen : c.frozen = true) (dir : CapDir)
    (frame : Frame) (crcOk : Bool) (csGapUs cycle : U32) :
    capRecord c dir frame crcOk csGapUs cycle = c :=
  capRecord_shut (fun ready => by simp [Capture.Open, frozen] at ready) dir frame crcOk csGapUs
    cycle

private theorem capNoteAnomaly_keeps {c : Capture} (frozen : c.frozen = true) :
    capNoteAnomaly c = c := by
  unfold capNoteAnomaly
  split
  · rw [← frozen]
  · rfl

private theorem txAcquire_cap (a : Adapter) (now : ℤ) (cycle : U32) :
    ∃ frame, (txAcquire a now cycle).1.cap =
      capRecord a.cap .tx frame true a.lastCsGapUs cycle := by
  obtain ⟨armed, buf, fresh, staleCleared, staleClear, same⟩ := rearm_frame a now
  exact ⟨armedFrame (rearm a now), by simp only [txAcquire, same]⟩

private theorem rxWorkLoop_cap (turns : ℕ) (a : Adapter) :
    (rxWorkLoop turns a).1.cap = a.cap := by
  obtain ⟨q, same⟩ := rxWorkLoop_frame turns a
  rw [same]

private theorem rxSubmit_keeps {a : Adapter} (frozen : a.cap.frozen = true) (frame : Frame)
    (len : ℕ) (cycle : U32) : (rxSubmit a frame len cycle).cap = a.cap := by
  rw [rxSubmit_cap]
  by_cases short : len < 33
  · rw [rxReceive_short a cycle short]
    exact capNoteAnomaly_keeps frozen
  · have full : 33 ≤ len := Nat.not_lt.mp short
    cases valid : frameValidate frame with
    | none =>
      rw [rxReceive_corrupt a cycle full ((frameValidate_none frame).mp valid)]
      simp only [capRecord_keeps frozen, capNoteAnomaly_keeps frozen]
    | some out =>
      rw [rxReceive_valid a cycle full valid]
      exact capRecord_keeps frozen .rx frame true a.lastCsGapUs cycle

theorem step_keeps {a : Adapter} (frozen : a.cap.frozen = true) (c : Call)
    (kept : c.op ≠ .capStart) :
    (step a c).1.cap.frozen = true ∧ (step a c).1.cap.toRing = a.cap.toRing := by
  unfold step
  cases called : c.op with
  | txAcquire =>
    obtain ⟨frame, same⟩ := txAcquire_cap a c.now c.cycle
    rw [capRecord_keeps frozen] at same
    simp only [same, frozen, and_self]
  | rxSubmit frame len => simp only [rxSubmit_keeps frozen, frozen, and_self]
  | rxWork => simp only [rxWorkHandler, rxWorkLoop_cap, frozen, and_self]
  | capStart => exact absurd called kept
  -- freezing again changes nothing
  | capFreeze => exact ⟨rfl, rfl⟩
  | _ => exact ⟨frozen, rfl⟩

private theorem final_keeps {a : Adapter} (frozen : a.cap.frozen = true) (later : List Call)
    (kept : ∀ c ∈ later, c.op ≠ .capStart) :
    (final step a later).cap.frozen = true ∧ (final step a later).cap.toRing = a.cap.toRing := by
  refine final_invariant step
    (I := fun b => b.cap.frozen = true ∧ b.cap.toRing = a.cap.toRing) ⟨frozen, rfl⟩ ?_ later kept
  rintro b c last ⟨still, same⟩
  obtain ⟨next, equal⟩ := step_keeps still c last
  exact ⟨next, equal.trans same⟩

/-! ### Open -/

/-- Armed, not frozen, and the next anomaly will freeze it. -/
structure Watching (c : Capture) : Prop where
  ready : c.Open
  enabled : c.freezeOnAnomaly = true

/-- A call that neither closes the gates nor reports an anomaly. -/
def Calm : Op → Prop
  | .capStop => False
  | .capFreeze => False
  | .capFreezeOnAnomaly en => en = true
  | .rxSubmit frame len => 33 ≤ len ∧ Sealed frame
  | _ => True

instance : DecidablePred Calm
  | .capStop => inferInstanceAs (Decidable False)
  | .capFreeze => inferInstanceAs (Decidable False)
  | .capFreezeOnAnomaly en => inferInstanceAs (Decidable (en = true))
  | .rxSubmit frame len => inferInstanceAs (Decidable (33 ≤ len ∧ Sealed frame))
  | .identitySet _ | .snapshotPublish _ | .txAcquire | .rxWork | .noteCsGap _ | .noteRearmMiss
  | .statsReset | .framesSnapshot | .capStart => inferInstanceAs (Decidable True)

private theorem capRecord_watching {c : Capture} (watching : Watching c) (dir : CapDir)
    (frame : Frame) (crcOk : Bool) (csGapUs cycle : U32) :
    Watching (capRecord c dir frame crcOk csGapUs cycle) := by
  constructor
  · simpa only [Capture.Open, capRecord_armed, capRecord_frozen] using watching.ready
  · simpa only [capRecord_freezeOnAnomaly] using watching.enabled

private theorem capNoteAnomaly_watching {c : Capture} (watching : Watching c) :
    (capNoteAnomaly c).frozen = true := by
  simp [capNoteAnomaly, watching.ready.1, watching.enabled]

theorem step_calm {a : Adapter} (watching : Watching a.cap) (c : Call)
    (calm : Calm c.op) : Watching (step a c).1.cap := by
  unfold step
  cases called : c.op with
  | txAcquire =>
    obtain ⟨frame, same⟩ := txAcquire_cap a c.now c.cycle
    simp only [same]
    exact capRecord_watching watching .tx frame true a.lastCsGapUs c.cycle
  | rxSubmit frame len =>
    rw [called] at calm
    obtain ⟨out, valid⟩ := Option.isSome_iff_exists.mp ((frameValidate_isSome frame).mpr calm.2)
    simp only [rxSubmit_cap, rxReceive_valid a c.cycle calm.1 valid]
    exact capRecord_watching watching .rx frame true a.lastCsGapUs c.cycle
  | rxWork => simpa only [rxWorkHandler, rxWorkLoop_cap] using watching
  -- starting again leaves the anomaly gate alone
  | capStart => exact ⟨⟨rfl, rfl⟩, watching.enabled⟩
  | capFreezeOnAnomaly en =>
    rw [called] at calm
    exact ⟨watching.ready, calm⟩
  | capStop =>
    rw [called] at calm
    exact calm.elim
  | capFreeze =>
    rw [called] at calm
    exact calm.elim
  | _ => exact watching

private theorem final_calm {a : Adapter} (watching : Watching a.cap) (later : List Call)
    (calm : ∀ c ∈ later, Calm c.op) : Watching (final step a later).cap :=
  final_invariant step (I := fun b => Watching b.cap) watching
    (fun _ c last still => step_calm still c last) later calm

theorem rxSubmit_corrupt_freezes {a : Adapter} (watching : Watching a.cap) {frame : Frame}
    {len : ℕ} (full : 33 ≤ len) (corrupt : ¬ Sealed frame) (cycle : U32) :
    (rxSubmit a frame len cycle).cap.frozen = true ∧
      (rxSubmit a frame len cycle).cap.toRing =
        a.cap.toRing.append (capEntry .rx frame false a.lastCsGapUs cycle) := by
  rw [rxSubmit_cap, rxReceive_corrupt a cycle full corrupt]
  refine ⟨capNoteAnomaly_watching (capRecord_watching watching .rx frame false _ cycle), ?_⟩
  rw [capNoteAnomaly_toRing, capRecord_open watching.ready]

theorem rxSubmit_short_freezes {a : Adapter} (watching : Watching a.cap) (frame : Frame)
    {len : ℕ} (short : len < 33) (cycle : U32) :
    (rxSubmit a frame len cycle).cap.frozen = true ∧
      (rxSubmit a frame len cycle).cap.toRing = a.cap.toRing := by
  rw [rxSubmit_cap, rxReceive_short a cycle short]
  exact ⟨capNoteAnomaly_watching watching, capNoteAnomaly_toRing a.cap⟩

/-- **Post-mortem freeze**, from any state of the adapter. A frozen ring keeps its
entries and count under any calls other than `rimlink_cap_start`. A watching ring
stays so under calm calls, after which a corrupt frame freezes it as its newest
entry and a short one freezes it with nothing written. -/
theorem capture_post_mortem (a : Adapter) :
    (a.cap.frozen = true → ∀ later : List Call, (∀ c ∈ later, c.op ≠ .capStart) →
      (final step a later).cap.frozen = true ∧
        (final step a later).cap.ring = a.cap.ring ∧ (final step a later).cap.wr = a.cap.wr) ∧
    (Watching a.cap → ∀ later : List Call, (∀ c ∈ later, Calm c.op) →
      let b := final step a later
      Watching b.cap ∧
      (∀ frame len cycle, 33 ≤ len → ¬ Sealed frame →
        let d := rxSubmit b frame len cycle
        d.cap.frozen = true ∧ d.cap.wr = b.cap.wr + 1 ∧
          ∃ e : CapEntry, e.frame = frame ∧ e.dir = .rx ∧ e.crcOk = 0 ∧
            d.cap.ring = Function.update b.cap.ring (Ring.slot capDepth b.cap.wr) e) ∧
      (∀ frame len cycle, len < 33 →
        let d := rxSubmit b frame len cycle
        d.cap.frozen = true ∧ d.cap.ring = b.cap.ring ∧ d.cap.wr = b.cap.wr)) := by
  constructor
  · intro frozen later kept
    obtain ⟨still, same⟩ := final_keeps frozen later kept
    exact ⟨still, congrArg (fun r => r.ring) same, congrArg (fun r => r.wr) same⟩
  · intro watching later calm b
    have open_ : Watching b.cap := final_calm watching later calm
    -- the ring still watches after the calm calls, so the next anomaly freezes it
    refine ⟨open_, fun frame len cycle full corrupt => ?_, fun frame len cycle short => ?_⟩
    · obtain ⟨frozen, written⟩ := rxSubmit_corrupt_freezes open_ full corrupt cycle
      exact ⟨frozen, congrArg (fun r => r.wr) written,
        capEntry .rx frame false b.lastCsGapUs cycle, rfl, rfl, rfl,
        congrArg (fun r => r.ring) written⟩
    · obtain ⟨frozen, same⟩ := rxSubmit_short_freezes open_ frame short cycle
      exact ⟨frozen, congrArg (fun r => r.ring) same, congrArg (fun r => r.wr) same⟩

/-- An acquire and a valid frame with the ring started, then a corrupt frame, then
one more acquire. -/
theorem capture_post_mortem_run :
    let a := final step (init (.boot 3) (some true) 0) [⟨.capStart, 0, 0⟩]
    let calm : List Call := [⟨.txAcquire, 1, 0⟩, ⟨.rxSubmit (frameBuildId .neutral 3) 33, 2, 0⟩]
    let d := rxSubmit (final step a calm) (fun _ => 0) 33 0
    d.cap.frozen = true ∧ (final step d [⟨.txAcquire, 4, 0⟩]).cap.wr = d.cap.wr := by
  intro a calm
  have allCalm : ∀ c ∈ calm, Calm c.op := by decide +kernel
  have corrupt : ¬ Sealed fun _ => 0 := by decide +kernel
  have watched := (capture_post_mortem a).2 ⟨⟨rfl, rfl⟩, rfl⟩ calm allCalm
  have frozen := (watched.2.1 (fun _ => 0) 33 0 (Nat.le_refl 33) corrupt).1
  exact ⟨frozen, ((capture_post_mortem _).1 frozen [⟨.txAcquire, 4, 0⟩] (by decide)).2.2⟩

end FanatecWheel.Rimlink
