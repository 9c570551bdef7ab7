import FanatecWheel.Foundation.DoubleBuffer
import FanatecWheel.Foundation.Queue
import FanatecWheel.Rimlink.Capture

/-!
# Link state of the adapter

`lib/rimlink/rimlink_link.c`: the TX double buffer with its freshness flag and
the stale-input rule, the receive path with its message queue and work item, and
the statistics. Names drop the prefix `rimlink_`. Every function here is one
call; `Rimlink.Handoff` takes the receive path apart into its kernel operations.

Uptime is an integer number of milliseconds and is passed to the calls that read
the clock, as is the cycle count of the calls that time-stamp a capture entry.
-/

namespace FanatecWheel.Rimlink

open Foundation

/-- `RIMLINK_STALE_MS`. -/
def staleMs : ℤ := 50

structure Stats where
  txnCount : U32
  crcErrRx : U32
  rearmMiss : U32
  shortFrame : U32
  overrun : U32
  staleClear : U32
  csGapMinUs : U32
  csGapMaxUs : U32
deriving DecidableEq

def Stats.zero : Stats := ⟨0, 0, 0, 0, 0, 0, 0, 0⟩

/-- The static `lnk`. `armed` is the index owned by the transfer; of the
configuration only whether a callback is set matters. -/
structure Lnk extends DoubleBuffer Frame where
  staleCleared : Bool
  lastPublish : ℤ
  lastRx : Frame
  stats : Stats
  hasRxCb : Bool

/-- The items of the system workqueue: the adapter's own, the deferred boot
item of `main.c`, and those of the other services. -/
inductive Work
  | rimlinkRx
  | deferredInit
  | service (tag : ℕ)
deriving DecidableEq

/-- The statics of `lib/rimlink` and the kernel objects it hands outputs to. -/
structure Adapter where
  currentId : RimId
  lnk : Lnk
  lastCsGapUs : U32
  cap : Capture
  msgq : MsgQ BaseOutputs 4
  workq : WorkQ Work

/-- Zero-initialised statics with the configured identity. -/
def Adapter.boot (id : RimId) : Adapter where
  currentId := id
  lnk := {
    buf := fun _ _ => 0
    armed := 0
    fresh := false
    staleCleared := false
    lastPublish := 0
    lastRx := fun _ => 0
    stats := .zero
    hasRxCb := false }
  lastCsGapUs := 0
  cap := .boot
  msgq := .empty
  workq := .empty

/-- `rimlink_frame_build`, with the identity in force. -/
def frameBuild (a : Adapter) (inp : RimInputs) : Frame := frameBuildId inp a.currentId

def identitySet (a : Adapter) (id : RimId) : Adapter := { a with currentId := id }

/-- `rimlink_init`: `cfg` says whether the configuration has a callback, or is
`none` for a null pointer. The frames are sealed by the identity in force. -/
def init (a : Adapter) (cfg : Option Bool) (now : ℤ) : Adapter :=
  let neutral := frameBuild a .neutral
  { a with
    lnk.hasRxCb := cfg.getD a.lnk.hasRxCb
    lnk.armed := 0
    lnk.fresh := false
    lnk.lastPublish := now
    lnk.stats.csGapMinUs := BitVec.allOnes 32
    lnk.buf := Function.update (Function.update a.lnk.buf 0 neutral) 1 neutral }

def snapshotPublish (a : Adapter) (inp : RimInputs) (now : ℤ) : Adapter :=
  let staging := 1 - a.lnk.armed
  { a with
    lnk.buf := Function.update a.lnk.buf staging (frameBuild a inp)
    lnk.fresh := true
    lnk.staleCleared := false
    lnk.lastPublish := now }

/-- The swap and the stale-input rule at the head of `rimlink_tx_acquire`. -/
def rearm (a : Adapter) (now : ℤ) : Adapter :=
  if a.lnk.fresh then
    { a with lnk.armed := 1 - a.lnk.armed, lnk.fresh := false }
  else if !a.lnk.staleCleared && staleMs < now - a.lnk.lastPublish then
    { a with
      lnk.buf := Function.update a.lnk.buf a.lnk.armed (frameBuild a .neutral)
      lnk.staleCleared := true
      lnk.stats.staleClear := a.lnk.stats.staleClear + 1 }
  else a

/-- The frame owned by the transfer. -/
def armedFrame (a : Adapter) : Frame := a.lnk.buf a.lnk.armed

/-- `rimlink_tx_acquire`, with the index of the buffer it returns. -/
def txAcquire (a : Adapter) (now : ℤ) (cycle : U32) : Adapter × Fin 2 :=
  let a := rearm a now
  ({ a with cap := capRecord a.cap .tx (armedFrame a) true a.lastCsGapUs cycle }, a.lnk.armed)

/-- `rimlink_rx_submit` up to the message queue: the outputs to hand over, or
`none` when the frame is discarded. -/
def rxReceive (a : Adapter) (frame : Frame) (len : ℕ) (cycle : U32) :
    Adapter × Option BaseOutputs :=
  if len < 33 then
    ({ a with
      lnk.stats.shortFrame := a.lnk.stats.shortFrame + 1
      cap := capNoteAnomaly a.cap }, none)
  else
    let out := frameValidate frame
    let a := { a with
      lnk.stats.txnCount := a.lnk.stats.txnCount + 1
      lnk.lastRx := frame
      cap := capRecord a.cap .rx frame out.isSome a.lastCsGapUs cycle }
    match out with
    | none =>
      ({ a with
        lnk.stats.crcErrRx := a.lnk.stats.crcErrRx + 1
        cap := capNoteAnomaly a.cap }, none)
    | some out => (a, some out)

def rxSubmit (a : Adapter) (frame : Frame) (len : ℕ) (cycle : U32) : Adapter :=
  match rxReceive a frame len cycle with
  | (a, none) => a
  | (a, some out) =>
    let a :=
      match a.msgq.put out with
      | some q => { a with msgq := q }
      | none =>
        -- queue full: drop the oldest, keep the newest
        let q := (a.msgq.get.map Prod.snd).getD a.msgq
        { a with msgq := (q.put out).getD q, lnk.stats.overrun := a.lnk.stats.overrun + 1 }
    { a with workq := a.workq.submit .rimlinkRx }

/-- The loop of `rx_work_handler`, with the outputs it took. -/
def rxWorkLoop : ℕ → Adapter → Adapter × List BaseOutputs
  | 0, a => (a, [])
  | turns + 1, a =>
    match a.msgq.get with
    | none => (a, [])
    | some (out, q) =>
      let (a, outs) := rxWorkLoop turns { a with msgq := q }
      (a, out :: outs)

/-- `rx_work_handler` run without interruption: four messages at most, and the
turn that finds the queue empty. -/
def rxWorkHandler (a : Adapter) : Adapter × List BaseOutputs := rxWorkLoop 5 a

def noteCsGap (a : Adapter) (gapUs : U32) : Adapter :=
  { a with
    lastCsGapUs := gapUs
    lnk.stats.csGapMinUs :=
      if gapUs < a.lnk.stats.csGapMinUs then gapUs else a.lnk.stats.csGapMinUs
    lnk.stats.csGapMaxUs :=
      if a.lnk.stats.csGapMaxUs < gapUs then gapUs else a.lnk.stats.csGapMaxUs }

def noteRearmMiss (a : Adapter) : Adapter :=
  { a with lnk.stats.rearmMiss := a.lnk.stats.rearmMiss + 1 }

def statsGet (a : Adapter) : Stats := a.lnk.stats

def statsReset (a : Adapter) : Adapter :=
  { a with lnk.stats := { Stats.zero with csGapMinUs := BitVec.allOnes 32 } }

/-- `rimlink_frames_snapshot`, both pointers given. -/
def framesSnapshot (a : Adapter) : Frame × Frame := (armedFrame a, a.lnk.lastRx)

/-- The handler changes nothing but the queue it empties. -/
theorem rxWorkLoop_frame (turns : ℕ) (a : Adapter) :
    ∃ q, (rxWorkLoop turns a).1 = { a with msgq := q } := by
  induction turns generalizing a with
  | zero => exact ⟨a.msgq, rfl⟩
  | succ turns ih =>
    unfold rxWorkLoop
    split
    · exact ⟨a.msgq, rfl⟩
    next out q taken => exact ih { a with msgq := q }

/-- With turns enough the handler takes all there is, oldest first. -/
theorem rxWorkLoop_all {turns : ℕ} {a : Adapter} (enough : a.msgq.items.length < turns) :
    (rxWorkLoop turns a).2 = a.msgq.items ∧ (rxWorkLoop turns a).1.msgq.items = [] := by
  induction turns generalizing a with
  | zero => exact absurd enough (Nat.not_lt_zero _)
  | succ turns ih =>
    unfold rxWorkLoop
    split
    next drained => exact ⟨(MsgQ.get_empty.mp drained).symm, MsgQ.get_empty.mp drained⟩
    next out q taken =>
      have items := MsgQ.items_of_get taken
      rw [items, List.length_cons] at enough
      obtain ⟨took, drained⟩ := ih (a := { a with msgq := q }) (Nat.lt_of_succ_lt_succ enough)
      exact ⟨items ▸ congrArg (out :: ·) took, drained⟩

theorem rxWorkHandler_all (a : Adapter) :
    (rxWorkHandler a).2 = a.msgq.items ∧ (rxWorkHandler a).1.msgq.items = [] :=
  rxWorkLoop_all (Nat.lt_succ_of_le a.msgq.bounded)

/-! ### What receiving does, by kind of frame -/

section Receive

variable (a : Adapter) {frame : Frame} {len : ℕ} (cycle : U32)

theorem rxReceive_short (short : len < 33) : rxReceive a frame len cycle =
    ({ a with
      lnk.stats.shortFrame := a.lnk.stats.shortFrame + 1
      cap := capNoteAnomaly a.cap }, none) := by
  rw [rxReceive, if_pos short]

theorem rxReceive_corrupt (full : 33 ≤ len) (corrupt : ¬ Sealed frame) :
    rxReceive a frame len cycle =
      ({ a with
        lnk.stats.txnCount := a.lnk.stats.txnCount + 1
        lnk.stats.crcErrRx := a.lnk.stats.crcErrRx + 1
        lnk.lastRx := frame
        cap := capNoteAnomaly (capRecord a.cap .rx frame false a.lastCsGapUs cycle) }, none) := by
  rw [rxReceive, if_neg (Nat.not_lt.mpr full)]
  simp only [(frameValidate_none frame).mpr corrupt, Option.isSome_none]

theorem rxReceive_valid (full : 33 ≤ len) {out : BaseOutputs}
    (valid : frameValidate frame = some out) :
    rxReceive a frame len cycle =
      ({ a with
        lnk.stats.txnCount := a.lnk.stats.txnCount + 1
        lnk.lastRx := frame
        cap := capRecord a.cap .rx frame true a.lastCsGapUs cycle }, some out) := by
  rw [rxReceive, if_neg (Nat.not_lt.mpr full)]
  simp only [valid, Option.isSome_some]

/-- What is done after a frame was classified: hand the outputs over, which may overrun. -/
theorem rxSubmit_handsOver (frame : Frame) (len : ℕ) :
    ∃ msgq workq overrun, rxSubmit a frame len cycle =
      { (rxReceive a frame len cycle).1 with
        msgq := msgq
        workq := workq
        lnk.stats.overrun := overrun } := by
  unfold rxSubmit
  split
  next b discarded =>
    rw [discarded]
    exact ⟨b.msgq, b.workq, b.lnk.stats.overrun, rfl⟩
  next b out received =>
    rw [received]
    dsimp only
    -- with or without room in the queue
    split <;> exact ⟨_, _, _, rfl⟩

/-- The capture ring is not touched after the frame was classified. -/
theorem rxSubmit_cap (frame : Frame) (len : ℕ) :
    (rxSubmit a frame len cycle).cap = (rxReceive a frame len cycle).1.cap := by
  obtain ⟨msgq, workq, overrun, same⟩ := rxSubmit_handsOver a cycle frame len
  rw [same]

theorem rxSubmit_counters (frame : Frame) (len : ℕ) :
    (rxSubmit a frame len cycle).lnk.stats.txnCount =
        (rxReceive a frame len cycle).1.lnk.stats.txnCount ∧
      (rxSubmit a frame len cycle).lnk.stats.shortFrame =
        (rxReceive a frame len cycle).1.lnk.stats.shortFrame ∧
      (rxSubmit a frame len cycle).lnk.stats.crcErrRx =
        (rxReceive a frame len cycle).1.lnk.stats.crcErrRx := by
  obtain ⟨msgq, workq, overrun, same⟩ := rxSubmit_handsOver a cycle frame len
  rw [same]
  exact ⟨rfl, rfl, rfl⟩

/-- Classifying a frame writes three counters, the last frame and the capture ring. -/
theorem rxReceive_frame (frame : Frame) (len : ℕ) :
    ∃ txnCount shortFrame crcErrRx lastRx cap, (rxReceive a frame len cycle).1 =
      { a with
        lnk.stats.txnCount := txnCount
        lnk.stats.shortFrame := shortFrame
        lnk.stats.crcErrRx := crcErrRx
        lnk.lastRx := lastRx
        cap := cap } := by
  unfold rxReceive
  split
  · exact ⟨_, _, _, _, _, rfl⟩
  · cases frameValidate frame <;> exact ⟨_, _, _, _, _, rfl⟩

/-- Receiving writes its counters, the last frame, the capture ring and the two
queues, and nothing of the transmit side. -/
theorem rxSubmit_frame (frame : Frame) (len : ℕ) :
    ∃ stats lastRx cap msgq workq, rxSubmit a frame len cycle =
        { a with
          lnk.stats := stats
          lnk.lastRx := lastRx
          cap := cap
          msgq := msgq
          workq := workq } ∧
      stats.staleClear = a.lnk.stats.staleClear := by
  obtain ⟨txnCount, shortFrame, crcErrRx, lastRx, cap, received⟩ :=
    rxReceive_frame a cycle frame len
  obtain ⟨msgq, workq, overrun, same⟩ := rxSubmit_handsOver a cycle frame len
  rw [same, received]
  exact ⟨_, _, _, _, _, rfl, rfl⟩

/-- What is handed over is the decoding of a frame that is long enough. -/
theorem rxReceive_out (frame : Frame) (len : ℕ) :
    (rxReceive a frame len cycle).2 = if len < 33 then none else frameValidate frame := by
  unfold rxReceive
  split
  · rfl
  · cases frameValidate frame <;> rfl

/-- Classifying a frame leaves the queues alone. -/
theorem rxReceive_queues (frame : Frame) (len : ℕ) :
    (rxReceive a frame len cycle).1.msgq = a.msgq ∧
      (rxReceive a frame len cycle).1.workq = a.workq ∧
      (rxReceive a frame len cycle).1.lnk.hasRxCb = a.lnk.hasRxCb := by
  obtain ⟨txnCount, shortFrame, crcErrRx, lastRx, cap, received⟩ :=
    rxReceive_frame a cycle frame len
  rw [received]
  exact ⟨rfl, rfl, rfl⟩

theorem rxSubmit_discards {frame : Frame} {len : ℕ}
    (discarded : (rxReceive a frame len cycle).2 = none) :
    (rxSubmit a frame len cycle).msgq = a.msgq ∧
      (rxSubmit a frame len cycle).lnk.stats.overrun = a.lnk.stats.overrun := by
  obtain ⟨txnCount, shortFrame, crcErrRx, lastRx, cap, received⟩ :=
    rxReceive_frame a cycle frame len
  unfold rxSubmit
  split
  next b classified =>
    rw [classified] at received
    subst received
    exact ⟨rfl, rfl⟩
  next b out classified =>
    rw [classified] at discarded
    cases discarded

/-- Outputs are queued as the newest, in the place of the oldest when there is no room. -/
theorem rxSubmit_queues {frame : Frame} {len : ℕ} {out : BaseOutputs}
    (handed : (rxReceive a frame len cycle).2 = some out) :
    (rxSubmit a frame len cycle).msgq.items =
        (if a.msgq.items.length < 4 then a.msgq.items else a.msgq.items.tail) ++ [out] ∧
      (rxSubmit a frame len cycle).lnk.stats.overrun =
        a.lnk.stats.overrun + if a.msgq.items.length < 4 then 0 else 1 := by
  obtain ⟨txnCount, shortFrame, crcErrRx, lastRx, cap, received⟩ :=
    rxReceive_frame a cycle frame len
  unfold rxSubmit
  split
  next b classified =>
    rw [classified] at handed
    cases handed
  next b out' classified =>
    rw [classified] at handed received
    cases handed
    subst received
    dsimp only
    split
    next q accepted =>
      have room : a.msgq.items.length < 4 := by
        by_contra full
        have refused := (MsgQ.put_full (x := out)).mpr
          (le_antisymm a.msgq.bounded (not_lt.mp full))
        rw [refused] at accepted
        cases accepted
      rw [if_pos room, if_pos room, MsgQ.items_of_put accepted]
      exact ⟨rfl, (BitVec.add_zero _).symm⟩
    next refused =>
      have full := MsgQ.put_full.mp refused
      rw [if_neg (Nat.not_lt.mpr full.ge), if_neg (Nat.not_lt.mpr full.ge)]
      refine ⟨?_, rfl⟩
      -- the oldest makes room for the newest
      obtain ⟨oldest, q, taken⟩ : ∃ oldest q, a.msgq.get = some (oldest, q) := by
        cases taken : a.msgq.get with
        | none =>
          rw [MsgQ.get_empty.mp taken] at full
          cases full
        | some pair => exact ⟨pair.1, pair.2, rfl⟩
      have items := MsgQ.items_of_get taken
      have shorter : q.items.length ≠ 4 := by
        rw [items, List.length_cons] at full
        omega
      obtain ⟨q', accepted⟩ := Option.ne_none_iff_exists'.mp
        (fun refused => shorter (MsgQ.put_full.mp refused) : q.put out ≠ none)
      simp only [taken, Option.map_some, Option.getD_some, accepted, MsgQ.items_of_put accepted,
        items, List.tail_cons]

end Receive

/-- The swap and the stale rule write the two buffers, their flags and one counter. -/
theorem rearm_frame (a : Adapter) (now : ℤ) :
    ∃ armed buf fresh staleCleared staleClear, rearm a now =
      { a with
        lnk.armed := armed
        lnk.buf := buf
        lnk.fresh := fresh
        lnk.staleCleared := staleCleared
        lnk.stats.staleClear := staleClear } := by
  unfold rearm
  split
  · exact ⟨_, _, _, _, _, rfl⟩
  · split <;> exact ⟨_, _, _, _, _, rfl⟩

/-- What the receive path shares with its consumers. -/
structure RxSide where
  msgq : MsgQ BaseOutputs 4
  workq : WorkQ Work
  hasRxCb : Bool
  txnCount : U32
  shortFrame : U32
  crcErrRx : U32
  overrun : U32

def Adapter.rxSide (a : Adapter) : RxSide where
  msgq := a.msgq
  workq := a.workq
  hasRxCb := a.lnk.hasRxCb
  txnCount := a.lnk.stats.txnCount
  shortFrame := a.lnk.stats.shortFrame
  crcErrRx := a.lnk.stats.crcErrRx
  overrun := a.lnk.stats.overrun

theorem txAcquire_rxSide (a : Adapter) (now : ℤ) (cycle : U32) :
    (txAcquire a now cycle).1.rxSide = a.rxSide := by
  obtain ⟨armed, buf, fresh, staleCleared, staleClear, same⟩ := rearm_frame a now
  rw [txAcquire, same]
  rfl

/-! ### The adapter as one component -/

/-- The entry points of the adapter and of its capture ring. -/
inductive Op
  | identitySet (id : RimId)
  | snapshotPublish (inp : RimInputs)
  | txAcquire
  | rxSubmit (frame : Frame) (len : ℕ)
  | rxWork
  | noteCsGap (gapUs : U32)
  | noteRearmMiss
  | statsReset
  | framesSnapshot
  | capStart
  | capStop
  | capFreeze
  | capFreezeOnAnomaly (en : Bool)
deriving DecidableEq

/-- A call made at an uptime and a cycle count. -/
structure Call where
  op : Op
  now : ℤ
  cycle : U32
deriving DecidableEq

/-- What a call returns. -/
inductive Reply
  | done
  | buffer (index : Fin 2)
  | frames (tx rx : Frame)
  | outputs (outs : List BaseOutputs)

def step (a : Adapter) (c : Call) : Adapter × Reply :=
  match c.op with
  | .identitySet id => (identitySet a id, .done)
  | .snapshotPublish inp => (snapshotPublish a inp c.now, .done)
  | .txAcquire =>
    let (a, index) := txAcquire a c.now c.cycle
    (a, .buffer index)
  | .rxSubmit frame len => (rxSubmit a frame len c.cycle, .done)
  | .rxWork =>
    let (a, outs) := rxWorkHandler a
    (a, .outputs outs)
  | .noteCsGap gapUs => (noteCsGap a gapUs, .done)
  | .noteRearmMiss => (noteRearmMiss a, .done)
  | .statsReset => (statsReset a, .done)
  | .framesSnapshot => (a, .frames (framesSnapshot a).1 (framesSnapshot a).2)
  | .capStart => ({ a with cap := capStart a.cap }, .done)
  | .capStop => ({ a with cap := capStop a.cap }, .done)
  | .capFreeze => ({ a with cap := capFreeze a.cap }, .done)
  | .capFreezeOnAnomaly en => ({ a with cap := capFreezeOnAnomaly a.cap en }, .done)

/-- Only receiving and the reset touch the receive side. -/
theorem step_rxSide (a : Adapter) (c : Call) (receive : ∀ frame len, c.op ≠ .rxSubmit frame len)
    (work : c.op ≠ .rxWork) (reset : c.op ≠ .statsReset) : (step a c).1.rxSide = a.rxSide := by
  unfold step
  cases called : c.op with
  | txAcquire => exact txAcquire_rxSide a c.now c.cycle
  | rxSubmit frame len => exact absurd called (receive frame len)
  | rxWork => exact absurd called work
  | statsReset => exact absurd called reset
  | _ => rfl

end FanatecWheel.Rimlink
