import Mathlib.Algebra.BigOperators.Group.List.Basic
import FanatecWheel.App.InputSvc
import FanatecWheel.Rimlink.TxMailbox

/-!
# Detents between the decoder and the wire

The input thread consumes the encoder delta at every tick and the link thread
takes frames at its own pace, so that a delta is an increment carried by a
latest-value mailbox. The ledger of a run says what that does: the amounts sent
are the amounts consumed, less those overwritten in the mailbox, plus those of
frames handed out again.
-/

namespace FanatecWheel.App

open Foundation Rimlink

/-- The input thread and the link it publishes to. -/
structure DetentPath where
  input : InputSvc
  link : Adapter

/-- A tick with its samples, or an acquire of the link thread. -/
inductive PathAct
  | tick (samples : Samples) (now : ℤ)
  | acquire (now : ℤ) (cycle : U32)

/-- The delta consumed by a tick, or the frame handed to the transfer. -/
inductive PathEvent
  | consumed (delta : I8)
  | sent (frame : Frame)

/-- `rimlink_snapshot_publish` when the tick has something to publish. -/
def publishIfSome (a : Adapter) (published : Option RimInputs) (now : ℤ) : Adapter :=
  match published with
  | some snap => snapshotPublish a snap now
  | none => a

def pathStep (s : DetentPath) : PathAct → DetentPath × PathEvent
  | .tick samples now =>
    let ticked := inputTick s.input samples
    (⟨ticked.1, publishIfSome s.link ticked.2 now⟩, .consumed (consumedDelta s.input samples))
  | .acquire now cycle =>
    let acquired := txAcquire s.link now cycle
    ({ s with link := acquired.1 }, .sent (acquired.1.lnk.buf acquired.2))

/-- The signed encoder byte of a frame. -/
def encoderByte (frame : Frame) : ℤ := (frame offEncoder).toInt

def PathEvent.consumedDetents : PathEvent → ℤ
  | .consumed delta => delta.toInt
  | .sent _ => 0

def PathEvent.sentDetents : PathEvent → ℤ
  | .consumed _ => 0
  | .sent frame => encoderByte frame

/-- The sum of the deltas consumed over all ticks. -/
def consumedTotal (events : List PathEvent) : ℤ := (events.map PathEvent.consumedDetents).sum

/-- The sum of the encoder bytes over all frames acquired. -/
def sentTotal (events : List PathEvent) : ℤ := (events.map PathEvent.sentDetents).sum

/-! ### The ledger -/

/-- The detents of the snapshot that no acquire has taken. -/
def waitingDetents (s : DetentPath) : ℤ := s.link.toTx.waiting encoderByte

/-- What a step adds to the detents on their way: a publish drops those that
wait, an acquire that finds nothing new sends the last frame again unless the
stale-input rule replaces it. -/
def drift (s : DetentPath) : PathAct → ℤ
  | .tick samples _ => if (inputTick s.input samples).2.isSome then -waitingDetents s else 0
  | .acquire now _ =>
    if s.link.toTx.pending = none ∧ s.link.toTx.Stale now then 0
    else s.link.toTx.repeated encoderByte

/-- The sum of the drifts of a run. -/
def driftTotal : DetentPath → List PathAct → ℤ
  | _, [] => 0
  | s, act :: rest => drift s act + driftTotal (pathStep s act).1 rest

theorem encoderByte_build (inp : RimInputs) (id : RimId) :
    encoderByte (frameBuildId inp id) = inp.encoder.toInt := by
  rw [encoderByte, frameBuildId_encoder]

private theorem waiting_publishIfSome (a : Adapter) (published : Option RimInputs) (now : ℤ) :
    (publishIfSome a published now).toTx.waiting encoderByte =
      published.elim (a.toTx.waiting encoderByte) fun snap => snap.encoder.toInt := by
  cases published with
  | none => rfl
  | some snap =>
    rw [publishIfSome, toTx_snapshotPublish]
    exact encoderByte_build snap a.currentId

private theorem tick_ledger (s : DetentPath) (samples : Samples) (now : ℤ) :
    waitingDetents (pathStep s (.tick samples now)).1 =
      waitingDetents s + (consumedDelta s.input samples).toInt + drift s (.tick samples now) := by
  have posted := waiting_publishIfSome s.link (inputTick s.input samples).2 now
  simp only [pathStep, waitingDetents, drift, posted]
  cases published : (inputTick s.input samples).2 with
  -- a silent tick consumed nothing, and leaves the mailbox alone
  | none => simp [inputTick_silent published]
  | some snap =>
    -- the new delta waits now; the drift takes out what waited before
    rw [inputTick_published published, ← inputCompose_encoder]
    simp

private theorem acquire_ledger (m : TxMailbox) (now : ℤ) :
    encoderByte (m.acquire now).current = m.waiting encoderByte +
      (if m.pending = none ∧ m.Stale now then 0 else m.repeated encoderByte) ∧
    (m.acquire now).waiting encoderByte = 0 := by
  have handed := m.amount_take encoderByte
  have emptied := m.waiting_take encoderByte
  unfold TxMailbox.acquire
  split
  next frame posted =>
    -- what waited is sent
    simp only [posted, reduceCtorEq, false_and, if_false]
    exact ⟨handed, emptied⟩
  next empty =>
    have none_waits : m.waiting encoderByte = 0 := by
      simp only [Mailbox.waiting, empty, Option.elim_none]
    split
    next stale =>
      simp only [empty, stale, and_self, if_true, none_waits, add_zero]
      -- the neutral frame sends no detent
      refine ⟨encoderByte_build .neutral m.identity, ?_⟩
      simp only [Mailbox.waiting, Mailbox.replace, empty, Option.elim_none]
    next fed =>
      -- the last frame goes out once more
      refine ⟨?_, none_waits⟩
      simp only [fed, and_false, if_false, none_waits, zero_add, Mailbox.repeated, empty,
        Option.elim_none]

/-- One step of the ledger. -/
private theorem step_ledger (s : DetentPath) (act : PathAct) :
    (pathStep s act).2.sentDetents + waitingDetents (pathStep s act).1 =
      waitingDetents s + (pathStep s act).2.consumedDetents + drift s act := by
  cases act with
  | tick samples now =>
    have waits := tick_ledger s samples now
    simp only [pathStep, PathEvent.sentDetents, PathEvent.consumedDetents] at waits ⊢
    rw [waits, zero_add]
  | acquire now cycle =>
    obtain ⟨handed, emptied⟩ := acquire_ledger s.link.toTx now
    have moved := toTx_txAcquire s.link now cycle
    have sent : encoderByte ((txAcquire s.link now cycle).1.lnk.buf
        (txAcquire s.link now cycle).2) = encoderByte (s.link.toTx.acquire now).current := by
      rw [← moved]
      rfl
    simp only [pathStep, PathEvent.sentDetents, PathEvent.consumedDetents, waitingDetents, drift,
      sent, moved, handed, emptied, add_zero]

/-- **The ledger.** Over every run, what was sent and what still waits is what
waited at the start and what was consumed, up to the drift. -/
theorem detent_ledger (s : DetentPath) (acts : List PathAct) :
    sentTotal (trace pathStep s acts) + waitingDetents (final pathStep s acts) =
      waitingDetents s + consumedTotal (trace pathStep s acts) + driftTotal s acts := by
  induction acts generalizing s with
  | nil => simp [sentTotal, consumedTotal, driftTotal, trace, final]
  | cons act rest ih =>
    have first := step_ledger s act
    have later := ih (pathStep s act).1
    simp only [sentTotal, consumedTotal, driftTotal, trace, List.map_cons, List.sum_cons] at later ⊢
    have same : final pathStep s (act :: rest) = final pathStep (pathStep s act).1 rest := rfl
    rw [same]
    omega

/-! ### Delivery -/

/-- A publishing tick finds no untaken snapshot with a detent in it, and an
acquire that finds no new snapshot does not send a detent again: the stale-input
rule replaces the frame, or its encoder byte is zero. -/
def Delivering (s : DetentPath) : PathAct → Prop
  | .tick samples _ => (inputTick s.input samples).2.isSome → waitingDetents s = 0
  | .acquire now _ => s.link.toTx.pending = none → ¬ s.link.toTx.Stale now →
      encoderByte (armedFrame s.link) = 0

private theorem delivering_drift {s : DetentPath} {act : PathAct} (kept : Delivering s act) :
    drift s act = 0 := by
  cases act with
  | tick samples now =>
    simp only [drift]
    split
    next published => simp only [kept published, neg_zero]
    · rfl
  | acquire now cycle =>
    simp only [drift]
    split
    · rfl
    next fed =>
      cases waits : s.link.toTx.pending with
      | some frame => simp only [Mailbox.repeated, waits, Option.elim_some]
      | none =>
        -- nothing new and not stale: the step delivers only if the frame is at rest
        have quiet := kept waits fun stale => fed ⟨waits, stale⟩
        simp only [Mailbox.repeated, waits, Option.elim_none]
        exact quiet

private theorem delivering_driftTotal {s : DetentPath} {acts : List PathAct}
    (kept : Along pathStep Delivering s acts) : driftTotal s acts = 0 := by
  induction acts generalizing s with
  | nil => rfl
  | cons act rest ih =>
    rw [driftTotal, delivering_drift kept.1, ih kept.2, add_zero]

/-- **Detent delivery.** After `rimlink_init`, in every run whose steps all
deliver, the encoder bytes acquired up to an acquire that follows the last tick
add up to the deltas consumed. -/
theorem detents_delivered (input : InputSvc) (id : RimId) (cfg : Option Bool) (t0 : ℤ)
    (past : List PathAct) (now : ℤ) (cycle : U32)
    (delivering : Along pathStep Delivering ⟨input, init (.boot id) cfg t0⟩
      (past ++ [.acquire now cycle])) :
    let events := trace pathStep ⟨input, init (.boot id) cfg t0⟩ (past ++ [.acquire now cycle])
    sentTotal events = consumedTotal events := by
  intro events
  have ledger := detent_ledger ⟨input, init (.boot id) cfg t0⟩ (past ++ [.acquire now cycle])
  have nothing : waitingDetents ⟨input, init (.boot id) cfg t0⟩ = 0 := by
    rw [waitingDetents, toTx_init]
    rfl
  have emptied : waitingDetents (final pathStep ⟨input, init (.boot id) cfg t0⟩
      (past ++ [.acquire now cycle])) = 0 := by
    rw [final_snoc]
    simp only [pathStep, waitingDetents, toTx_txAcquire]
    exact (acquire_ledger _ now).2
  rw [delivering_driftTotal delivering, nothing, emptied, add_zero, add_zero, zero_add] at ledger
  exact ledger

instance (s : DetentPath) (act : PathAct) : Decidable (Delivering s act) :=
  match act with
  | .tick _ _ => inferInstanceAs (Decidable (_ → _))
  | .acquire _ _ => inferInstanceAs (Decidable (_ → _ → _))

/-- A tick in which only the lines of the first encoder are driven. -/
def encoderOnly (a b : Bool) : Samples where
  buttons := fun _ => false
  dpadAdc := none
  encAb := fun i => if i = 0 then ⟨a, b⟩ else ⟨false, false⟩
  fk := fun _ => false
  clutchAdc := fun _ => none
  t0 := 0
  t1 := 0

/-- One detent clockwise, with an acquire after every tick. -/
theorem detents_delivered_run :
    let acts : List PathAct := [.tick (encoderOnly true false) 1, .acquire 1 0,
      .tick (encoderOnly true true) 2, .acquire 2 0, .tick (encoderOnly false true) 3,
      .acquire 3 0, .tick (encoderOnly false false) 4]
    let events := trace pathStep
      ⟨inputSvcInit .default fun _ => ⟨false, false⟩, init (.boot 3) (some true) 0⟩
      (acts ++ [.acquire 4 0])
    sentTotal events = consumedTotal events :=
  detents_delivered _ 3 (some true) 0 _ 4 0 (by decide +kernel)

/-- The same detent with one more tick before the first acquire: it is consumed
and never sent. -/
theorem detent_lost :
    let acts : List PathAct := [.tick (encoderOnly true false) 1,
      .tick (encoderOnly true true) 2, .tick (encoderOnly false true) 3,
      .tick (encoderOnly false false) 4, .tick (encoderOnly false false) 5]
    let events := trace pathStep
      ⟨inputSvcInit .default fun _ => ⟨false, false⟩, init (.boot 3) (some true) 0⟩
      (acts ++ [.acquire 5 0])
    consumedTotal events = 1 ∧ sentTotal events = 0 := by
  decide +kernel

end FanatecWheel.App
