import FanatecWheel.Foundation.Trace
import FanatecWheel.Rimlink.Link

/-!
# The receive hand-off, one kernel operation at a time

`rimlink_rx_submit` runs in the link thread and `rx_work_handler` in the system
workqueue, and either may be interrupted before each of its message-queue and
work-queue operations. The machine interleaves the two with the other calls of
the adapter and with the other work items, and records what was submitted, taken
from the queue and passed to the callback.
-/

namespace FanatecWheel.Rimlink

open Foundation

/-- Where a call of `rimlink_rx_submit` stands: the operation it makes next. -/
inductive SubmitPc
  | idle
  | put (out : BaseOutputs)
  | dropOldest (out : BaseOutputs)
  | putAgain (out : BaseOutputs)
  | submitWork
deriving DecidableEq

/-- Where `rx_work_handler` stands. `returning` is after a `k_msgq_get` that found
the queue empty, before the workqueue sees the handler return. -/
inductive HandlerPc
  | notRunning
  | get
  | callback (out : BaseOutputs)
  | returning
deriving DecidableEq

/-- The adapter with the progress of its two threads. -/
structure RxSys where
  adapter : Adapter
  submit : SubmitPc
  handler : HandlerPc

/-- What a step of the hand-off is seen to do. -/
inductive RxEvent
  | submitted (frame : Frame) (len : ℕ)
  | overran
  | returned
  | took (out : BaseOutputs)
  | passed (out : BaseOutputs)
  | reset
  | silent
deriving DecidableEq

namespace RxEvent

/-- The message the handler took. -/
def tookOut : RxEvent → Option BaseOutputs
  | took out => some out
  | _ => none

/-- The message passed to the callback. -/
def passedOut : RxEvent → Option BaseOutputs
  | passed out => some out
  | _ => none

/-- The decoding of a submitted frame that is long enough and passes its CRC. -/
def validOut : RxEvent → Option BaseOutputs
  | submitted frame len => if len < 33 then none else frameValidate frame
  | _ => none

def isCall : RxEvent → Bool
  | submitted _ _ => true
  | _ => false

def isFull : RxEvent → Bool
  | submitted _ len => decide (33 ≤ len)
  | _ => false

def isShort : RxEvent → Bool
  | submitted _ len => decide (len < 33)
  | _ => false

def isCorrupt : RxEvent → Bool
  | submitted frame len => decide (33 ≤ len ∧ ¬ Sealed frame)
  | _ => false

end RxEvent

/-- Who moves: the link thread, the workqueue thread, or somebody else. -/
inductive RxAct
  | call (frame : Frame) (len : ℕ) (cycle : U32)
  | submitStep
  | beginWork
  | handlerStep
  | otherReturn
  | otherSubmit (item : Work)
  | otherCall (c : Call)

namespace RxSys

variable (s : RxSys)

/-- `rimlink_rx_submit` up to its first operation on the message queue. -/
def call (frame : Frame) (len : ℕ) (cycle : U32) : RxSys :=
  let received := rxReceive s.adapter frame len cycle
  { s with
    adapter := received.1
    submit := match received.2 with
      | none => .idle
      | some out => .put out }

/-- The next operation of the call in progress. -/
def submitStep : Option (RxSys × RxEvent) :=
  match s.submit with
  | .idle => none
  | .put out =>
    match s.adapter.msgq.put out with
    | some q => some ({ s with adapter.msgq := q, submit := .submitWork }, .silent)
    -- full: the handler may still drain the queue before the drop
    | none => some ({ s with submit := .dropOldest out }, .silent)
  | .dropOldest out =>
    -- `k_msgq_get` with its result ignored, so an empty queue stays as it is
    let rest := (s.adapter.msgq.get.map Prod.snd).getD s.adapter.msgq
    some ({ s with adapter.msgq := rest, submit := .putAgain out }, .silent)
  | .putAgain out =>
    -- the second put is not checked, and the overrun is counted after it
    some ({ s with
      adapter.msgq := (s.adapter.msgq.put out).getD s.adapter.msgq
      adapter.lnk.stats.overrun := s.adapter.lnk.stats.overrun + 1
      submit := .submitWork }, .overran)
  | .submitWork =>
    some ({ s with adapter.workq := s.adapter.workq.submit .rimlinkRx, submit := .idle },
      .returned)

/-- The workqueue thread takes up the item that waited longest. -/
def beginWork : Option (RxSys × RxEvent) :=
  s.adapter.workq.begin.map fun (item, q) =>
    ({ s with
      adapter.workq := q
      handler := if item = .rimlinkRx then .get else s.handler }, .silent)

/-- The next operation of `rx_work_handler`. -/
def handlerStep : Option (RxSys × RxEvent) :=
  match s.handler with
  | .notRunning => none
  | .get =>
    match s.adapter.msgq.get with
    | some (out, q) => some ({ s with adapter.msgq := q, handler := .callback out }, .took out)
    | none => some ({ s with handler := .returning }, .silent)
  | .callback out =>
    some ({ s with handler := .get }, if s.adapter.lnk.hasRxCb then .passed out else .silent)
  | .returning =>
    some ({ s with adapter.workq := s.adapter.workq.finish, handler := .notRunning }, .silent)

/-- The handler of another item returns. -/
def otherReturn : Option (RxSys × RxEvent) :=
  match s.adapter.workq.running with
  | none | some .rimlinkRx => none
  | some _ => some ({ s with adapter.workq := s.adapter.workq.finish }, .silent)

/-- Another service submits its own item. -/
def otherSubmit (item : Work) : Option (RxSys × RxEvent) :=
  if item = .rimlinkRx then none
  else some ({ s with adapter.workq := s.adapter.workq.submit item }, .silent)

/-- A call of the adapter other than the two this machine takes apart. -/
def otherCall (c : Call) : Option (RxSys × RxEvent) :=
  match c.op with
  | .rxSubmit _ _ | .rxWork => none
  | .statsReset => some ({ s with adapter := (Rimlink.step s.adapter c).1 }, .reset)
  | _ => some ({ s with adapter := (Rimlink.step s.adapter c).1 }, .silent)

def step : RxAct → Option (RxSys × RxEvent)
  | .call frame len cycle =>
    if s.submit = .idle then some (s.call frame len cycle, .submitted frame len) else none
  | .submitStep => s.submitStep
  | .beginWork => s.beginWork
  | .handlerStep => s.handlerStep
  | .otherReturn => s.otherReturn
  | .otherSubmit item => s.otherSubmit item
  | .otherCall c => s.otherCall c

/-- After `rimlink_init` with a callback, as `main` calls it. -/
def boot (id : RimId) (now : ℤ) : RxSys where
  adapter := init (.boot id) (some true) now
  submit := .idle
  handler := .notRunning

end RxSys

/-- The hand-off from boot on. -/
def rxMachine (id : RimId) (now : ℤ) : Machine RxSys RxAct RxEvent where
  start := .boot id now
  step := RxSys.step

/-! ### What a step does to the workqueue -/

/-- The workqueue side of a step: what becomes of the work items, of the handler,
and who passes a message on. -/
inductive WorkMove (s t : RxSys) : RxAct → RxEvent → Prop
  | same {act : RxAct} {e : RxEvent} :
      t.adapter.workq = s.adapter.workq →
      (t.handler = .notRunning ↔ s.handler = .notRunning) →
      (∀ out, e = .passed out → s.handler = .callback out) → WorkMove s t act e
  | ownSubmit :
      s.submit = .submitWork → t.adapter.workq = s.adapter.workq.submit .rimlinkRx →
      t.handler = s.handler → WorkMove s t .submitStep .returned
  | otherSubmit {item : Work} :
      item ≠ .rimlinkRx → t.adapter.workq = s.adapter.workq.submit item →
      t.handler = s.handler → WorkMove s t (.otherSubmit item) .silent
  | ownBegin :
      s.adapter.workq.begin = some (.rimlinkRx, t.adapter.workq) →
      t.handler = .get → WorkMove s t .beginWork .silent
  | otherBegin {item : Work} :
      item ≠ .rimlinkRx → s.adapter.workq.begin = some (item, t.adapter.workq) →
      t.handler = s.handler → WorkMove s t .beginWork .silent
  | ownReturn :
      s.handler = .returning → t.adapter.workq = s.adapter.workq.finish →
      t.handler = .notRunning → WorkMove s t .handlerStep .silent
  | otherReturn {item : Work} :
      item ≠ .rimlinkRx → s.adapter.workq.running = some item →
      t.adapter.workq = s.adapter.workq.finish → t.handler = s.handler →
      WorkMove s t .otherReturn .silent

theorem step_workMove {s t : RxSys} {act : RxAct} {e : RxEvent}
    (stepped : s.step act = some (t, e)) : WorkMove s t act e := by
  cases act with
  | call frame len cycle =>
    simp only [RxSys.step, Option.ite_none_right_eq_some, Option.some.injEq,
      Prod.mk.injEq] at stepped
    obtain ⟨-, rfl, rfl⟩ := stepped
    exact .same (rxReceive_queues s.adapter cycle frame len).2.1 Iff.rfl nofun
  | submitStep =>
    simp only [RxSys.step, RxSys.submitStep] at stepped
    split at stepped
    · cases stepped
    · split at stepped <;> cases stepped <;> exact .same rfl Iff.rfl nofun
    · cases stepped
      exact .same rfl Iff.rfl nofun
    · cases stepped
      exact .same rfl Iff.rfl nofun
    next pc =>
      cases stepped
      exact .ownSubmit pc rfl rfl
  | beginWork =>
    simp only [RxSys.step, RxSys.beginWork, Option.map_eq_some_iff, Prod.mk.injEq] at stepped
    obtain ⟨⟨item, q⟩, started, rfl, rfl⟩ := stepped
    -- the item taken up is the receive work or another service's
    by_cases ours : item = .rimlinkRx
    · subst ours
      exact .ownBegin started rfl
    · exact .otherBegin ours started (if_neg ours)
  | handlerStep =>
    simp only [RxSys.step, RxSys.handlerStep] at stepped
    split at stepped
    · cases stepped
    next pc =>
      split at stepped <;> cases stepped <;> exact .same rfl (by simp [pc]) nofun
    next out pc =>
      cases stepped
      -- only the callback step passes a message on, and only with a callback set
      refine .same rfl (by simp [pc]) fun passed same => ?_
      split at same <;> cases same
      exact pc
    next pc =>
      cases stepped
      exact .ownReturn pc rfl rfl
  | otherReturn =>
    simp only [RxSys.step, RxSys.otherReturn] at stepped
    split at stepped
    · cases stepped
    · cases stepped
    next item other running =>
      cases stepped
      exact .otherReturn (fun same => other (by rw [same])) running rfl rfl
  | otherSubmit item =>
    simp only [RxSys.step, RxSys.otherSubmit, Option.ite_none_left_eq_some, Option.some.injEq,
      Prod.mk.injEq] at stepped
    obtain ⟨other, rfl, rfl⟩ := stepped
    exact .otherSubmit other rfl rfl
  | otherCall c =>
    simp only [RxSys.step, RxSys.otherCall] at stepped
    split at stepped
    · cases stepped
    · cases stepped
    next reset =>
      cases stepped
      exact .same (by simp only [Rimlink.step, reset, statsReset]) Iff.rfl nofun
    next receive work reset =>
      cases stepped
      exact .same (congrArg RxSide.workq (step_rxSide s.adapter c receive work reset)) Iff.rfl nofun

/-! ### The whole calls are the operations in a row -/

section WholeCalls

variable (id : RimId) (boot : ℤ) (s : RxSys)

/-- A call of `rimlink_rx_submit` whose operations are not interrupted is the
atomic call. -/
theorem run_rxSubmit (idle : s.submit = .idle) (frame : Frame) (len : ℕ) (cycle : U32) :
    ∃ n events, (rxMachine id boot).run s
        (.call frame len cycle :: List.replicate n .submitStep) =
      some ({ s with adapter := rxSubmit s.adapter frame len cycle }, events) := by
  obtain ⟨a, pc, handler⟩ := s
  subst idle
  unfold rxSubmit
  cases received : rxReceive a frame len cycle with
  | mk b handed =>
    cases handed with
    | none =>
      -- discarded: nothing follows the classification
      refine ⟨0, [.submitted frame len], ?_⟩
      simp [Machine.run, Machine.runBy, rxMachine, RxSys.step, RxSys.call, received]
    | some out =>
      cases accepted : b.msgq.put out with
      | some q =>
        -- put, submit the work
        refine ⟨2, [.submitted frame len, .silent, .returned], ?_⟩
        simp [Machine.run, Machine.runBy, rxMachine, RxSys.step, RxSys.call, RxSys.submitStep,
          received, accepted, List.replicate]
      | none =>
        -- refused put, drop, put, submit the work
        refine ⟨4, [.submitted frame len, .silent, .silent, .overran, .returned], ?_⟩
        simp [Machine.run, Machine.runBy, rxMachine, RxSys.step, RxSys.call, RxSys.submitStep,
          received, accepted, List.replicate]

/-- The handler, uninterrupted, takes every message, passes each to the callback
and returns. -/
theorem run_rxWorkLoop (turns : ℕ) (enough : s.adapter.msgq.items.length < turns)
    (started : s.handler = .get) :
    ∃ n events, (rxMachine id boot).run s (List.replicate n .handlerStep) =
        some ({ s with
          adapter := { (rxWorkLoop turns s.adapter).1 with workq := s.adapter.workq.finish }
          handler := .notRunning }, events) ∧
      events.filterMap RxEvent.tookOut = (rxWorkLoop turns s.adapter).2 := by
  induction turns generalizing s with
  | zero => omega
  | succ turns ih =>
    obtain ⟨a, pc, handler⟩ := s
    subst started
    unfold rxWorkLoop
    cases taken : a.msgq.get with
    | none =>
      -- the turn that finds the queue empty, then the return
      refine ⟨2, [.silent, .silent], ?_, rfl⟩
      simp [Machine.run, Machine.runBy, rxMachine, RxSys.step, RxSys.handlerStep, taken,
        List.replicate]
    | some message =>
      obtain ⟨out, q⟩ := message
      have shorter := congrArg List.length (MsgQ.items_of_get taken)
      rw [List.length_cons] at shorter
      -- one message taken and passed on; the rest is the run on the shorter queue
      obtain ⟨n, events, ran, took⟩ := ih ⟨{ a with msgq := q }, pc, .get⟩
        (by simp only at enough ⊢; omega) rfl
      refine ⟨n + 2, .took out :: (if a.lnk.hasRxCb then .passed out else .silent) :: events,
        ?_, ?_⟩
      · simp only [List.replicate_succ, Machine.run, Machine.runBy, if_true, rxMachine, RxSys.step,
          RxSys.handlerStep, taken] at ran ⊢
        rw [ran]
        rfl
      · simp only [List.filterMap_cons, took]
        cases a.lnk.hasRxCb <;> rfl

end WholeCalls

end FanatecWheel.Rimlink
