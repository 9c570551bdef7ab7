import FanatecWheel.Rimlink.Counters

/-!
# Nothing is lost, reordered or stranded on the receive path

Along every interleaving of the link thread, the workqueue and the rest, the
messages taken and those still queued are the submitted ones in order, less at
most one for each counted overrun; the newest one is among them when its call
returns; and a queue with something in it has a handler that will look at it.
-/

namespace FanatecWheel.Rimlink

open Foundation

/-! ### What a run has done so far -/

def tookOuts (events : List RxEvent) : List BaseOutputs := events.filterMap RxEvent.tookOut

def passedOuts (events : List RxEvent) : List BaseOutputs := events.filterMap RxEvent.passedOut

/-- The decodings of the full-length CRC-valid frames, in submission order. -/
def validOuts (events : List RxEvent) : List BaseOutputs := events.filterMap RxEvent.validOut

def overruns (events : List RxEvent) : ℕ := events.count .overran

/-- Taken by the handler, then still queued. -/
def accounted (events : List RxEvent) (s : RxSys) : List BaseOutputs :=
  tookOuts events ++ s.adapter.msgq.items

/-- The newest element of `all` is the newest of `some`, and the older ones are a
subsequence. -/
structure KeepsNewest {α : Type*} (kept all : List α) : Prop where
  last : kept.getLast? = all.getLast?
  earlier : kept.dropLast.Sublist all.dropLast

theorem KeepsNewest.sublist {α : Type*} {kept all : List α} (newest : KeepsNewest kept all) :
    kept.Sublist all := by
  rcases List.eq_nil_or_concat' kept with rfl | ⟨older, x, rfl⟩
  · exact List.nil_sublist all
  · have last := newest.last
    rw [List.getLast?_concat] at last
    obtain ⟨before, rfl⟩ := List.getLast?_eq_some_iff.mp last.symm
    have earlier := newest.earlier
    rw [List.dropLast_concat, List.dropLast_concat] at earlier
    exact earlier.append_right [x]

theorem KeepsNewest.snoc {α : Type*} {kept all : List α} (sub : kept.Sublist all) (x : α) :
    KeepsNewest (kept ++ [x]) (all ++ [x]) :=
  ⟨by simp, by simpa using sub⟩

/-- The message of the call in progress, not yet in the queue. -/
def SubmitPc.inFlight : SubmitPc → List BaseOutputs
  | .put out | .dropOldest out | .putAgain out => [out]
  | .idle | .submitWork => []

/-- A message was dropped and the overrun is not yet counted. -/
def SubmitPc.dropped : SubmitPc → ℕ
  | .putAgain _ => 1
  | _ => 0

/-- The message taken and not yet passed on. -/
def HandlerPc.inHand : HandlerPc → List BaseOutputs
  | .callback out => [out]
  | _ => []

/-- The handler will look at the queue again before it returns. -/
def HandlerPc.Looking : HandlerPc → Prop
  | .get | .callback _ => True
  | .notRunning | .returning => False

/-- The invariant of the hand-off. -/
structure HandoffInv (events : List RxEvent) (s : RxSys) : Prop where
  configured : s.adapter.lnk.hasRxCb = true
  hand : tookOuts events = passedOuts events ++ s.handler.inHand
  order : ∃ before, validOuts events = before ++ s.submit.inFlight ∧
    (accounted events s).Sublist before ∧
    before.length ≤ (accounted events s).length + overruns events + s.submit.dropped
  newest : s.submit.inFlight = [] → KeepsNewest (accounted events s) (validOuts events)
  room : s.submit.dropped = 1 → s.adapter.msgq.items.length < 4
  runs : s.handler = .notRunning ↔ s.adapter.workq.running ≠ some .rimlinkRx
  wake : s.adapter.msgq.items ≠ [] →
    s.submit = .submitWork ∨ .rimlinkRx ∈ s.adapter.workq.pending ∨ s.handler.Looking

section Steps

variable {events : List RxEvent} {s : RxSys}

@[simp] private theorem tookOuts_snoc (e : RxEvent) :
    tookOuts (events ++ [e]) = tookOuts events ++ e.tookOut.toList := by
  simp only [tookOuts, List.filterMap_append]
  cases e <;> rfl

@[simp] private theorem passedOuts_snoc (e : RxEvent) :
    passedOuts (events ++ [e]) = passedOuts events ++ e.passedOut.toList := by
  simp only [passedOuts, List.filterMap_append]
  cases e <;> rfl

@[simp] private theorem validOuts_snoc (e : RxEvent) :
    validOuts (events ++ [e]) = validOuts events ++ e.validOut.toList := by
  simp only [validOuts, List.filterMap_append, List.filterMap_cons, List.filterMap_nil]
  cases e.validOut <;> rfl

@[simp] private theorem overruns_snoc (e : RxEvent) :
    overruns (events ++ [e]) = overruns events + if e = .overran then 1 else 0 := by
  simp only [overruns, List.count_append, List.count_singleton, beq_iff_eq]

/-- A step that moves no message: what is left to show is about the handler and the
work item. -/
private theorem handoffInv_unmoved (inv : HandoffInv events s) {t : RxSys} {e : RxEvent}
    (took : e.tookOut = none) (valid : e.validOut = none) (counted : e ≠ .overran)
    (msgq : t.adapter.msgq = s.adapter.msgq) (submit : t.submit = s.submit)
    (configured : t.adapter.lnk.hasRxCb = s.adapter.lnk.hasRxCb)
    (hand : tookOuts events = passedOuts (events ++ [e]) ++ t.handler.inHand)
    (runs : t.handler = .notRunning ↔ t.adapter.workq.running ≠ some .rimlinkRx)
    (wake : s.adapter.msgq.items ≠ [] →
      s.submit = .submitWork ∨ .rimlinkRx ∈ t.adapter.workq.pending ∨ t.handler.Looking) :
    HandoffInv (events ++ [e]) t := by
  have sameTook : tookOuts (events ++ [e]) = tookOuts events := by
    rw [tookOuts_snoc, took, Option.toList_none, List.append_nil]
  have sameValid : validOuts (events ++ [e]) = validOuts events := by
    rw [validOuts_snoc, valid, Option.toList_none, List.append_nil]
  have sameOver : overruns (events ++ [e]) = overruns events := by
    rw [overruns_snoc, if_neg counted, Nat.add_zero]
  have same : accounted (events ++ [e]) t = accounted events s := by
    simp only [accounted, sameTook, msgq]
  refine ⟨configured.trans inv.configured, ?_, ?_, ?_, ?_, runs, ?_⟩
  · rw [sameTook]
    exact hand
  · rw [sameValid, same, sameOver, submit]
    exact inv.order
  · rw [sameValid, same, submit]
    exact inv.newest
  · rw [msgq, submit]
    exact inv.room
  · rw [msgq, submit]
    exact wake

/-- Steps that record nothing and leave the queues, the callback and the progress
of both threads as they are. -/
private theorem handoffInv_quiet (inv : HandoffInv events s) {t : RxSys} {e : RxEvent}
    (quiet : e = .silent ∨ e = .reset) (side : t.adapter.msgq = s.adapter.msgq)
    (pending : .rimlinkRx ∈ s.adapter.workq.pending → .rimlinkRx ∈ t.adapter.workq.pending)
    (running : s.adapter.workq.running = some .rimlinkRx ↔
      t.adapter.workq.running = some .rimlinkRx)
    (configured : t.adapter.lnk.hasRxCb = s.adapter.lnk.hasRxCb)
    (progress : t.submit = s.submit ∧ t.handler = s.handler) :
    HandoffInv (events ++ [e]) t := by
  obtain ⟨submit, handler⟩ := progress
  have nothing : e.tookOut = none ∧ e.validOut = none ∧ e.passedOut = none ∧ e ≠ .overran := by
    rcases quiet with rfl | rfl <;> exact ⟨rfl, rfl, rfl, by simp⟩
  obtain ⟨took, valid, passed, counted⟩ := nothing
  refine handoffInv_unmoved inv took valid counted side submit configured ?_ ?_ fun filled => ?_
  · rw [passedOuts_snoc, passed, Option.toList_none, List.append_nil, handler]
    exact inv.hand
  · rw [handler, Ne, ← running]
    exact inv.runs
  · rw [handler]
    exact (inv.wake filled).imp_right fun rest => rest.imp_left pending

private theorem handoffInv_call (inv : HandoffInv events s) (idle : s.submit = .idle)
    (frame : Frame) (len : ℕ) (cycle : U32) :
    HandoffInv (events ++ [.submitted frame len]) (s.call frame len cycle) := by
  obtain ⟨msgq, workq, configured⟩ := rxReceive_queues s.adapter cycle frame len
  have handed := rxReceive_out s.adapter cycle frame len
  obtain ⟨before, valid, sub, missing⟩ := inv.order
  have newest := inv.newest
  simp only [idle, SubmitPc.inFlight, List.append_nil, SubmitPc.dropped, Nat.add_zero,
    forall_const] at valid missing newest
  have same : accounted (events ++ [.submitted frame len]) (s.call frame len cycle) =
      accounted events s := by
    simp [accounted, RxSys.call, msgq, RxEvent.tookOut]
  have wake : s.adapter.msgq.items ≠ [] →
      .rimlinkRx ∈ s.adapter.workq.pending ∨ s.handler.Looking := by
    intro filled
    rcases inv.wake filled with busy | rest
    · rw [idle] at busy
      cases busy
    · exact rest
  have validOut : (RxEvent.submitted frame len).validOut =
      (rxReceive s.adapter frame len cycle).2 := handed.symm
  refine ⟨configured.trans inv.configured, ?_, ?_, ?_, ?_, ?_, ?_⟩
  · simpa [RxEvent.tookOut, RxEvent.passedOut, RxSys.call] using inv.hand
  · refine ⟨before, ?_, same ▸ sub, ?_⟩
    · rw [validOuts_snoc, validOut, valid]
      cases received : (rxReceive s.adapter frame len cycle).2 <;>
        simp [RxSys.call, received, SubmitPc.inFlight]
    · rw [same]
      simp only [overruns_snoc, reduceCtorEq, if_false]
      omega
  -- a valid frame is in flight now, any other leaves the newest in place
  · rw [validOuts_snoc, validOut, same]
    cases received : (rxReceive s.adapter frame len cycle).2 with
    | none => simpa using fun _ => newest
    | some out => simp [RxSys.call, received, SubmitPc.inFlight]
  · cases received : (rxReceive s.adapter frame len cycle).2 <;>
      simp [RxSys.call, received, SubmitPc.dropped]
  · simpa only [RxSys.call, workq] using inv.runs
  · simp only [RxSys.call, msgq, workq]
    exact fun filled => Or.inr (wake filled)

/-- The message in flight gets into the queue, with the event that settles whether
one was dropped for it. -/
private theorem handoffInv_accepted (inv : HandoffInv events s) {t : RxSys} {e : RxEvent}
    {out : BaseOutputs} {q : MsgQ BaseOutputs 4} (accepted : s.adapter.msgq.put out = some q)
    (inFlight : s.submit.inFlight = [out])
    (settled : s.submit.dropped = if e = .overran then 1 else 0)
    (nothing : e.tookOut = none ∧ e.passedOut = none ∧ e.validOut = none)
    (msgq : t.adapter.msgq = q) (submit : t.submit = .submitWork) (handler : t.handler = s.handler)
    (workq : t.adapter.workq = s.adapter.workq)
    (configured : t.adapter.lnk.hasRxCb = s.adapter.lnk.hasRxCb) :
    HandoffInv (events ++ [e]) t := by
  obtain ⟨took, passed, silent⟩ := nothing
  obtain ⟨before, valid, sub, missing⟩ := inv.order
  rw [inFlight] at valid
  rw [settled] at missing
  -- the message moves from in flight to the queue, so what is accounted for grows by it
  have newest := KeepsNewest.snoc sub out
  have grown : accounted (events ++ [e]) t = accounted events s ++ [out] := by
    simp only [accounted, tookOuts_snoc, took, Option.toList_none, List.append_nil, msgq,
      MsgQ.items_of_put accepted, List.append_assoc]
  have unchanged : validOuts (events ++ [e]) = before ++ [out] := by
    rw [validOuts_snoc, silent, Option.toList_none, List.append_nil, valid]
  refine ⟨configured.trans inv.configured, ?_, ⟨before ++ [out], ?_, ?_, ?_⟩, fun _ => ?_, ?_, ?_,
    fun _ => Or.inl submit⟩
  · simpa only [tookOuts_snoc, took, passedOuts_snoc, passed, Option.toList_none, List.append_nil,
      handler] using inv.hand
  · rw [unchanged, submit, SubmitPc.inFlight, List.append_nil]
  · rw [grown]
    exact newest.sublist
  · simp only [grown, overruns_snoc, submit, SubmitPc.dropped, List.length_append]
    omega
  · rw [grown, unchanged]
    exact newest
  · rw [submit]
    simp [SubmitPc.dropped]
  · rw [handler, workq]
    exact inv.runs

private theorem handoffInv_full (inv : HandoffInv events s) {out : BaseOutputs}
    (pc : s.submit = .put out) :
    HandoffInv (events ++ [.silent]) { s with submit := .dropOldest out } := by
  have same : accounted (events ++ [.silent]) { s with submit := .dropOldest out } =
      accounted events s := by simp [accounted, RxEvent.tookOut]
  have order := inv.order
  rw [pc] at order
  refine ⟨inv.configured, ?_, ?_, by simp [SubmitPc.inFlight], by simp [SubmitPc.dropped],
    inv.runs, fun filled => ?_⟩
  · simpa [RxEvent.tookOut, RxEvent.passedOut] using inv.hand
  · rw [same]
    simpa [RxEvent.validOut, SubmitPc.inFlight, SubmitPc.dropped] using order
  · rcases inv.wake filled with busy | rest
    · rw [pc] at busy
      cases busy
    · exact Or.inr rest

/-- Whatever the handler did since the queue was found full, dropping the oldest
message makes room and costs one message at most. -/
private theorem handoffInv_dropOldest (inv : HandoffInv events s) {out : BaseOutputs}
    (pc : s.submit = .dropOldest out) :
    HandoffInv (events ++ [.silent]) { s with
      adapter.msgq := (s.adapter.msgq.get.map Prod.snd).getD s.adapter.msgq
      submit := .putAgain out } := by
  obtain ⟨before, valid, sub, missing⟩ := inv.order
  simp only [pc, SubmitPc.inFlight, SubmitPc.dropped, Nat.add_zero] at valid missing
  have bounded := s.adapter.msgq.bounded
  obtain ⟨rest, dropped, shape, room⟩ : ∃ rest : MsgQ BaseOutputs 4,
      (s.adapter.msgq.get.map Prod.snd).getD s.adapter.msgq = rest ∧
      (s.adapter.msgq.items = rest.items ∨ ∃ x, s.adapter.msgq.items = x :: rest.items) ∧
      rest.items.length < 4 := by
    cases taken : s.adapter.msgq.get with
    -- the handler drained the queue in between: nothing to drop
    | none =>
      have empty := MsgQ.get_empty.mp taken
      exact ⟨s.adapter.msgq, rfl, Or.inl rfl, by rw [empty]; decide⟩
    | some message =>
      obtain ⟨x, q⟩ := message
      have items := MsgQ.items_of_get taken
      rw [items, List.length_cons] at bounded
      exact ⟨q, rfl, Or.inr ⟨x, items⟩, by omega⟩
  have rest_sub : rest.items.Sublist s.adapter.msgq.items ∧
      s.adapter.msgq.items.length ≤ rest.items.length + 1 := by
    rcases shape with same | ⟨x, same⟩
    · rw [same]
      exact ⟨List.Sublist.refl _, Nat.le_succ _⟩
    · rw [same]
      exact ⟨List.sublist_cons_self x _, Nat.le_refl _⟩
  rw [dropped]
  refine ⟨inv.configured, ?_, ⟨before, ?_, ?_, ?_⟩, by simp [SubmitPc.inFlight], fun _ => room,
    inv.runs, fun filled => ?_⟩
  · simpa [RxEvent.tookOut, RxEvent.passedOut] using inv.hand
  · simpa [RxEvent.validOut, SubmitPc.inFlight] using valid
  · refine List.Sublist.trans ?_ sub
    simpa [accounted, RxEvent.tookOut] using rest_sub.1
  · simp only [accounted, List.length_append, overruns_snoc, reduceCtorEq, if_false, tookOuts_snoc,
      RxEvent.tookOut, Option.toList_none, List.length_nil, SubmitPc.dropped] at missing ⊢
    omega
  -- what is left was in the queue before, so somebody looks at it
  · have some_left : s.adapter.msgq.items ≠ [] := by
      intro empty
      rw [empty] at rest_sub
      exact filled (List.sublist_nil.mp rest_sub.1)
    rcases inv.wake some_left with busy | rest
    · rw [pc] at busy
      cases busy
    · exact Or.inr rest

/-- The second put finds the room that the drop made. -/
private theorem handoffInv_putAgain (inv : HandoffInv events s) {out : BaseOutputs}
    (pc : s.submit = .putAgain out) :
    HandoffInv (events ++ [.overran]) { s with
      adapter.msgq := (s.adapter.msgq.put out).getD s.adapter.msgq
      adapter.lnk.stats.overrun := s.adapter.lnk.stats.overrun + 1
      submit := .submitWork } := by
  have room := inv.room
  simp only [pc, SubmitPc.dropped, forall_const] at room
  obtain ⟨q, accepted⟩ : ∃ q, s.adapter.msgq.put out = some q := by
    cases put : s.adapter.msgq.put out with
    | none =>
      have full := MsgQ.put_full.mp put
      omega
    | some q => exact ⟨q, rfl⟩
  exact handoffInv_accepted inv accepted (by rw [pc]; rfl) (by rw [pc]; rfl) ⟨rfl, rfl, rfl⟩
    (by rw [accepted, Option.getD_some]) rfl rfl rfl rfl

private theorem handoffInv_submitWork (inv : HandoffInv events s) (pc : s.submit = .submitWork) :
    HandoffInv (events ++ [.returned]) { s with
      adapter.workq := s.adapter.workq.submit .rimlinkRx
      submit := .idle } := by
  have order := inv.order
  have newest := inv.newest
  rw [pc] at order newest
  refine ⟨inv.configured, ?_, ?_, fun _ => ?_, by simp [SubmitPc.dropped], ?_, fun _ => ?_⟩
  · simpa [RxEvent.tookOut, RxEvent.passedOut] using inv.hand
  · simpa [accounted, RxEvent.tookOut, RxEvent.validOut, SubmitPc.inFlight, SubmitPc.dropped]
      using order
  · simpa [accounted, RxEvent.tookOut, RxEvent.validOut] using newest rfl
  · simpa using inv.runs
  · exact Or.inr (Or.inl ((WorkQ.mem_submit _ _ _).mpr (Or.inr rfl)))

private theorem handoffInv_submitStep (inv : HandoffInv events s) {t : RxSys} {e : RxEvent}
    (stepped : s.submitStep = some (t, e)) : HandoffInv (events ++ [e]) t := by
  unfold RxSys.submitStep at stepped
  split at stepped
  · cases stepped
  next out pc =>
    split at stepped
    next q accepted =>
      cases stepped
      exact handoffInv_accepted inv accepted (by rw [pc]; rfl) (by rw [pc]; rfl) ⟨rfl, rfl, rfl⟩
        rfl rfl rfl rfl rfl
    · cases stepped
      exact handoffInv_full inv pc
  next out pc =>
    cases stepped
    exact handoffInv_dropOldest inv pc
  next out pc =>
    cases stepped
    exact handoffInv_putAgain inv pc
  next pc =>
    cases stepped
    exact handoffInv_submitWork inv pc

private theorem handoffInv_take (inv : HandoffInv events s) {out : BaseOutputs}
    {q : MsgQ BaseOutputs 4} (pc : s.handler = .get) (taken : s.adapter.msgq.get = some (out, q)) :
    HandoffInv (events ++ [.took out]) { s with adapter.msgq := q, handler := .callback out } := by
  have items := MsgQ.items_of_get taken
  have same : accounted (events ++ [.took out])
      { s with adapter.msgq := q, handler := .callback out } = accounted events s := by
    simp [accounted, items, RxEvent.tookOut]
  have hand := inv.hand
  have runs := inv.runs
  simp only [pc, HandlerPc.inHand, List.append_nil, reduceCtorEq, false_iff, not_not] at hand runs
  refine ⟨inv.configured, ?_, ?_, ?_, fun dropped => ?_, ?_, fun _ => Or.inr (Or.inr trivial)⟩
  · simp [RxEvent.tookOut, RxEvent.passedOut, HandlerPc.inHand, hand]
  -- taken and queued together stay what they were
  · rw [same]
    simpa [RxEvent.validOut] using inv.order
  · rw [same]
    simpa [RxEvent.validOut] using inv.newest
  · have room := inv.room dropped
    rw [items, List.length_cons] at room
    exact Nat.lt_of_succ_lt room
  · simp [runs]

private theorem handoffInv_foundEmpty (inv : HandoffInv events s) (pc : s.handler = .get)
    (empty : s.adapter.msgq.get = none) :
    HandoffInv (events ++ [.silent]) { s with handler := .returning } := by
  have hand := inv.hand
  have runs := inv.runs
  simp only [pc, HandlerPc.inHand, List.append_nil, reduceCtorEq, false_iff, not_not] at hand runs
  refine handoffInv_unmoved inv rfl rfl (by simp) rfl rfl rfl ?_ ?_ fun filled => ?_
  · simpa [RxEvent.passedOut, HandlerPc.inHand] using hand
  · simp [runs]
  · exact absurd (MsgQ.get_empty.mp empty) filled

private theorem handoffInv_callback (inv : HandoffInv events s) {out : BaseOutputs}
    (pc : s.handler = .callback out) :
    HandoffInv (events ++ [.passed out]) { s with handler := .get } := by
  have hand := inv.hand
  have runs := inv.runs
  simp only [pc, HandlerPc.inHand, reduceCtorEq, false_iff, not_not] at hand runs
  refine handoffInv_unmoved inv rfl rfl (by simp) rfl rfl rfl ?_ ?_ fun _ => Or.inr (Or.inr trivial)
  · simpa [RxEvent.passedOut, HandlerPc.inHand] using hand
  · simp [runs]

/-- A message put after the handler found the queue empty is not stranded: the
item was, or is about to be, submitted again. -/
private theorem handoffInv_return (inv : HandoffInv events s) (pc : s.handler = .returning) :
    HandoffInv (events ++ [.silent])
      { s with adapter.workq := s.adapter.workq.finish, handler := .notRunning } := by
  have hand := inv.hand
  simp only [pc, HandlerPc.inHand, List.append_nil] at hand
  refine handoffInv_unmoved inv rfl rfl (by simp) rfl rfl rfl ?_ (by simp) fun filled => ?_
  · simpa [RxEvent.passedOut, HandlerPc.inHand] using hand
  · rcases inv.wake filled with busy | waits | looking
    · exact Or.inl busy
    · exact Or.inr (Or.inl waits)
    · -- a returning handler does not look again
      rw [pc] at looking
      exact looking.elim

private theorem handoffInv_handlerStep (inv : HandoffInv events s) {t : RxSys} {e : RxEvent}
    (stepped : s.handlerStep = some (t, e)) : HandoffInv (events ++ [e]) t := by
  unfold RxSys.handlerStep at stepped
  split at stepped
  · cases stepped
  next pc =>
    split at stepped
    next out q taken =>
      cases stepped
      exact handoffInv_take inv pc taken
    next empty =>
      cases stepped
      exact handoffInv_foundEmpty inv pc empty
  next out pc =>
    rw [if_pos inv.configured] at stepped
    cases stepped
    exact handoffInv_callback inv pc
  next pc =>
    cases stepped
    exact handoffInv_return inv pc

private theorem handoffInv_beginWork (inv : HandoffInv events s) {t : RxSys} {e : RxEvent}
    (stepped : s.beginWork = some (t, e)) : HandoffInv (events ++ [e]) t := by
  simp only [RxSys.beginWork, Option.map_eq_some_iff, Prod.mk.injEq] at stepped
  obtain ⟨⟨item, q⟩, started, rfl, rfl⟩ := stepped
  obtain ⟨idle, waiting, running⟩ := WorkQ.begin_some started
  have stopped : s.handler = .notRunning := inv.runs.mpr (by simp [idle])
  by_cases ours : item = .rimlinkRx
  · -- the receive handler starts
    subst ours
    have hand := inv.hand
    simp only [stopped, HandlerPc.inHand, List.append_nil] at hand
    refine handoffInv_unmoved inv rfl rfl (by simp) rfl rfl rfl ?_ ?_
      fun _ => Or.inr (Or.inr trivial)
    · simpa [RxEvent.passedOut, HandlerPc.inHand] using hand
    · simp [running]
  · -- another item starts, and ours still waits if it did
    refine handoffInv_quiet inv (Or.inl rfl) rfl (fun waits => ?_) ?_ rfl
      ⟨rfl, by simp only [if_neg ours]⟩
    · rw [waiting, List.mem_cons] at waits
      exact waits.resolve_left (Ne.symm ours)
    · rw [running, idle]
      simp only [reduceCtorEq, Option.some.injEq, false_iff]
      exact ours

private theorem handoffInv_otherReturn (inv : HandoffInv events s) {t : RxSys} {e : RxEvent}
    (stepped : s.otherReturn = some (t, e)) : HandoffInv (events ++ [e]) t := by
  unfold RxSys.otherReturn at stepped
  split at stepped
  · cases stepped
  · cases stepped
  next item other running =>
    cases stepped
    refine handoffInv_quiet inv (Or.inl rfl) rfl id ?_ rfl ⟨rfl, rfl⟩
    rw [running]
    simp only [Option.some.injEq, WorkQ.running_finish, reduceCtorEq, iff_false]
    rintro rfl
    exact other rfl

private theorem handoffInv_otherCall (inv : HandoffInv events s) (c : Call) {t : RxSys}
    {e : RxEvent} (stepped : s.otherCall c = some (t, e)) : HandoffInv (events ++ [e]) t := by
  have quiet : ∀ e, e = .silent ∨ e = .reset → (Rimlink.step s.adapter c).1.msgq = s.adapter.msgq →
      (Rimlink.step s.adapter c).1.workq = s.adapter.workq →
      (Rimlink.step s.adapter c).1.lnk.hasRxCb = s.adapter.lnk.hasRxCb →
      HandoffInv (events ++ [e]) { s with adapter := (Rimlink.step s.adapter c).1 } := by
    intro e silent msgq workq configured
    refine handoffInv_quiet inv silent msgq ?_ ?_ configured ⟨rfl, rfl⟩
    · exact fun waits => workq ▸ waits
    · exact workq ▸ Iff.rfl
  unfold RxSys.otherCall at stepped
  split at stepped
  · cases stepped
  · cases stepped
  next reset =>
    cases stepped
    -- the reset touches the counters only
    refine quiet .reset (Or.inr rfl) ?_ ?_ ?_ <;> simp only [Rimlink.step, reset, statsReset]
  next receive work reset =>
    cases stepped
    have side := step_rxSide s.adapter c receive work reset
    exact quiet .silent (Or.inl rfl) (congrArg RxSide.msgq side) (congrArg RxSide.workq side)
      (congrArg RxSide.hasRxCb side)

private theorem handoffInv_step (inv : HandoffInv events s) {act : RxAct} {t : RxSys} {e : RxEvent}
    (stepped : s.step act = some (t, e)) : HandoffInv (events ++ [e]) t := by
  cases act with
  | call frame len cycle =>
    simp only [RxSys.step, Option.ite_none_right_eq_some, Option.some.injEq,
      Prod.mk.injEq] at stepped
    obtain ⟨idle, rfl, rfl⟩ := stepped
    exact handoffInv_call inv idle frame len cycle
  | submitStep => exact handoffInv_submitStep inv stepped
  | beginWork => exact handoffInv_beginWork inv stepped
  | handlerStep => exact handoffInv_handlerStep inv stepped
  | otherReturn => exact handoffInv_otherReturn inv stepped
  | otherSubmit item =>
    simp only [RxSys.step, RxSys.otherSubmit, Option.ite_none_left_eq_some, Option.some.injEq,
      Prod.mk.injEq] at stepped
    obtain ⟨other, rfl, rfl⟩ := stepped
    refine handoffInv_quiet inv (Or.inl rfl) rfl ?_ ?_ rfl ⟨rfl, rfl⟩
    · exact fun waits => (WorkQ.mem_submit _ _ _).mpr (Or.inl waits)
    · exact (WorkQ.running_submit s.adapter.workq item).symm ▸ Iff.rfl
  | otherCall c => exact handoffInv_otherCall inv c stepped

end Steps

/-- The invariant holds in every reachable state. -/
theorem handoff_inv {id : RimId} {now : ℤ} {events : List RxEvent} {s : RxSys}
    (reached : (rxMachine id now).Reaches events s) : HandoffInv events s := by
  refine Machine.ReachesBy.induct (P := HandoffInv) ?_
    (fun _ _ _ _ _ inv _ stepped => handoffInv_step inv stepped) reached
  exact ⟨rfl, rfl, ⟨[], rfl, List.Sublist.refl [], Nat.le_refl 0⟩,
    fun _ => ⟨rfl, List.Sublist.refl []⟩, by simp [rxMachine, RxSys.boot, SubmitPc.dropped],
    by simp [rxMachine, RxSys.boot, init, Adapter.boot, WorkQ.empty],
    fun filled => absurd rfl filled⟩

/-- **Hand-off.** In every reachable state the messages taken, then those queued, are
valid frames in submission order, and each was passed to the callback before the
next was taken. Between two calls the newest valid frame is among them, no more
are missing than overruns were counted, and a work item that neither waits nor
runs leaves an empty queue. Until a reset the counters add up modulo `2 ^ 32`. -/
theorem rx_handoff {id : RimId} {now : ℤ} {events : List RxEvent} {s : RxSys}
    (reached : (rxMachine id now).Reaches events s) :
    (accounted events s).Sublist (validOuts events) ∧
    tookOuts events = passedOuts events ++ s.handler.inHand ∧
    (s.submit = .idle →
      KeepsNewest (accounted events s) (validOuts events) ∧
      (validOuts events).length - (accounted events s).length ≤ overruns events ∧
      (s.adapter.workq.Idle .rimlinkRx → s.adapter.msgq.items = [])) ∧
    (.reset ∉ events →
      s.adapter.lnk.stats.overrun = BitVec.ofNat 32 (overruns events) ∧
      BitVec.ofNat 32 (events.countP RxEvent.isCall) =
        s.adapter.lnk.stats.txnCount + s.adapter.lnk.stats.shortFrame ∧
      s.adapter.lnk.stats.txnCount =
        s.adapter.lnk.stats.crcErrRx + BitVec.ofNat 32 (validOuts events).length) := by
  have inv := handoff_inv reached
  obtain ⟨before, valid, sub, missing⟩ := inv.order
  refine ⟨?_, inv.hand, fun idle => ⟨?_, ?_, fun stopped => ?_⟩, fun never => ?_⟩
  · rw [valid]
    exact sub.trans (List.sublist_append_left before _)
  · exact inv.newest (by rw [idle]; rfl)
  · simp only [idle, SubmitPc.inFlight, List.append_nil, SubmitPc.dropped] at valid missing
    rw [valid]
    omega
  -- a filled queue would have its item pending or its handler looking
  · by_contra filled
    have notRunning := inv.runs.mpr stopped.2
    rcases inv.wake filled with busy | waits | looking
    · rw [idle] at busy
      cases busy
    · exact stopped.1 waits
    · rw [notRunning] at looking
      exact looking
  · have counted := rx_counted reached
    rw [sinceReset_eq never] at counted
    have txn : s.adapter.lnk.stats.txnCount = _ := counted.txn
    have short : s.adapter.lnk.stats.shortFrame = _ := counted.short
    have corrupt : s.adapter.lnk.stats.crcErrRx = _ := counted.corrupt
    refine ⟨counted.overrun, ?_, ?_⟩
    · rw [calls_split, BitVec.ofNat_add, txn, short]
    · rw [txn, corrupt, full_split, BitVec.ofNat_add]
      rfl

/-- Five valid frames while the workqueue waits, the handler draining the full queue
between the refused put and the drop. -/
def overrunRun : List RxAct :=
  let frame : Frame := frameBuildId .neutral 3
  let whole := [RxAct.call frame 33 0, .submitStep, .submitStep]
  whole ++ whole ++ whole ++ whole ++ [.call frame 33 0, .submitStep, .beginWork, .handlerStep,
    .handlerStep, .submitStep, .handlerStep, .submitStep, .submitStep]

theorem rx_handoff_run : ∃ s events,
    (rxMachine 3 0).run (rxMachine 3 0).start overrunRun = some (s, events) ∧
      (accounted events s).Sublist (validOuts events) := by
  have enabled : ((rxMachine 3 0).run (rxMachine 3 0).start overrunRun).isSome := by
    decide +kernel
  obtain ⟨⟨s, events⟩, ran⟩ := Option.isSome_iff_exists.mp enabled
  exact ⟨s, events, ran, (rx_handoff (Machine.reaches_of_run ran)).1⟩

end FanatecWheel.Rimlink
