import FanatecWheel.App.Boot

/-!
# Outputs and the boot order

The link is armed before the services exist. A valid frame whose work item is
submitted too early reaches `output_svc_rx` before the services it uses are
initialised, in both builds. In runs without such a submission it never does.
-/

namespace FanatecWheel.App

open Foundation Rimlink

/-- `output_svc_rx` ran only after every service it uses was initialised. -/
def OutputAfterInit (events : List BootEvent) : Prop :=
  Guarded (fun before e => ∀ out, e = .link (.passed out) →
    ∀ svc ∈ outputSvcRxUses, .ready svc ∈ before) events

/-- Every service `output_svc_rx` uses is initialised. -/
def OutputReady (s : BootSys) : Prop := ∀ svc ∈ outputSvcRxUses, svc ∉ s.left

instance (s : BootSys) : Decidable (OutputReady s) := inferInstanceAs (Decidable (∀ _ ∈ _, _))

/-- The receive work item may be submitted: the deferred item was submitted before
it, or, without `CONFIG_RIM_FASTBOOT`, the services are initialised. -/
def MaySubmit (fastboot : Bool) (s : BootSys) : Prop :=
  if fastboot then s.main = .returned else OutputReady s

instance (fastboot : Bool) (s : BootSys) : Decidable (MaySubmit fastboot s) := by
  unfold MaySubmit
  infer_instance

/-- The step is not the submission of the receive work item, or comes late enough. -/
def LateEnough (fastboot : Bool) (s : BootSys) : BootAct → Prop
  | .link .submitStep => s.rx.submit = .submitWork → MaySubmit fastboot s
  | _ => True

instance (fastboot : Bool) (s : BootSys) : DecidablePred (LateEnough fastboot s)
  | .link .submitStep => inferInstanceAs (Decidable (_ → _))
  | .link (.call _ _ _) | .link .beginWork | .link .handlerStep | .link .otherReturn
  | .link (.otherSubmit _) | .link (.otherCall _) | .main _ _ | .deferredInit =>
    inferInstanceAs (Decidable True)

/-- The deferred item waits ahead of the receive work item. -/
def Ahead (pending : List Work) : Prop :=
  ∃ first rest, pending = first ++ .deferredInit :: rest ∧ .rimlinkRx ∉ first

theorem ahead_submit {q : WorkQ Work} (ahead : Ahead q.pending) (item : Work) :
    Ahead (q.submit item).pending := by
  obtain ⟨first, rest, split, clear⟩ := ahead
  rw [WorkQ.pending_submit]
  by_cases waits : item ∈ q.pending
  · rw [if_pos waits]
    exact ⟨first, rest, split, clear⟩
  · rw [if_neg waits]
    exact ⟨first, rest ++ [item], by rw [split]; simp, clear⟩

theorem ahead_deferred {q : WorkQ Work} (clear : .rimlinkRx ∉ q.pending) :
    Ahead (q.submit .deferredInit).pending := by
  rw [WorkQ.pending_submit]
  by_cases waits : .deferredInit ∈ q.pending
  · rw [if_pos waits]
    obtain ⟨first, rest, split⟩ := List.append_of_mem waits
    refine ⟨first, rest, split, fun member => clear ?_⟩
    rw [split]
    exact List.mem_append_left _ member
  · rw [if_neg waits]
    exact ⟨q.pending, [], rfl, clear⟩

/-- Taking the first item brings up the deferred one or leaves it ahead. -/
theorem ahead_begin {item : Work} {rest : List Work} (ahead : Ahead (item :: rest)) :
    item = .deferredInit ∨ item ≠ .rimlinkRx ∧ Ahead rest := by
  obtain ⟨first, later, split, clear⟩ := ahead
  -- the item taken is the deferred one, or one of those ahead of it
  cases first with
  | nil =>
    simp only [List.nil_append, List.cons.injEq] at split
    exact Or.inl split.1
  | cons x xs =>
    simp only [List.cons_append, List.cons.injEq] at split
    obtain ⟨rfl, rfl⟩ := split
    rw [List.mem_cons, not_or] at clear
    exact Or.inr ⟨Ne.symm clear.1, xs, later, rfl, clear.2⟩

def BootEvent.readyOf : BootEvent → Option Service
  | .ready svc => some svc
  | _ => none

/-- The invariant of a boot whose submissions are late enough. -/
structure BootInv (fastboot : Bool) (events : List BootEvent) (s : BootSys) : Prop where
  started : servicesInit = events.filterMap BootEvent.readyOf ++ s.left
  runs : s.rx.handler = .notRunning ↔ s.rx.adapter.workq.running ≠ some .rimlinkRx
  waits : .rimlinkRx ∈ s.rx.adapter.workq.pending → MaySubmit fastboot s
  deferred : fastboot = true → s.main = .returned → s.left = [] ∨
    s.rx.adapter.workq.running = some .deferredInit ∨ Ahead s.rx.adapter.workq.pending
  handles : s.rx.handler ≠ .notRunning → OutputReady s
  ordered : OutputAfterInit events

section Steps

variable {fastboot : Bool} {events : List BootEvent} {s t : BootSys} {e : BootEvent}

/-- A service whose initialisation is not outstanding was recorded. -/
private theorem ready_recorded
    (started : servicesInit = events.filterMap BootEvent.readyOf ++ s.left) {svc : Service}
    (finished : svc ∉ s.left) : .ready svc ∈ events := by
  have listed : svc ∈ servicesInit := by cases svc <;> decide
  rw [started, List.mem_append] at listed
  obtain ⟨e, member, same⟩ := List.mem_filterMap.mp (listed.resolve_right finished)
  cases e with
  | ready other =>
    simp only [BootEvent.readyOf, Option.some.injEq] at same
    exact same ▸ member
  | link e => cases same
  | mainStep => cases same

private theorem maySubmit_mono (main : s.main = .returned → t.main = .returned)
    (left : ∀ svc ∈ t.left, svc ∈ s.left) (may : MaySubmit fastboot s) : MaySubmit fastboot t := by
  unfold MaySubmit at *
  split
  next fast =>
    rw [if_pos fast] at may
    exact main may
  next slow =>
    rw [if_neg slow] at may
    exact fun svc member waiting => may svc member (left svc waiting)

/-- A step that hands nothing to `output_svc_rx` keeps the order. -/
private theorem ordered_snoc (ordered : OutputAfterInit events)
    (silent : ∀ out, e ≠ .link (.passed out)) : OutputAfterInit (events ++ [e]) :=
  guarded_snoc ordered fun out same => absurd same (silent out)

private theorem started_link
    (started : servicesInit = events.filterMap BootEvent.readyOf ++ s.left)
    (quiet : e.readyOf = none) :
    servicesInit = (events ++ [e]).filterMap BootEvent.readyOf ++ s.left := by
  simpa [quiet] using started

/-- The next service returns, in `main` or in the deferred item. -/
private theorem bootInv_service (inv : BootInv fastboot events s)
    (stepped : s.serviceStep = some (t, e))
    (carried : fastboot = true → s.main = .returned →
      s.rx.adapter.workq.running = some .deferredInit) :
    BootInv fastboot (events ++ [e]) t := by
  unfold BootSys.serviceStep at stepped
  split at stepped
  · cases stepped
  next svc rest outstanding =>
    cases stepped
    have fewer : ∀ other ∈ rest, other ∈ s.left := by
      intro other member
      rw [outstanding]
      exact List.mem_cons_of_mem svc member
    refine ⟨?_, inv.runs, fun waiting => maySubmit_mono (s := s) id fewer (inv.waits waiting),
      fun fast returned => Or.inr (Or.inl (carried fast returned)), fun busy other member waiting =>
        inv.handles busy other member (fewer other waiting), ordered_snoc inv.ordered (by simp)⟩
    have started := inv.started
    rw [outstanding] at started
    simpa [BootEvent.readyOf] using started

/-- `main` moves on and leaves the workqueue and the services as they are. -/
private theorem bootInv_advance (inv : BootInv fastboot events s)
    (workq : t.rx.adapter.workq = s.rx.adapter.workq) (handler : t.rx.handler = s.rx.handler)
    (left : t.left = s.left) (main : s.main = .returned → t.main = .returned)
    (finished : fastboot = true → t.main = .returned → t.left = []) :
    BootInv fastboot (events ++ [.mainStep]) t := by
  refine ⟨?_, ?_, fun waiting => ?_, fun fast returned => Or.inl (finished fast returned),
    fun busy => ?_, ordered_snoc inv.ordered (by simp)⟩
  · rw [left]
    exact started_link inv.started rfl
  · rw [workq, handler]
    exact inv.runs
  · rw [workq] at waiting
    exact maySubmit_mono main (fun svc member => left ▸ member) (inv.waits waiting)
  · rw [handler] at busy
    rw [OutputReady, left]
    exact inv.handles busy

private theorem bootInv_main (inv : BootInv fastboot events s) {now : ℤ} {linkOk : Bool}
    (stepped : s.mainStep fastboot now linkOk = some (t, e)) :
    BootInv fastboot (events ++ [e]) t := by
  unfold BootSys.mainStep at stepped
  split at stepped
  next pc =>
    -- `rimlink_init`
    cases stepped
    exact bootInv_advance inv rfl rfl rfl (by simp [pc]) (by simp)
  next pc =>
    -- `link_spi_init`
    cases stepped
    exact bootInv_advance inv rfl rfl rfl (by simp [pc]) (by simp)
  next pc =>
    split at stepped
    next fast =>
      -- `k_work_submit(&deferred_init_work)`: the receive item cannot wait already
      cases stepped
      have clear : .rimlinkRx ∉ s.rx.adapter.workq.pending := by
        intro waiting
        have may := inv.waits waiting
        rw [MaySubmit, if_pos fast, pc] at may
        cases may
      refine ⟨started_link inv.started rfl, ?_, fun _ => ?_, fun _ _ => ?_, inv.handles,
        ordered_snoc inv.ordered (by simp)⟩
      · simpa using inv.runs
      · rw [MaySubmit, if_pos fast]
      · exact Or.inr (Or.inr (ahead_deferred clear))
    next slow =>
      cases stepped
      exact bootInv_advance inv rfl rfl rfl (by simp [pc]) (by simp)
  next pc =>
    split at stepped
    next finished =>
      cases stepped
      exact bootInv_advance inv rfl rfl rfl (fun _ => rfl) fun _ _ => finished
    · exact bootInv_service inv stepped (by simp [pc])
  · cases stepped

/-- An item submitted behind it does not get ahead of the deferred one. -/
private theorem deferred_submit (inv : BootInv fastboot events s) (fast : fastboot = true)
    (returned : s.main = .returned) (item : Work) :
    s.left = [] ∨ s.rx.adapter.workq.running = some .deferredInit ∨
      Ahead (s.rx.adapter.workq.submit item).pending :=
  (inv.deferred fast returned).imp_right fun moving =>
    moving.imp_right fun ahead => ahead_submit ahead item

/-- While no item runs, the deferred one has run to its end or waits ahead of ours. -/
private theorem deferred_idle (inv : BootInv fastboot events s)
    (idle : s.rx.adapter.workq.running = none) (fast : fastboot = true)
    (returned : s.main = .returned) : s.left = [] ∨ Ahead s.rx.adapter.workq.pending := by
  rcases inv.deferred fast returned with empty | moving | ahead
  · exact Or.inl empty
  · rw [idle] at moving
    cases moving
  · exact Or.inr ahead

/-- When the receive work is taken up, nothing it needs is outstanding. -/
private theorem ready_ownBegin (inv : BootInv fastboot events s) {q : WorkQ Work}
    (began : s.rx.adapter.workq.begin = some (.rimlinkRx, q)) :
    MaySubmit fastboot s ∧ (fastboot = true → s.main = .returned → s.left = []) ∧
      OutputReady s := by
  obtain ⟨idle, waiting, -⟩ := WorkQ.begin_some began
  have may : MaySubmit fastboot s := inv.waits (by rw [waiting]; exact List.mem_cons_self)
  -- the deferred item waited ahead of ours, so it ran to its end
  have noneLeft : fastboot = true → s.main = .returned → s.left = [] := by
    intro fast returned
    rcases deferred_idle inv idle fast returned with empty | ahead
    · exact empty
    · rw [waiting] at ahead
      rcases ahead_begin ahead with same | ⟨other, -⟩
      · cases same
      · exact absurd rfl other
  refine ⟨may, noneLeft, ?_⟩
  -- the item was submitted late, which means another thing in each build
  by_cases fast : fastboot = true
  · rw [MaySubmit, if_pos fast] at may
    intro svc _
    rw [noneLeft fast may]
    exact List.not_mem_nil
  · rwa [MaySubmit, if_neg fast] at may

/-- Steps of the link, the workqueue and the rest. The receive item is taken up
only after the services it needs: it was submitted late, and behind the deferred
item. -/
private theorem bootInv_link (inv : BootInv fastboot events s) {act : RxAct}
    (late : LateEnough fastboot s (.link act)) (stepped : s.linkStep act = some (t, e)) :
    BootInv fastboot (events ++ [e]) t := by
  simp only [BootSys.linkStep, Option.ite_none_right_eq_some, Option.map_eq_some_iff,
    Prod.mk.injEq] at stepped
  obtain ⟨allowed, ⟨rx, event⟩, moved, rfl, rfl⟩ := stepped
  have started := started_link (e := .link event) inv.started rfl
  cases step_workMove moved with
  | same workq handler passes =>
    refine ⟨started, ?_, ?_, ?_, ?_, ?_⟩
    · simpa only [workq, handler] using inv.runs
    · exact fun waiting => inv.waits (by simpa only [workq] using waiting)
    · simpa only [workq] using inv.deferred
    · exact fun busy => inv.handles (fun stopped => busy (handler.mpr stopped))
    -- the callback runs: the handler was taken up with its services ready
    · refine guarded_snoc inv.ordered fun out same svc member => ?_
      cases same
      have busy : s.rx.handler ≠ .notRunning := by simp [passes out rfl]
      exact ready_recorded inv.started (inv.handles busy svc member)
  | ownSubmit pc workq handler =>
    refine ⟨started, ?_, fun _ => late pc, ?_, ?_, ordered_snoc inv.ordered (by simp)⟩
    · simpa only [workq, handler, WorkQ.running_submit] using inv.runs
    · simpa only [workq, WorkQ.running_submit] using fun fast returned =>
        deferred_submit inv fast returned _
    · exact fun busy => inv.handles (by simpa only [handler] using busy)
  | otherSubmit other workq handler =>
    refine ⟨started, ?_, ?_, ?_, ?_, ordered_snoc inv.ordered (by simp)⟩
    · simpa only [workq, handler, WorkQ.running_submit] using inv.runs
    · simp only [workq, WorkQ.mem_submit]
      exact fun waiting => inv.waits (waiting.resolve_right (Ne.symm other))
    · simpa only [workq, WorkQ.running_submit] using fun fast returned =>
        deferred_submit inv fast returned _
    · exact fun busy => inv.handles (by simpa only [handler] using busy)
  | ownBegin began handler =>
    obtain ⟨may, noneLeft, ready⟩ := ready_ownBegin inv began
    obtain ⟨-, -, running⟩ := WorkQ.begin_some began
    refine ⟨started, ?_, fun _ => may, fun fast returned => Or.inl (noneLeft fast returned),
      fun _ => ready, ordered_snoc inv.ordered (by simp)⟩
    simp [running, handler]
  | otherBegin other began handler =>
    obtain ⟨idle, waiting, running⟩ := WorkQ.begin_some began
    refine ⟨started, ?_, ?_, ?_, ?_, ordered_snoc inv.ordered (by simp)⟩
    -- no item ran, so the receive handler did not either
    · have stopped : s.rx.handler = .notRunning := inv.runs.mpr (by simp [idle])
      simp only [handler, stopped, running, true_iff]
      exact fun same => other (Option.some.inj same)
    · exact fun queued => inv.waits (by rw [waiting]; exact List.mem_cons_of_mem _ queued)
    · intro fast returned
      rcases deferred_idle inv idle fast returned with empty | ahead
      · exact Or.inl empty
      · rw [waiting] at ahead
        rcases ahead_begin ahead with same | ⟨-, rest⟩
        · exact Or.inr (Or.inl (by rw [running, same]))
        · exact Or.inr (Or.inr rest)
    · exact fun busy => inv.handles (by simpa only [handler] using busy)
  | ownReturn pc workq handler =>
    have running : s.rx.adapter.workq.running = some .rimlinkRx := by
      have busy := inv.runs
      rw [pc] at busy
      simpa using busy
    refine ⟨started, ?_, ?_, ?_, ?_, ordered_snoc inv.ordered (by simp)⟩
    · simp [handler, workq]
    · exact fun waiting => inv.waits (by simpa only [workq, WorkQ.pending_finish] using waiting)
    · intro fast returned
      rcases inv.deferred fast returned with empty | moving | ahead
      · exact Or.inl empty
      · rw [running] at moving
        cases moving
      · exact Or.inr (Or.inr (by simpa only [workq, WorkQ.pending_finish] using ahead))
    · exact fun busy => absurd handler busy
  | otherReturn other running workq handler =>
    refine ⟨started, ?_, ?_, ?_, ?_, ordered_snoc inv.ordered (by simp)⟩
    · have stopped : s.rx.handler = .notRunning :=
        inv.runs.mpr (by rw [running]; exact fun same => other (Option.some.inj same))
      simp [handler, stopped, workq]
    · exact fun waiting => inv.waits (by simpa only [workq, WorkQ.pending_finish] using waiting)
    · intro fast returned
      rcases inv.deferred fast returned with empty | moving | ahead
      · exact Or.inl empty
      -- the deferred item returns with its last service
      · exact Or.inl (allowed moving)
      · exact Or.inr (Or.inr (by simpa only [workq, WorkQ.pending_finish] using ahead))
    · exact fun busy => inv.handles (by simpa only [handler] using busy)

private theorem bootInv_step (inv : BootInv fastboot events s) {act : BootAct}
    (late : LateEnough fastboot s act) (stepped : s.step fastboot act = some (t, e)) :
    BootInv fastboot (events ++ [e]) t := by
  cases act with
  | main now linkOk => exact bootInv_main inv stepped
  | deferredInit =>
    simp only [BootSys.step, BootSys.deferredStep, Option.ite_none_right_eq_some] at stepped
    exact bootInv_service inv stepped.2 fun _ _ => stepped.1
  | link act => exact bootInv_link inv late stepped

end Steps

/-- **Boot order.** In every run of either build whose receive work item is never
submitted too early, `output_svc_rx` runs only after the services it uses are
initialised. -/
theorem output_after_init {fastboot : Bool} {id : RimId} {events : List BootEvent} {s : BootSys}
    (reached : (bootMachine fastboot id).ReachesBy (LateEnough fastboot) events s) :
    OutputAfterInit events := by
  refine (Machine.ReachesBy.induct (P := BootInv fastboot) ?_
    (fun _ _ _ _ _ inv late stepped => bootInv_step inv late stepped) reached).ordered
  refine ⟨rfl, ?_, by simp [bootMachine, Adapter.boot, WorkQ.empty],
    fun _ => by simp [bootMachine], fun busy => absurd rfl busy, guarded_nil _⟩
  simp [bootMachine, Adapter.boot, WorkQ.empty]

/-- A valid frame of the base and the way of its message to `output_svc_rx`. -/
def frameArrives : List BootAct :=
  [.link (.call (frameBuildId .neutral 3) 33 0), .link .submitStep, .link .submitStep,
    .link .beginWork, .link .handlerStep, .link .handlerStep]

/-- With `CONFIG_RIM_FASTBOOT`: the deferred item is submitted and runs, then a frame
arrives. -/
theorem output_after_init_run : ∃ events s,
    (bootMachine true 3).runBy (LateEnough true) (bootMachine true 3).start
        ([.main 0 true, .main 1 true, .main 1 true, .link .beginWork] ++
          List.replicate 9 .deferredInit ++ [.link .otherReturn] ++ frameArrives) =
      some (s, events) ∧ OutputAfterInit events := by
  have enabled : ((bootMachine true 3).runBy (LateEnough true) (bootMachine true 3).start
      ([.main 0 true, .main 1 true, .main 1 true, .link .beginWork] ++
        List.replicate 9 .deferredInit ++ [.link .otherReturn] ++ frameArrives)).isSome := by
    decide +kernel
  obtain ⟨⟨s, events⟩, ran⟩ := Option.isSome_iff_exists.mp enabled
  exact ⟨events, s, ran, output_after_init (Machine.reachesBy_of_run ran)⟩

/-- A frame that arrives right after `link_spi_init`. -/
def earlyFrame : List BootAct := [.main 0 true, .main 1 true] ++ frameArrives

private theorem early_events (fastboot : Bool) :
    ((bootMachine fastboot 3).run (bootMachine fastboot 3).start earlyFrame).map Prod.snd =
      some ([.mainStep, .mainStep, .link (.submitted (frameBuildId .neutral 3) 33), .link .silent,
          .link .returned, .link .silent, .link (.took ⟨![0, 0, 0], 0, ![0, 0]⟩)] ++
        .link (.passed ⟨![0, 0, 0], 0, ![0, 0]⟩) :: []) := by
  revert fastboot
  decide +kernel

private theorem early_output (fastboot : Bool) :
    ∃ events s, (bootMachine fastboot 3).Reaches events s ∧ ¬ OutputAfterInit events := by
  obtain ⟨⟨s, events⟩, ran, same⟩ := Option.map_eq_some_iff.mp (early_events fastboot)
  refine ⟨events, s, Machine.reaches_of_run ran, fun ordered => ?_⟩
  have ready := ordered _ _ _ same _ rfl .ledSvc (by decide)
  simp at ready

/-- In both builds the output of an early frame precedes every service. -/
theorem output_before_init :
    (∃ events s, (bootMachine true 3).Reaches events s ∧ ¬ OutputAfterInit events) ∧
      ∃ events s, (bootMachine false 3).Reaches events s ∧ ¬ OutputAfterInit events :=
  ⟨early_output true, early_output false⟩

end FanatecWheel.App
