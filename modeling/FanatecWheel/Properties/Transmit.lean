import FanatecWheel.Foundation.Trace
import FanatecWheel.Rimlink.TxMailbox

/-!
# What the transfer is handed

Two results about every run after `rimlink_init`. The transmit side answers as
the mailbox does, and the buffer it handed out stays as it is until the next
acquire. An acquire that comes too late gets a neutral frame unless a snapshot
is still waiting to be taken: that one is sent however old it is.
-/

namespace FanatecWheel.Rimlink

open Foundation

/-! ### Refinement of the mailbox -/

/-- A call of the adapter, observed at the transmit side: the bytes handed to the
transfer, and `stale_clear` after the call. -/
def txObserve (a : Adapter) (c : Call) : Adapter × Option Frame × U32 :=
  let called := step a c
  (called.1, handedOut called.1 called.2, called.1.lnk.stats.staleClear)

/-- The same call and observation on the mailbox. -/
def TxMailbox.observe (m : TxMailbox) (c : Call) : TxMailbox × Option Frame × U32 :=
  let called := m.step c
  (called.1, called.2, called.1.staleClear)

private theorem observe_simulates (a : Adapter) (m : TxMailbox) (c : Call)
    (related : a.toTx = m) :
    (txObserve a c).2 = (m.observe c).2 ∧ (txObserve a c).1.toTx = (m.observe c).1 := by
  subst related
  obtain ⟨moved, handed⟩ := toTx_step a c
  have counted : (step a c).1.lnk.stats.staleClear = (a.toTx.step c).1.staleClear :=
    congrArg (fun m : TxMailbox => m.staleClear) moved
  simp only [txObserve, TxMailbox.observe]
  exact ⟨by rw [handed, counted], moved⟩

private theorem mailbox_current (m : TxMailbox) (c : Call) (quiet : c.op ≠ .txAcquire) :
    (m.step c).1.current = m.current := by
  unfold TxMailbox.step
  cases held : c.op with
  | txAcquire => exact absurd held quiet
  | _ => rfl

/-- Only an acquire changes which buffer the transfer owns. -/
theorem step_armed (a : Adapter) (c : Call) (quiet : c.op ≠ .txAcquire) :
    (step a c).1.lnk.armed = a.lnk.armed := by
  unfold step
  cases held : c.op with
  | txAcquire => exact absurd held quiet
  | rxSubmit frame len =>
    obtain ⟨stats, lastRx, cap, msgq, workq, same, -⟩ := rxSubmit_frame a c.cycle frame len
    simp only [same]
  | rxWork =>
    obtain ⟨q, same⟩ := rxWorkLoop_frame 5 a
    simp only [rxWorkHandler, same]
  | _ => rfl

/-- Only an acquire changes the bytes the transfer owns. -/
theorem step_armedFrame (a : Adapter) (c : Call) (quiet : c.op ≠ .txAcquire) :
    armedFrame (step a c).1 = armedFrame a := by
  have moved := (toTx_step a c).1
  have kept := mailbox_current a.toTx c quiet
  rw [← moved] at kept
  exact kept

private theorem final_armed (a : Adapter) (later : List Call)
    (quiet : ∀ d ∈ later, d.op ≠ .txAcquire) :
    (final step a later).lnk.armed = a.lnk.armed ∧
      armedFrame (final step a later) = armedFrame a := by
  refine final_invariant step (I := fun b =>
    b.lnk.armed = a.lnk.armed ∧ armedFrame b = armedFrame a) ⟨rfl, rfl⟩ ?_ later quiet
  rintro b d last ⟨armed, bytes⟩
  exact ⟨(step_armed b d last).trans armed, (step_armedFrame b d last).trans bytes⟩

/-- **Refinement.** After `rimlink_init` every run of calls hands out the frames
of the mailbox and counts `stale_clear` as it does, and the buffer of an acquire
keeps its bytes under any calls until the next acquire. -/
theorem tx_refines_mailbox (id : RimId) (cfg : Option Bool) (t0 : ℤ) :
    (∀ calls : List Call,
      trace txObserve (init (.boot id) cfg t0) calls =
        trace TxMailbox.observe (.start id t0) calls) ∧
    ∀ (past later : List Call) (now : ℤ) (cycle : U32),
      (∀ d ∈ later, d.op ≠ .txAcquire) →
        let acquired := txAcquire (final step (init (.boot id) cfg t0) past) now cycle
        (final step acquired.1 later).lnk.buf acquired.2 =
          acquired.1.lnk.buf acquired.2 := by
  constructor
  · intro calls
    exact (trace_eq_of_simulation observe_simulates (toTx_init id cfg t0) calls).1
  · intro past later now cycle quiet acquired
    obtain ⟨armed, bytes⟩ := final_armed acquired.1 later quiet
    simp only [armedFrame, armed] at bytes
    exact bytes

/-- A publish, a reset and a received frame between two acquires. -/
theorem tx_refines_mailbox_run :
    let past : List Call := [⟨.snapshotPublish ⟨1, 0, 0, 0, 0⟩, 3, 0⟩]
    let later : List Call := [⟨.snapshotPublish ⟨2, 0, 0, 0, 0⟩, 5, 0⟩, ⟨.statsReset, 5, 0⟩,
      ⟨.rxSubmit (fun _ => 0) 33, 6, 0⟩]
    let acquired := txAcquire (final step (init (.boot 3) (some true) 0) past) 4 0
    (final step acquired.1 later).lnk.buf acquired.2 = acquired.1.lnk.buf acquired.2 :=
  (tx_refines_mailbox 3 (some true) 0).2 _ _ 4 0 (by decide)

/-! ### The stale-input rule -/

/-- The uptime of the last publish, `t0` before any. -/
def lastPublishAt (t0 : ℤ) (past : List Call) : ℤ :=
  past.foldl (fun t c => match c.op with
    | .snapshotPublish _ => c.now
    | _ => t) t0

/-- The last snapshot published since the last acquire. -/
def unacquired (past : List Call) : Option RimInputs :=
  past.foldl (fun waiting c => match c.op with
    | .snapshotPublish inp => some inp
    | .txAcquire => none
    | _ => waiting) none

/-- The inputs that are sent as zero bytes. -/
def RimInputs.AtRest (inp : RimInputs) : Prop :=
  inp.buttons.setWidth 24 = 0 ∧ inp.axisX = 0 ∧ inp.axisY = 0 ∧ inp.encoder = 0

instance (inp : RimInputs) : Decidable inp.AtRest :=
  inferInstanceAs (Decidable (_ ∧ _ ∧ _ ∧ _))

/-- Button bytes, both axes and the encoder byte are zero. -/
structure NeutralFrame (frame : Frame) : Prop where
  buttons : ∀ k : Fin 3, frame (offButtons + k.castLE (by decide)) = 0
  axisX : frame offAxisX = 0
  axisY : frame offAxisY = 0
  encoder : frame offEncoder = 0

theorem neutralFrame_build (inp : RimInputs) (id : RimId) :
    NeutralFrame (frameBuildId inp id) ↔ inp.AtRest := by
  have bytes := button_bytes inp.buttons 0
  constructor
  · rintro ⟨buttons, axisX, axisY, encoder⟩
    simp only [frameBuildId_buttons] at buttons
    refine ⟨?_, axisX, axisY, encoder⟩
    simpa using bytes.mpr fun k => by simpa using buttons k
  · rintro ⟨buttons, axisX, axisY, encoder⟩
    refine ⟨fun k => ?_, axisX, axisY, encoder⟩
    rw [frameBuildId_buttons]
    simpa using bytes.mp (by simpa using buttons) k

/-- What the past calls say about the mailbox. -/
private structure TxHistory (t0 : ℤ) (past : List Call) (m : TxMailbox) : Prop where
  published : m.lastPublish = lastPublishAt t0 past
  waiting : ∃ id, m.pending = (unacquired past).map fun inp => frameBuildId inp id
  substituted : m.neutralSent = true → m.pending = none ∧ NeutralFrame m.current

private theorem lastPublishAt_snoc (t0 : ℤ) (past : List Call) (c : Call) :
    lastPublishAt t0 (past ++ [c]) =
      match c.op with
      | .snapshotPublish _ => c.now
      | _ => lastPublishAt t0 past := by
  simp only [lastPublishAt, List.foldl_append, List.foldl_cons, List.foldl_nil]

private theorem unacquired_snoc (past : List Call) (c : Call) :
    unacquired (past ++ [c]) =
      match c.op with
      | .snapshotPublish inp => some inp
      | .txAcquire => none
      | _ => unacquired past := by
  simp only [unacquired, List.foldl_append, List.foldl_cons, List.foldl_nil]

private theorem acquire_history {t0 : ℤ} {past : List Call} {m : TxMailbox}
    (held : TxHistory t0 past m) (c : Call) (acquired : c.op = .txAcquire) :
    TxHistory t0 (past ++ [c]) (m.acquire c.now) := by
  have unchanged := lastPublishAt_snoc t0 past c
  have nothing := unacquired_snoc past c
  rw [acquired] at unchanged nothing
  have neutral := (neutralFrame_build .neutral m.identity).mpr ⟨rfl, rfl, rfl, rfl⟩
  unfold TxMailbox.acquire
  split
  -- the pending frame is taken; the neutral one was not sent since its publish
  next frame posted =>
    refine ⟨held.published.trans unchanged.symm, ⟨0, ?_⟩, fun sent => ?_⟩
    · rw [nothing]
      simp only [Mailbox.take, posted, Option.map_none]
    · have free := (held.substituted sent).1
      rw [posted] at free
      cases free
  next empty =>
    split
    -- the stale rule fires: the neutral frame is in force from here on
    · exact ⟨held.published.trans unchanged.symm, ⟨0, by rw [nothing]; exact empty⟩,
        fun _ => ⟨empty, neutral⟩⟩
    · exact ⟨held.published.trans unchanged.symm, ⟨0, by rw [nothing]; exact empty⟩,
        held.substituted⟩

private theorem step_history {t0 : ℤ} {past : List Call} {m : TxMailbox}
    (held : TxHistory t0 past m) (c : Call) : TxHistory t0 (past ++ [c]) (m.step c).1 := by
  have published := lastPublishAt_snoc t0 past c
  have waiting := unacquired_snoc past c
  unfold TxMailbox.step
  cases called : c.op with
  | snapshotPublish inp =>
    rw [called] at published waiting
    exact ⟨published.symm, ⟨m.identity, by rw [waiting]; rfl⟩, fun sent => by cases sent⟩
  | txAcquire => exact acquire_history held c called
  | _ =>
    rw [called] at published waiting
    exact ⟨published ▸ held.published, by rw [waiting]; exact held.waiting, held.substituted⟩

private theorem final_toTx (a : Adapter) (calls : List Call) :
    (final step a calls).toTx = final TxMailbox.step a.toTx calls := by
  induction calls using List.reverseRecOn with
  | nil => rfl
  | append_singleton past c ih => rw [final_snoc, final_snoc, (toTx_step _ c).1, ih]

private theorem run_history (id : RimId) (cfg : Option Bool) (t0 : ℤ) (past : List Call) :
    TxHistory t0 past (final step (init (.boot id) cfg t0) past).toTx := by
  rw [final_toTx, toTx_init]
  refine run_induction TxMailbox.step (P := fun past _ m => TxHistory t0 past m) ?_ ?_ past
  · exact ⟨rfl, ⟨0, rfl⟩, fun sent => by cases sent⟩
  · exact fun past _ m c held => step_history held c

/-- A late acquire hands out a neutral frame if and only if no snapshot with
something in it is waiting. -/
private theorem acquire_neutral_iff {t0 : ℤ} {past : List Call} {m : TxMailbox}
    (held : TxHistory t0 past m) (now : ℤ) (late : staleMs < now - lastPublishAt t0 past) :
    NeutralFrame (m.acquire now).current ↔ ∀ inp, unacquired past = some inp → inp.AtRest := by
  obtain ⟨id, posted⟩ := held.waiting
  unfold TxMailbox.acquire
  cases waiting : unacquired past with
  -- a waiting snapshot is sent as it is, however late
  | some inp =>
    rw [waiting, Option.map_some] at posted
    rw [posted]
    simp only [Mailbox.take, posted, neutralFrame_build, Option.some.injEq, forall_eq']
  | none =>
    rw [waiting, Option.map_none] at posted
    rw [posted]
    simp only [reduceCtorEq, false_implies, implies_true, iff_true]
    split
    · exact (neutralFrame_build .neutral m.identity).mpr ⟨rfl, rfl, rfl, rfl⟩
    next fed =>
      -- silent for too long and not stale, so the neutral frame was sent before
      have sent : m.neutralSent = true := by
        by_contra unsent
        exact fed ⟨by simpa using unsent, held.published ▸ late⟩
      exact (held.substituted sent).2

/-- **Stale-input rule.** An acquire more than 50 ms after the last publish
returns a neutral frame if and only if no snapshot was published since the
previous acquire, or that snapshot has nothing pressed, both axes at zero and no
encoder step. -/
theorem stale_acquire_neutral_iff (id : RimId) (cfg : Option Bool) (t0 : ℤ) (past : List Call)
    (now : ℤ) (cycle : U32) (late : staleMs < now - lastPublishAt t0 past) :
    let acquired := txAcquire (final step (init (.boot id) cfg t0) past) now cycle
    NeutralFrame (acquired.1.lnk.buf acquired.2) ↔
      ∀ inp, unacquired past = some inp → inp.AtRest := by
  intro acquired
  have handed : acquired.1.lnk.buf acquired.2 =
      ((final step (init (.boot id) cfg t0) past).toTx.acquire now).current :=
    congrArg (fun m : TxMailbox => m.current) (toTx_txAcquire _ now cycle)
  rw [handed]
  exact acquire_neutral_iff (run_history id cfg t0 past) now late

/-- Two publishes and two acquires, the last one 51 ms after the last publish. -/
theorem stale_acquire_neutral_run :
    let past : List Call := [⟨.snapshotPublish ⟨1, 9, 9, 1, 0⟩, 3, 0⟩, ⟨.txAcquire, 4, 0⟩,
      ⟨.snapshotPublish ⟨2, 9, 9, 0, 0⟩, 5, 0⟩, ⟨.txAcquire, 6, 0⟩]
    let acquired := txAcquire (final step (init (.boot 3) (some true) 0) past) 56 0
    NeutralFrame (acquired.1.lnk.buf acquired.2) :=
  (stale_acquire_neutral_iff 3 (some true) 0 _ 56 0 (by decide)).mpr (by decide)

/-- A snapshot with one button pressed, acquired 100 ms later, is sent. -/
theorem stale_snapshot_sent :
    let past : List Call := [⟨.snapshotPublish ⟨1, 0, 0, 0, 0⟩, 0, 0⟩]
    let acquired := txAcquire (final step (init (.boot 3) (some true) 0) past) 100 0
    staleMs < 100 - lastPublishAt 0 past ∧ ¬ NeutralFrame (acquired.1.lnk.buf acquired.2) := by
  refine ⟨by decide, fun neutral => ?_⟩
  have pressed := neutral.buttons 0
  revert pressed
  decide

end FanatecWheel.Rimlink
