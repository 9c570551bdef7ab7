import FanatecWheel.Properties.ChangePublishing
import FanatecWheel.Properties.EncoderDelivery

/-!
# A live input thread is not stale

The input thread and the link each have a clock of their own: the one counts ticks
without a change, the other milliseconds since the last publish. The counter bounds the
time, as long as the ticks keep coming.
-/

namespace FanatecWheel.App

open Foundation Rimlink

/-! ### Ticks and calls in time -/

/-- The input service, the link, the uptime, and the last tick. -/
structure LiveSystem where
  log : PublishLog
  link : Adapter
  now : ℤ
  lastTick : Option ℤ

/-- A tick, a call of another thread on the input service, or any call of the adapter. -/
inductive LiveAct
  | tick (x : Samples) (now : ℤ)
  | shell (c : InputCall)
  | link (c : Call)

inductive LiveEvent
  | ticked (now : ℤ) (published : Bool)
  | called
deriving DecidableEq

def LiveEvent.isTick : LiveEvent → Bool
  | .ticked _ _ => true
  | .called => false

def LiveEvent.publishes : LiveEvent → Bool
  | .ticked _ published => published
  | .called => false

def tickCount (events : List LiveEvent) : ℕ := events.countP LiveEvent.isTick

/-- Time does not go back, and a tick comes at most 2 ms after the one before it. -/
def live (settings : RimSettings) (levels : Fin 4 → AbLevel) (id : RimId) (cfg : Option Bool)
    (t0 : ℤ) : Machine LiveSystem LiveAct LiveEvent where
  start := ⟨.boot settings levels, init (.boot id) cfg t0, t0, none⟩
  step s
    | .tick x now =>
      if s.now ≤ now ∧ ∀ τ ∈ s.lastTick, now ≤ τ + 2 then
        let ticked := publishStep s.log (.tick x)
        some (⟨ticked.1, publishIfSome s.link ticked.2 now, now, some now⟩,
          .ticked now ticked.2.isSome)
      else none
    | .shell c => some ({ s with log := (publishStep s.log (.shell c)).1 }, .called)
    | .link c =>
      if s.now ≤ c.now then some ({ s with link := (step s.link c).1, now := c.now }, .called)
      else none

/-! ### What a step does to the two clocks -/

private theorem step_lastPublish (a : Adapter) (c : Call) :
    (step a c).1.lnk.lastPublish = a.lnk.lastPublish ∨ (step a c).1.lnk.lastPublish = c.now := by
  have moved := congrArg TxMailbox.lastPublish (toTx_step a c).1
  have read : ∀ b : Adapter, b.toTx.lastPublish = b.lnk.lastPublish := fun _ => rfl
  rw [read] at moved
  rw [moved]
  unfold TxMailbox.step
  cases c.op with
  | snapshotPublish inp => exact .inr rfl
  | txAcquire =>
    left
    simp only [TxMailbox.acquire]
    split
    · rfl
    · split <;> rfl
  | _ => exact .inl rfl

/-- A tick publishes or counts. -/
theorem tick_hold (s : InputSvc) (x : Samples) (held : s.hold.toNat < 20) :
    ((inputTick s x).2.isSome = true ∧ (inputTick s x).1.hold.toNat ≤ s.hold.toNat) ∨
      ((inputTick s x).2 = none ∧ ¬ s.memory.Changed (inputCompose s x).2 ∧
        (inputTick s x).1.hold.toNat = s.hold.toNat + 1 ∧ s.hold.toNat + 1 < 20) := by
  have counted : (s.hold + 1).toNat = s.hold.toNat + 1 := by
    have one : (1 : U32).toNat = 1 := rfl
    rw [BitVec.toNat_add, one]
    omega
  rcases inputTick_cases s x with ⟨-, published, memory⟩ | ⟨-, -, published, memory⟩ |
    ⟨quiet, early, silent, memory⟩
  · have hold : (inputTick s x).1.hold = s.hold := congrArg PublishMemory.hold memory
    exact .inl ⟨by rw [published, Option.isSome_some], le_of_eq (congrArg BitVec.toNat hold)⟩
  · have hold : (inputTick s x).1.hold = 0 := congrArg PublishMemory.hold memory
    exact .inl ⟨by rw [published, Option.isSome_some], by rw [hold]; exact Nat.zero_le _⟩
  · have hold : (inputTick s x).1.hold = s.hold + 1 := congrArg PublishMemory.hold memory
    have below := BitVec.lt_def.mp early
    rw [counted] at below
    exact .inr ⟨silent, quiet, by rw [hold, counted], below⟩

/-! ### The counter bounds the time -/

/-- The counter of unchanged ticks bounds the ticks and the time since the last publish. -/
structure Counting (outs : List LiveEvent) (s : LiveSystem) : Prop where
  faithful : s.log.Faithful
  first : s.lastTick = none → s.log.last = none ∧ tickCount outs = 0
  held : s.log.input.hold.toNat < 20
  inTime : ∀ τ ∈ s.lastTick,
    τ ≤ s.now ∧ τ ≤ s.link.lnk.lastPublish + 2 * s.log.input.hold.toNat
  latest : ∀ τ published, .ticked τ published ∈ outs → ∃ last ∈ s.lastTick, τ ≤ last
  /-- The ticks since the last publish. -/
  pending : ∀ window, window <:+ outs → (∀ e ∈ window, e.publishes = false) →
    tickCount window ≤ s.log.input.hold.toNat
  windows : ∀ window, window <:+: outs → (∀ e ∈ window, e.publishes = false) →
    tickCount window < 20

private theorem counting_start (settings : RimSettings) (levels : Fin 4 → AbLevel) (id : RimId)
    (cfg : Option Bool) (t0 : ℤ) : Counting [] (live settings levels id cfg t0).start where
  faithful := PublishLog.boot_faithful settings levels
  first := fun _ => ⟨rfl, rfl⟩
  held :=
    have zero : (0 : U32).toNat < 20 := by decide
    zero
  inTime := fun _ member => nomatch member
  latest := fun _ _ member => nomatch member
  pending := by
    intro window suffix _
    rw [List.suffix_nil.mp suffix]
    exact Nat.zero_le _
  windows := by
    intro window inside _
    rw [List.infix_nil.mp inside]
    decide

private theorem tickCount_snoc (events : List LiveEvent) (e : LiveEvent) :
    tickCount (events ++ [e]) = tickCount events + e.isTick.toNat := by
  simp only [tickCount, List.countP_append, List.countP_singleton]
  cases e.isTick <;> rfl

/-- Once the ticks since the last publish are bounded by the counter, so is every stretch
without a publish. -/
private theorem windows_snoc {outs : List LiveEvent} {e : LiveEvent} {hold : ℕ} (held : hold < 20)
    (pending : ∀ window, window <:+ outs ++ [e] → (∀ e ∈ window, e.publishes = false) →
      tickCount window ≤ hold)
    (windows : ∀ window, window <:+: outs → (∀ e ∈ window, e.publishes = false) →
      tickCount window < 20) :
    ∀ window, window <:+: outs ++ [e] → (∀ e ∈ window, e.publishes = false) →
      tickCount window < 20 := by
  intro window inside silent
  rcases List.infix_concat_iff.mp inside with atEnd | earlier
  · exact lt_of_le_of_lt (pending window atEnd silent) held
  · exact windows window earlier silent

/-- The ticks since the last publish after one more event. -/
private theorem pending_snoc {outs : List LiveEvent} {e : LiveEvent} {hold hold' : ℕ}
    (pending : ∀ window, window <:+ outs → (∀ e ∈ window, e.publishes = false) →
      tickCount window ≤ hold)
    (counted : e.publishes = true ∨ hold + e.isTick.toNat ≤ hold') :
    ∀ window, window <:+ outs ++ [e] → (∀ e ∈ window, e.publishes = false) →
      tickCount window ≤ hold' := by
  intro window atEnd silent
  rcases List.suffix_concat_iff.mp atEnd with rfl | ⟨before, rfl, suffix⟩
  · exact Nat.zero_le _
  · have quiet : e.publishes = false := silent e (by simp)
    rcases counted with publishes | counted
    · rw [publishes] at quiet
      cases quiet
    · have bound := pending before suffix fun x member => silent x (List.mem_append_left _ member)
      rw [tickCount_snoc]
      omega

/-- An event that is no tick, after which the last publish is no older. -/
private theorem counting_called {outs : List LiveEvent} {s t : LiveSystem} (counting : Counting outs s)
    (faithful : t.log.Faithful) (last : t.log.last = s.log.last)
    (hold : t.log.input.hold = s.log.input.hold) (tick : t.lastTick = s.lastTick)
    (later : s.now ≤ t.now)
    (fed : t.link.lnk.lastPublish = s.link.lnk.lastPublish ∨ t.link.lnk.lastPublish = t.now) :
    Counting (outs ++ [.called]) t := by
  have pending : ∀ window, window <:+ outs ++ [.called] → (∀ e ∈ window, e.publishes = false) →
      tickCount window ≤ t.log.input.hold.toNat :=
    pending_snoc counting.pending (.inr (by rw [hold]; exact le_refl _))
  refine ⟨faithful, fun none => ?_, hold ▸ counting.held, fun τ member => ?_,
    fun τ published member => ?_, pending, windows_snoc (hold ▸ counting.held) pending
      counting.windows⟩
  · obtain ⟨unpublished, count⟩ := counting.first (tick ▸ none)
    exact ⟨last.trans unpublished, by rw [tickCount_snoc, count]; rfl⟩
  · obtain ⟨past, bound⟩ := counting.inTime τ (tick ▸ member)
    rw [hold]
    refine ⟨past.trans later, ?_⟩
    rcases fed with same | now
    · rw [same]
      exact bound
    · -- a publish from elsewhere is no earlier than the last tick
      rw [now]
      omega
  · rw [tick]
    rcases List.mem_append.mp member with earlier | added
    · exact counting.latest τ published earlier
    · simp at added

private theorem counting_tick {outs : List LiveEvent} {s : LiveSystem} (counting : Counting outs s)
    (x : Samples) (now : ℤ) (later : s.now ≤ now) (soon : ∀ τ ∈ s.lastTick, now ≤ τ + 2) :
    Counting (outs ++ [.ticked now (inputTick s.log.input x).2.isSome])
      ⟨(publishStep s.log (.tick x)).1, publishIfSome s.link (inputTick s.log.input x).2 now, now,
        some now⟩ := by
  have faithful := publishStep_faithful counting.faithful (.tick x)
  have latest : ∀ τ published, LiveEvent.ticked τ published ∈
      outs ++ [.ticked now (inputTick s.log.input x).2.isSome] → ∃ last ∈ some now, τ ≤ last := by
    intro τ published member
    refine ⟨now, rfl, ?_⟩
    rcases List.mem_append.mp member with earlier | added
    · obtain ⟨last, ticked, before⟩ := counting.latest τ published earlier
      exact before.trans ((counting.inTime last ticked).1.trans later)
    · simp only [List.mem_singleton, LiveEvent.ticked.injEq] at added
      exact le_of_eq added.1
  rcases tick_hold s.log.input x counting.held with
    ⟨published, hold⟩ | ⟨silent, quiet, hold, below⟩
  · -- the clock of the link starts again
    have held : (inputTick s.log.input x).1.hold.toNat < 20 := lt_of_le_of_lt hold counting.held
    have pending : ∀ window,
        window <:+ outs ++ [.ticked now (inputTick s.log.input x).2.isSome] →
        (∀ e ∈ window, e.publishes = false) →
        tickCount window ≤ (inputTick s.log.input x).1.hold.toNat :=
      pending_snoc counting.pending (.inl published)
    refine ⟨faithful, (fun never => nomatch never), held, ?_, latest, pending,
      windows_snoc held pending counting.windows⟩
    intro τ member
    obtain ⟨snap, same⟩ := Option.isSome_iff_exists.mp published
    have fed : (publishIfSome s.link (inputTick s.log.input x).2 now).lnk.lastPublish = now := by
      rw [same]
      rfl
    cases member
    dsimp only
    rw [fed]
    omega
  · have some_tick : ∃ τ, s.lastTick = some τ := by
      by_contra never
      have first : s.lastTick = none := Option.eq_none_iff_forall_ne_some.mpr
        fun τ ticked => never ⟨τ, ticked⟩
      exact quiet (counting.faithful.first_changes (counting.first first).1 x)
    obtain ⟨τ, ticked⟩ := some_tick
    have held : (inputTick s.log.input x).1.hold.toNat < 20 := by omega
    have pending : ∀ window,
        window <:+ outs ++ [.ticked now (inputTick s.log.input x).2.isSome] →
        (∀ e ∈ window, e.publishes = false) →
        tickCount window ≤ (inputTick s.log.input x).1.hold.toNat :=
      pending_snoc counting.pending (.inr (le_of_eq hold.symm))
    refine ⟨faithful, (fun never => nomatch never), held, ?_, latest, pending,
      windows_snoc held pending counting.windows⟩
    intro σ member
    -- two more milliseconds at most, and one more tick counted
    have bound := (counting.inTime τ ticked).2
    have step := soon τ ticked
    have fed : (publishIfSome s.link (inputTick s.log.input x).2 now).lnk.lastPublish =
        s.link.lnk.lastPublish := by
      rw [silent]
      rfl
    have counted : (publishStep s.log (.tick x)).1.input.hold.toNat =
        s.log.input.hold.toNat + 1 := hold
    cases member
    dsimp only
    rw [fed, counted]
    omega

private theorem counting_step {settings : RimSettings} {levels : Fin 4 → AbLevel} {id : RimId}
    {cfg : Option Bool} {t0 : ℤ} {outs : List LiveEvent} {s t : LiveSystem} {a : LiveAct}
    {out : LiveEvent} (counting : Counting outs s)
    (stepped : (live settings levels id cfg t0).step s a = some (t, out)) :
    Counting (outs ++ [out]) t := by
  cases a with
  | tick x now =>
    simp only [live] at stepped
    split at stepped
    next due =>
      cases stepped
      exact counting_tick counting x now due.1 due.2
    · cases stepped
  | shell c =>
    -- a shell call publishes nothing, and the hold goes on
    cases stepped
    have hold := congrArg PublishMemory.hold (inputCall_frame s.log.input c).1
    exact counting_called counting (publishStep_faithful counting.faithful (.shell c)) rfl hold rfl
      (le_refl _) (.inl rfl)
  | link c =>
    simp only [live] at stepped
    split at stepped
    next later =>
      cases stepped
      exact counting_called counting counting.faithful rfl rfl rfl later
        (step_lastPublish s.link c)
    · cases stepped

theorem counting_run {settings : RimSettings} {levels : Fin 4 → AbLevel} {id : RimId}
    {cfg : Option Bool} {t0 : ℤ} {outs : List LiveEvent} {s : LiveSystem}
    (reached : (live settings levels id cfg t0).Reaches outs s) : Counting outs s :=
  reached.induct (counting_start settings levels id cfg t0)
    fun _ _ _ _ _ counting _ stepped => counting_step counting stepped

/-! ### The stale rule stays quiet -/

theorem acquire_fed (m : TxMailbox) (now : ℤ) (fed : now - m.lastPublish ≤ staleMs) :
    ¬ m.Stale now ∧ (m.acquire now).staleClear = m.staleClear := by
  have quiet : ¬ m.Stale now := fun stale => absurd stale.2 (not_lt.mpr fed)
  refine ⟨quiet, ?_⟩
  unfold TxMailbox.acquire
  split
  · rfl
  · rw [if_neg quiet]

/-- **A live input thread publishes in time.** From the first tick on every twenty
consecutive ticks publish, and an acquire at most 2 ms after some tick does not take the
stale branch. -/
theorem live_not_stale {settings : RimSettings} {levels : Fin 4 → AbLevel} {id : RimId}
    {cfg : Option Bool} {t0 : ℤ} {outs : List LiveEvent} {s : LiveSystem}
    (reached : (live settings levels id cfg t0).Reaches outs s) :
    (∀ window, window <:+: outs → 20 ≤ tickCount window →
      ∃ e ∈ window, e.publishes = true) ∧
    ∀ τ published now cycle, .ticked τ published ∈ outs → s.now ≤ now → now ≤ τ + 2 →
      ¬ s.link.toTx.Stale now ∧
        (txAcquire s.link now cycle).1.lnk.stats.staleClear = s.link.lnk.stats.staleClear := by
  have counting := counting_run reached
  constructor
  · intro window inside long
    by_contra silent
    have short := counting.windows window inside fun e member => by
      by_contra publishes
      exact silent ⟨e, member, Bool.not_eq_false _ ▸ publishes⟩
    omega
  · intro τ published now cycle member later soon
    obtain ⟨last, ticked, before⟩ := counting.latest τ published member
    -- 19 ticks of 2 ms at most since the last publish, and 2 ms more to the acquire
    have bound := (counting.inTime last ticked).2
    have held := counting.held
    have fed : now - s.link.toTx.lastPublish ≤ staleMs := by
      have read : s.link.toTx.lastPublish = s.link.lnk.lastPublish := rfl
      rw [read, staleMs]
      omega
    obtain ⟨quiet, same⟩ := acquire_fed s.link.toTx now fed
    rw [← toTx_txAcquire s.link now cycle] at same
    exact ⟨quiet, same⟩

/-- A button held over twenty-one ticks, each 2 ms after the one before it. -/
def heldTicks : List LiveAct := (List.range 21).map fun k => .tick (buttonOnly 0) (2 * k)

theorem live_not_stale_run : ∃ outs s,
    (live .default (fun _ => ⟨false, false⟩) 3 (some true) 0).run
      (live .default (fun _ => ⟨false, false⟩) 3 (some true) 0).start heldTicks = some (s, outs) ∧
    (∀ window, window <:+: outs → 20 ≤ tickCount window → ∃ e ∈ window, e.publishes = true) ∧
    (txAcquire s.link 42 0).1.lnk.stats.staleClear = s.link.lnk.stats.staleClear := by
  have ran : ((live .default (fun _ => ⟨false, false⟩) 3 (some true) 0).run
      (live .default (fun _ => ⟨false, false⟩) 3 (some true) 0).start heldTicks).map
        (fun (s, outs) => (s.now, decide (.ticked 40 false ∈ outs))) = some (40, true) := by
    decide +kernel
  obtain ⟨⟨s, outs⟩, reached, fields⟩ := Option.map_eq_some_iff.mp ran
  simp only [Prod.mk.injEq, decide_eq_true_eq] at fields
  obtain ⟨published, fed⟩ := live_not_stale (Machine.reaches_of_run reached)
  have last := fed 40 false 42 0 fields.2 (by rw [fields.1]; decide) (by decide)
  exact ⟨outs, s, reached, published, last.2⟩

end FanatecWheel.App
