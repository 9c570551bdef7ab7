import FanatecWheel.Properties.LiveInput

/-!
# The wire is up to date

While the input thread lives and nobody else publishes, every frame handed to the transfer is
that of a snapshot composed in the last twenty ticks, with the buttons of the latest one: a
button held for two ticks is on the wire, and one let go for two ticks is not.
-/

namespace FanatecWheel.App

open Foundation Rimlink

/-! ### Ticks and frames -/

/-- A tick with the service it found, a frame handed to the transfer, or another step. -/
inductive WireEvent
  | ticked (svc : InputSvc) (x : Samples)
  | sent (frame : Frame)
  | other

def sentEvent (handed : Option Frame) : WireEvent := handed.elim .other .sent

def wireEvent (s : LiveSystem) : LiveAct → WireEvent
  | .tick x _ => .ticked s.log.input x
  | .shell _ => .other
  | .link c => sentEvent (handedOut (step s.link c).1 (step s.link c).2)

/-- The live system, observed at the input thread and at the wire. -/
def wire (settings : RimSettings) (levels : Fin 4 → AbLevel) (id : RimId) (cfg : Option Bool)
    (t0 : ℤ) : Machine LiveSystem LiveAct WireEvent where
  start := (live settings levels id cfg t0).start
  step s a := ((live settings levels id cfg t0).step s a).map fun (t, _) => (t, wireEvent s a)

def publishes (c : Call) : Bool :=
  match c.op with
  | .snapshotPublish _ => true
  | _ => false

/-- Only the input thread publishes, and a transfer is armed at most 2 ms after a tick. -/
def Alone (s : LiveSystem) : LiveAct → Prop
  | .link c => publishes c = false ∧ (c.op = .txAcquire → ∀ τ ∈ s.lastTick, c.now ≤ τ + 2)
  | _ => True

instance (s : LiveSystem) (a : LiveAct) : Decidable (Alone s a) :=
  match a with
  | .link _ => inferInstanceAs (Decidable (_ ∧ _))
  | .tick _ _ => isTrue trivial
  | .shell _ => isTrue trivial

def WireEvent.tick? : WireEvent → Option (InputSvc × Samples)
  | .ticked svc x => some (svc, x)
  | _ => none

/-- The ticks, oldest first. -/
def ticks (events : List WireEvent) : List (InputSvc × Samples) := events.filterMap WireEvent.tick?

/-- The snapshots they composed. -/
def composed (events : List WireEvent) : List RimInputs :=
  (ticks events).map fun t => (inputCompose t.1 t.2).2

theorem ticks_snoc (events : List WireEvent) (e : WireEvent) :
    ticks (events ++ [e]) = ticks events ++ e.tick?.toList := by
  rw [ticks, List.filterMap_append]
  cases ticked : e.tick? <;> simp [ticks, ticked]

theorem composed_snoc (events : List WireEvent) (e : WireEvent) : composed (events ++ [e]) =
    composed events ++ e.tick?.toList.map fun t => (inputCompose t.1 t.2).2 := by
  rw [composed, ticks_snoc, List.map_append, composed]

/-! ### The frame of the wire -/

/-- The snapshots since this one had its buttons and its signature, and no encoder step. -/
structure Repeats (snap : RimInputs) (after : List RimInputs) : Prop where
  buttons : ∀ later ∈ after, later.buttons = snap.buttons
  sig : ∀ later ∈ after, axisSig later = axisSig snap
  rests : ∀ later ∈ after, later.encoder = 0

theorem repeats_nil (snap : RimInputs) : Repeats snap [] :=
  ⟨List.forall_mem_nil _, List.forall_mem_nil _, List.forall_mem_nil _⟩

/-- The frame carries a snapshot that was composed fewer than twenty ticks ago and repeated
since. -/
def Current (frame : Frame) (snaps : List RimInputs) : Prop :=
  ∃ id snap before after, snaps = before ++ snap :: after ∧ after.length < 20 ∧
    Repeats snap after ∧ frame = frameBuildId snap id

/-- A logical button of a frame. -/
def frameBit (frame : Frame) (b : ℕ) : Bool :=
  if inside : (b - 1) / 8 < 3 then
    (frame (offButtons + (⟨(b - 1) / 8, inside⟩ : Fin 3).castLE (by decide))).getLsbD ((b - 1) % 8)
  else false

theorem frameBit_build (snap : RimInputs) (id : RimId) {b : ℕ} (known : b ≤ 24) :
    frameBit (frameBuildId snap id) b = bitSet snap.buttons b := by
  have inside : (b - 1) / 8 < 3 := by omega
  have low : (b - 1) % 8 < 8 := Nat.mod_lt _ (by decide)
  rw [frameBit, dif_pos inside, frameBuildId_buttons, BitVec.getLsbD_setWidth,
    BitVec.getLsbD_ushiftRight, bitSet, Nat.div_add_mod]
  simp only [low, decide_true, Bool.true_and]

/-- The buttons of the wire are those of the latest tick. -/
theorem current_bits {frame : Frame} {snaps : List RimInputs} (current : Current frame snaps)
    {latest : RimInputs} (last : latest ∈ snaps.getLast?) {b : ℕ} (known : b ≤ 24) :
    frameBit frame b = bitSet latest.buttons b := by
  obtain ⟨id, snap, before, after, rfl, -, repeats, rfl⟩ := current
  rw [frameBit_build snap id known]
  rw [List.getLast?_append, List.getLast?_cons, Option.some_or, Option.mem_some_iff] at last
  rcases List.eq_nil_or_concat' after with rfl | ⟨earlier, newest, rfl⟩
  · exact congrArg (bitSet ·.buttons b) last
  · rw [List.getLast?_concat, Option.getD_some] at last
    rw [← last, repeats.buttons newest (List.mem_append_right _ (List.mem_singleton.mpr rfl))]

/-! ### What a tick leaves for the next one -/

private theorem dpadStage_btnDb (s : InputSvc) (x : Samples) :
    (dpadStage s x).btnDb = s.btnDb := by
  unfold dpadStage
  split <;> rfl

private theorem clutchModeSet_btnDb {s t : InputSvc} {mode bite : U8}
    (set : inputSvcClutchModeSet s mode bite = some t) : t.btnDb = s.btnDb := by
  unfold inputSvcClutchModeSet at set
  split at set <;> cases set
  rfl

private theorem clutchChordCheck_btnDb (s : InputSvc) (buttons : U32) :
    (clutchChordCheck s buttons).btnDb = s.btnDb := by
  obtain ⟨chord, same | ⟨next, t, set, same⟩⟩ := clutchChordCheck_cases s buttons
  · rw [same]
  · have kept := clutchModeSet_btnDb set
    rw [same]
    exact kept

/-- The debouncers are fed once a tick. -/
theorem inputTick_btnDb (s : InputSvc) (x : Samples) :
    (inputTick s x).1.btnDb = fun i => (debounceFeed (s.btnDb i) (x.buttons i)).1 := by
  have composed : (inputCompose s x).1.btnDb =
      fun i => (debounceFeed (s.btnDb i) (x.buttons i)).1 := by
    simp only [inputCompose, clutchChordCheck_btnDb, consumeStage, clutchStage, funkyStage,
      encoderStage, dpadStage_btnDb, buttonsStage]
  rw [← composed]
  simp only [inputTick]
  rcases publishStage_cases (inputCompose s x).1 (inputCompose s x).2 with
    ⟨-, same⟩ | ⟨-, -, same⟩ | ⟨-, -, same⟩ <;> rw [same]

/-- No call of another thread feeds them. -/
theorem inputCall_btnDb (s : InputSvc) (c : InputCall) : (inputCall s c).btnDb = s.btnDb := by
  cases c with
  | mapSet idx bit =>
    simp only [inputCall, inputSvcMapSet]
    split
    · split <;> rfl
    · rfl
  | dpadCal thr hyst =>
    simp only [inputCall, inputSvcDpadCal]
    split <;> rfl
  | clutchModeSet mode bite =>
    cases set : inputSvcClutchModeSet s mode bite with
    | none => simp only [inputCall, set, Option.getD_none]
    | some t =>
      simp only [inputCall, set, Option.getD_some]
      exact clutchModeSet_btnDb set
  | manualBit bit on =>
    simp only [inputCall, inputSvcManualBit]
    split
    · rfl
    · split <;> rfl
  | manualToggle bit =>
    simp only [inputCall, inputSvcManualToggle]
    split <;> rfl

/-- Two equal samples in a row are the debounced state. -/
theorem debounceFeed_steady {d : Debounce} {raw : Bool} (same : d.prev = raw) :
    (debounceFeed d raw).2 = raw := by
  subst same
  unfold debounceFeed
  dsimp only
  split
  · rfl
  next settled =>
    simp only [true_and, ne_eq, not_not] at settled
    exact settled.symm

/-! ### One step -/

section Steps

variable {settings : RimSettings} {levels : Fin 4 → AbLevel} {id : RimId} {cfg : Option Bool}
  {t0 : ℤ} {events : List WireEvent} {s : LiveSystem}

/-- The frame that the next transfer gets, while the stale rule is quiet. -/
def nextFrame (a : Adapter) : Frame := a.toTx.pending.getD a.toTx.current

/-- The last published snapshot among the composed ones, and in the mailbox. -/
structure Published (snaps : List RimInputs) (s : LiveSystem) : Prop where
  unpublished : s.log.last = none → snaps = []
  recent : ∀ last ∈ s.log.last, ∃ before after, snaps = before ++ last :: after ∧
    after.length ≤ s.log.input.hold.toNat ∧ Repeats last after
  posted : ∀ last ∈ s.log.last, ∃ id, nextFrame s.link = frameBuildId last id

private theorem published_tick {snaps : List RimInputs} (published : Published snaps s)
    (counting : ∃ outs, Counting outs s) (x : Samples) (now : ℤ) :
    Published (snaps ++ [(inputCompose s.log.input x).2])
      ⟨(publishStep s.log (.tick x)).1, publishIfSome s.link (inputTick s.log.input x).2 now, now,
        some now⟩ := by
  obtain ⟨outs, counting⟩ := counting
  cases ticked : (inputTick s.log.input x).2 with
  -- published now: the snapshot is the newest one and the one in the mailbox
  | some snap =>
    have same := inputTick_published ticked
    have logged : (publishStep s.log (.tick x)).1.last = some snap := by
      simp only [publishStep, ticked, Option.some_or]
    refine ⟨fun never => ?_, fun last member => ?_, fun last member => ?_⟩
    · rw [logged] at never
      cases never
    · rw [logged, Option.mem_some_iff] at member
      exact ⟨snaps, [], by rw [← same, member], Nat.zero_le _, repeats_nil last⟩
    · rw [logged, Option.mem_some_iff] at member
      refine ⟨s.link.currentId, ?_⟩
      rw [← member, publishIfSome, nextFrame, toTx_snapshotPublish]
      rfl
  | none =>
    have logged : (publishStep s.log (.tick x)).1.last = s.log.last := by
      simp only [publishStep, ticked, Option.none_or]
    -- not published: the snapshot repeats the last published one
    rcases tick_hold s.log.input x counting.held with ⟨some_snap, -⟩ | ⟨-, quiet, hold, -⟩
    · rw [ticked] at some_snap
      cases some_snap
    · have first : s.log.last ≠ none := fun never => quiet (counting.faithful.first_changes never x)
      refine ⟨fun never => absurd (logged ▸ never) first, fun last member => ?_,
        fun last member => published.posted last (logged ▸ member)⟩
      rw [logged] at member
      obtain ⟨before, after, rfl, few, repeats⟩ := published.recent last member
      have remembered := counting.faithful.published last member
      obtain ⟨buttons, sig, rests⟩ := (s.log.input.memory.not_changed _).mp quiet
      refine ⟨before, after ++ [(inputCompose s.log.input x).2], by simp, ?_, ?_, ?_, ?_⟩
      · have counted : (publishStep s.log (.tick x)).1.input.hold.toNat =
            s.log.input.hold.toNat + 1 := hold
        rw [List.length_append, counted]
        exact Nat.succ_le_succ few
      · rw [List.forall_mem_append, List.forall_mem_singleton]
        exact ⟨repeats.buttons, buttons.trans remembered.1⟩
      · rw [List.forall_mem_append, List.forall_mem_singleton]
        exact ⟨repeats.sig, sig.trans remembered.2⟩
      · rw [List.forall_mem_append, List.forall_mem_singleton]
        exact ⟨repeats.rests, rests⟩

/-- A call that publishes nothing leaves the next frame as it is, unless the input is stale. -/
private theorem nextFrame_step (a : Adapter) {c : Call} (quiet : publishes c = false)
    (fed : c.op = .txAcquire → ¬ a.toTx.Stale c.now) : nextFrame (step a c).1 = nextFrame a := by
  have moved := (toTx_step a c).1
  rw [nextFrame, moved]
  unfold TxMailbox.step
  unfold publishes at quiet
  cases called : c.op with
  | snapshotPublish inp =>
    rw [called] at quiet
    cases quiet
  -- an acquire moves the next frame from the mailbox to the wire
  | txAcquire =>
    dsimp only
    unfold TxMailbox.acquire
    split
    next frame pending => simp only [Mailbox.take, pending, nextFrame, Option.getD_some, Option.getD_none]
    · rw [if_neg (fed called)]
      rfl
  | _ => rfl

/-- What an acquire hands out. -/
private theorem sent_nextFrame (a : Adapter) {c : Call} (fed : c.op = .txAcquire → ¬ a.toTx.Stale c.now)
    {frame : Frame} (handed : handedOut (step a c).1 (step a c).2 = some frame) :
    frame = nextFrame a := by
  rw [(toTx_step a c).2] at handed
  unfold TxMailbox.step at handed
  cases called : c.op with
  | txAcquire =>
    rw [called] at handed
    rw [← Option.some.inj handed]
    unfold TxMailbox.acquire
    split
    next frame pending => simp only [Mailbox.take, pending, nextFrame, Option.getD_some]
    next empty =>
      rw [if_neg (fed called), nextFrame, empty, Option.getD_none]
  | _ =>
    rw [called] at handed
    cases handed

/-- Two milliseconds after a tick the stale rule is quiet. -/
private theorem not_stale {outs : List LiveEvent} (counting : Counting outs s) {τ now : ℤ}
    (ticked : s.lastTick = some τ) (soon : now ≤ τ + 2) : ¬ s.link.toTx.Stale now := by
  have bound := (counting.inTime τ ticked).2
  have held := counting.held
  have read : s.link.toTx.lastPublish = s.link.lnk.lastPublish := rfl
  refine (acquire_fed s.link.toTx now ?_).1
  rw [read, staleMs]
  omega

/-- What the ticks left behind: valid settings and, in every debouncer, the sample before. -/
structure Sampled (ticks : List (InputSvc × Samples)) (s : InputSvc) : Prop where
  valid : s.settings.Valid
  found : ∀ t ∈ ticks, t.1.settings.Valid
  latest : ∀ t ∈ ticks.getLast?, ∀ i, (s.btnDb i).prev = t.2.buttons i
  steady : ∀ pair ∈ neighbours ticks, ∀ i, (pair.2.1.btnDb i).prev = pair.1.2.buttons i

private theorem sampled_tick {ticks : List (InputSvc × Samples)} {s : InputSvc}
    (sampled : Sampled ticks s) (x : Samples) : Sampled (ticks ++ [(s, x)]) (inputTick s x).1 := by
  refine ⟨inputTick_valid sampled.valid x, ?_, fun t member i => ?_, fun pair member i => ?_⟩
  · rw [List.forall_mem_append, List.forall_mem_singleton]
    exact ⟨sampled.found, sampled.valid⟩
  · rw [List.getLast?_concat, Option.mem_some_iff] at member
    rw [inputTick_btnDb, ← member]
    rfl
  -- the new pair is the tick before and this one
  · rw [neighbours_snoc, List.mem_append, List.mem_map] at member
    rcases member with earlier | ⟨t, last, rfl⟩
    · exact sampled.steady pair earlier i
    · exact sampled.latest t (Option.mem_toList.mp last) i

private theorem sampled_call {ticks : List (InputSvc × Samples)} {s : InputSvc}
    (sampled : Sampled ticks s) (c : InputCall) : Sampled ticks (inputCall s c) := by
  refine ⟨inputCall_valid sampled.valid c, sampled.found, fun t member i => ?_, sampled.steady⟩
  rw [inputCall_btnDb]
  exact sampled.latest t member i

end Steps

/-! ### Runs -/

/-- The frame is the current one. -/
def SentCurrent (before : List WireEvent) : WireEvent → Prop
  | .sent frame => composed before ≠ [] → Current frame (composed before)
  | _ => True

section Runs

variable {settings : RimSettings} {levels : Fin 4 → AbLevel} {id : RimId} {cfg : Option Bool}
  {t0 : ℤ} {events : List WireEvent} {s : LiveSystem}

variable (settings levels id cfg t0) in
/-- What holds after every event. -/
structure WireInv (events : List WireEvent) (s : LiveSystem) : Prop where
  lives : ∃ outs, (live settings levels id cfg t0).Reaches outs s
  published : Published (composed events) s
  sampled : settings.Valid → Sampled (ticks events) s.log.input
  current : Guarded SentCurrent events

/-- A step of the adapter that is not a publish. -/
private theorem wireInv_link (inv : WireInv settings levels id cfg t0 events s) {c : Call}
    (alone : Alone s (.link c))
    (lives : ∃ outs, (live settings levels id cfg t0).Reaches outs
      { s with link := (step s.link c).1, now := c.now }) :
    WireInv settings levels id cfg t0 (events ++ [wireEvent s (.link c)])
      { s with link := (step s.link c).1, now := c.now } := by
  obtain ⟨outs, reached⟩ := inv.lives
  have counting := counting_run reached
  obtain ⟨quiet, soon⟩ := alone
  have fed (some_last : s.log.last ≠ none) : c.op = .txAcquire → ¬ s.link.toTx.Stale c.now := by
    intro acquire
    obtain ⟨τ, ticked⟩ := Option.ne_none_iff_exists'.mp
      fun never => some_last (counting.first never).1
    exact not_stale counting ticked (soon acquire τ ticked)
  have untimed : (wireEvent s (.link c)).tick? = none := by
    change (sentEvent (handedOut (step s.link c).1 (step s.link c).2)).tick? = none
    cases handedOut (step s.link c).1 (step s.link c).2 <;> rfl
  have ticked : ticks (events ++ [wireEvent s (.link c)]) = ticks events := by
    rw [ticks_snoc, untimed, Option.toList_none, List.append_nil]
  have snaps : composed (events ++ [wireEvent s (.link c)]) = composed events := by
    rw [composed, ticked, composed]
  refine ⟨lives, ?_, fun valid => ticked ▸ inv.sampled valid, guarded_snoc inv.current ?_⟩
  · rw [snaps]
    refine ⟨inv.published.unpublished, inv.published.recent, fun last member => ?_⟩
    rw [nextFrame_step s.link quiet (fed (Option.ne_none_iff_exists'.mpr ⟨last, member⟩))]
    exact inv.published.posted last member
  · change SentCurrent events (sentEvent (handedOut (step s.link c).1 (step s.link c).2))
    cases handed : handedOut (step s.link c).1 (step s.link c).2 with
    | none => trivial
    | some frame =>
      intro some_tick
      have some_last : s.log.last ≠ none := fun never => some_tick (inv.published.unpublished never)
      -- the frame is that of the last published snapshot, at most the hold ago
      obtain ⟨last, logged⟩ := Option.ne_none_iff_exists'.mp some_last
      obtain ⟨before, after, snaps, few, repeats⟩ := inv.published.recent last logged
      obtain ⟨id, posted⟩ := inv.published.posted last logged
      refine ⟨id, last, before, after, snaps, lt_of_le_of_lt few counting.held, repeats, ?_⟩
      rw [sent_nextFrame s.link (fed some_last) handed, posted]

private theorem wireInv_step (inv : WireInv settings levels id cfg t0 events s) {t : LiveSystem}
    {a : LiveAct} {e : WireEvent} (alone : Alone s a)
    (stepped : (wire settings levels id cfg t0).step s a = some (t, e)) :
    WireInv settings levels id cfg t0 (events ++ [e]) t := by
  obtain ⟨⟨t', out⟩, moved, same⟩ := Option.map_eq_some_iff.mp stepped
  cases same
  have lives : ∃ outs, (live settings levels id cfg t0).Reaches outs t := by
    obtain ⟨outs, reached⟩ := inv.lives
    exact ⟨_, reached.next trivial moved⟩
  cases a with
  | tick x now =>
    simp only [live] at moved
    split at moved
    next due =>
      cases moved
      obtain ⟨outs, reached⟩ := inv.lives
      refine ⟨lives, ?_, fun valid => ?_, guarded_snoc inv.current trivial⟩
      · rw [composed_snoc]
        exact published_tick inv.published ⟨outs, counting_run reached⟩ x now
      · rw [ticks_snoc]
        exact sampled_tick (inv.sampled valid) x
    · cases moved
  | shell c =>
    cases moved
    have ticked : ticks (events ++ [.other]) = ticks events := by
      rw [ticks_snoc]
      exact List.append_nil _
    have snaps : composed (events ++ [.other]) = composed events := by
      rw [composed, ticked, composed]
    have hold := congrArg PublishMemory.hold (inputCall_frame s.log.input c).1
    refine ⟨lives, ?_, fun valid => ?_, guarded_snoc inv.current trivial⟩
    · change Published (composed (events ++ [.other])) _
      rw [snaps]
      refine ⟨inv.published.unpublished, fun last member => ?_, inv.published.posted⟩
      obtain ⟨before, after, split, few, repeats⟩ := inv.published.recent last member
      exact ⟨before, after, split, few.trans (le_of_eq (congrArg BitVec.toNat hold.symm)), repeats⟩
    · change Sampled (ticks (events ++ [.other])) _
      rw [ticked]
      exact sampled_call (inv.sampled valid) c
  | link c =>
    simp only [live] at moved
    split at moved
    · cases moved
      exact wireInv_link inv alone lives
    · cases moved

theorem wire_inv (reached : (wire settings levels id cfg t0).ReachesBy Alone events s) :
    WireInv settings levels id cfg t0 events s := by
  refine Machine.ReachesBy.induct (P := WireInv settings levels id cfg t0) ?_
    (fun _ _ _ _ _ inv alone stepped => wireInv_step inv alone stepped) reached
  refine ⟨⟨[], .start⟩, ⟨fun _ => rfl, fun _ none => (nomatch none), fun _ none => (nomatch none)⟩,
    fun valid => ?_, guarded_nil _⟩
  exact ⟨valid, List.forall_mem_nil _, fun _ none => (nomatch none), List.forall_mem_nil _⟩

/-- **The wire is up to date.** Once a tick has run, every frame handed to the transfer carries a
snapshot composed fewer than twenty ticks before and repeated by every tick since, and its
buttons are those of the latest tick. -/
theorem wire_current (reached : (wire settings levels id cfg t0).ReachesBy Alone events s) :
    Guarded (fun before e => ∀ frame, e = .sent frame → ∀ latest ∈ (composed before).getLast?,
      Current frame (composed before) ∧
        ∀ b ≤ 24, frameBit frame b = bitSet latest.buttons b) events := by
  rintro before e after split frame rfl latest last
  have some_tick : composed before ≠ [] := by
    intro never
    rw [never] at last
    cases last
  have current := (wire_inv reached).current before (.sent frame) after split some_tick
  exact ⟨current, fun b known => current_bits current last known⟩

/-- The buttons mapped to the bit read the same in both ticks. -/
def Steady (first second : InputSvc × Samples) (b : ℕ) : Prop :=
  ∀ i, (second.1.settings.buttonMap i).toNat = b → first.2.buttons i = second.2.buttons i

private theorem neighbours_prefix {α : Type*} (xs ys : List α) :
    neighbours xs ⊆ neighbours (xs ++ ys) := by
  cases xs with
  | nil => exact List.nil_subset _
  | cons x rest =>
    rw [List.cons_append, neighbours, neighbours, successive_append]
    exact List.subset_append_left ..

/-- The last two neighbours end in the last value. -/
private theorem neighbours_last {α : Type*} {xs : List α} {pair : α × α}
    (last : pair ∈ (neighbours xs).getLast?) : pair.2 ∈ xs.getLast? := by
  rcases List.eq_nil_or_concat' xs with rfl | ⟨before, x, rfl⟩
  · cases last
  rcases List.eq_nil_or_concat' before with rfl | ⟨older, y, rfl⟩
  · cases last
  · rw [neighbours_snoc, List.getLast?_concat, Option.toList_some, List.map_cons, List.map_nil,
      List.getLast?_concat, Option.mem_some_iff] at last
    rw [List.getLast?_concat, ← last]
    rfl

/-- **Held buttons are on the wire.** When the buttons of a bit read the same in the last two
ticks, the bit of every frame sent since is what they read, the last of those that share it
deciding, or comes from another control. -/
theorem held_buttons_sent (valid : settings.Valid)
    (reached : (wire settings levels id cfg t0).ReachesBy Alone events s) :
    Guarded (fun before e => ∀ frame, e = .sent frame →
      ∀ pair ∈ (neighbours (ticks before)).getLast?, ∀ b, 1 ≤ b → b ≤ 24 →
        Steady pair.1 pair.2 b →
          (frameBit frame b = true ↔
            (∃ j, (pair.2.1.settings.buttonMap j).toNat = b ∧ pair.2.2.buttons j = true ∧
              LastMapped pair.2.1 j) ∨ Elsewhere pair.2.1 pair.2.2 b)) events := by
  rintro before e after split frame rfl pair last b counted known steady
  have inv := wire_inv reached
  have sampled := inv.sampled valid
  obtain ⟨suffix, whole⟩ : ∃ suffix, ticks events = ticks before ++ suffix := by
    rw [split, ticks, List.filterMap_append]
    exact ⟨_, rfl⟩
  rw [whole] at sampled
  have ticked := neighbours_last last
  have member : pair ∈ neighbours (ticks before ++ suffix) :=
    neighbours_prefix _ _ (List.mem_of_getLast? last)
  have found := sampled.found pair.2 (List.mem_append_left _ (List.mem_of_getLast? ticked))
  have latest : (inputCompose pair.2.1 pair.2.2).2 ∈ (composed before).getLast? := by
    rw [composed, List.getLast?_map]
    exact Option.mem_map_of_mem _ ticked
  have some_tick : composed before ≠ [] := by
    intro never
    rw [never] at latest
    cases latest
  have current := inv.current before (.sent frame) after split some_tick
  rw [current_bits current latest known, composed_bits pair.2.1 pair.2.2 found.mapped b counted]
  -- two equal samples are the debounced state
  have down (j : Fin 6) (mapped : (pair.2.1.settings.buttonMap j).toNat = b) :
      pressed pair.2.1 pair.2.2 j = pair.2.2.buttons j :=
    debounceFeed_steady ((sampled.steady pair member j).trans (steady j mapped))
  refine or_congr (exists_congr fun j => and_congr_right fun mapped => ?_) Iff.rfl
  rw [down j mapped]

end Runs

/-- The first button held over two ticks, and a transfer armed. -/
def heldPress : List LiveAct :=
  heldTicks.take 2 ++ [.link ⟨.txAcquire, 3, 0⟩]

def WireEvent.frame? : WireEvent → Option Frame
  | .sent frame => some frame
  | _ => none

/-- Two ticks that read the button as held, then a frame. -/
private theorem heldPress_run : ∃ events s before first second frame,
    (wire .default (fun _ => ⟨false, false⟩) 3 (some true) 0).runBy Alone
        (wire .default (fun _ => ⟨false, false⟩) 3 (some true) 0).start heldPress =
      some (s, events) ∧ events = before ++ [.sent frame] ∧ ticks before = [first, second] ∧
      first.2.buttons = (buttonOnly 0).buttons ∧ second.2.buttons = (buttonOnly 0).buttons ∧
      second.1.settings.buttonMap = RimSettings.default.buttonMap := by
  have ran : ((wire .default (fun _ => ⟨false, false⟩) 3 (some true) 0).runBy Alone
      (wire .default (fun _ => ⟨false, false⟩) 3 (some true) 0).start heldPress).map
        (fun (s, events) => (events.map fun e => e.frame?.isSome, (ticks events).map fun t =>
          (List.ofFn t.1.settings.buttonMap, List.ofFn t.2.buttons))) =
      some ([false, false, true], List.replicate 2
        (List.ofFn RimSettings.default.buttonMap, List.ofFn (buttonOnly 0).buttons)) := by
    decide +kernel
  obtain ⟨⟨s, events⟩, reached, fields⟩ := Option.map_eq_some_iff.mp ran
  simp only [Prod.mk.injEq] at fields
  obtain ⟨kinds, read⟩ := fields
  obtain ⟨before, e, rfl⟩ : ∃ before e, events = before ++ [e] := by
    rcases List.eq_nil_or_concat' events with rfl | ⟨before, e, rfl⟩
    · cases kinds
    · exact ⟨before, e, rfl⟩
  have split : before.map (fun e => e.frame?.isSome) ++ [e.frame?.isSome] =
      [false, false] ++ [true] := by
    rw [← List.map_singleton (f := fun e : WireEvent => e.frame?.isSome), ← List.map_append]
    exact kinds
  have last : e.frame?.isSome = true :=
    (List.cons.inj (List.append_inj' split rfl).2).1
  cases e with
  | sent frame =>
    have unread : ticks (before ++ [.sent frame]) = ticks before := by
      rw [ticks_snoc]
      exact List.append_nil _
    rw [unread] at read
    obtain ⟨first, rest, firstTick, read1, read⟩ := List.map_eq_cons_iff.mp read
    obtain ⟨second, rest, secondTick, read2, read⟩ := List.map_eq_cons_iff.mp read
    have none_left := List.map_eq_nil_iff.mp read
    simp only [Prod.mk.injEq, List.ofFn_inj] at read1 read2
    refine ⟨_, s, before, first, second, frame, reached, rfl, ?_, read1.2, read2.2, read2.1⟩
    rw [firstTick, secondTick, none_left]
  | ticked svc x => cases last
  | other => cases last

theorem wire_current_run : ∃ events s before frame latest,
    (wire .default (fun _ => ⟨false, false⟩) 3 (some true) 0).runBy Alone
        (wire .default (fun _ => ⟨false, false⟩) 3 (some true) 0).start heldPress =
      some (s, events) ∧ events = before ++ [.sent frame] ∧ latest ∈ (composed before).getLast? ∧
      Current frame (composed before) ∧ ∀ b ≤ 24, frameBit frame b = bitSet latest.buttons b := by
  obtain ⟨events, s, before, first, second, frame, ran, rfl, two, -⟩ := heldPress_run
  have latest : (inputCompose second.1 second.2).2 ∈ (composed before).getLast? := by
    rw [composed, two]
    rfl
  exact ⟨_, s, before, frame, _, ran, rfl, latest,
    wire_current (Machine.reachesBy_of_run ran) before _ [] rfl frame rfl _ latest⟩

/-- The bit of the first button is 8. -/
theorem held_buttons_sent_run : ∃ events s frame,
    (wire .default (fun _ => ⟨false, false⟩) 3 (some true) 0).runBy Alone
        (wire .default (fun _ => ⟨false, false⟩) 3 (some true) 0).start heldPress =
      some (s, events) ∧ .sent frame ∈ events ∧ frameBit frame 8 = true := by
  obtain ⟨events, s, before, first, second, frame, ran, rfl, two, down, held, map⟩ := heldPress_run
  have pair : (first, second) ∈ (neighbours (ticks before)).getLast? := by
    rw [two]
    rfl
  have steady : Steady first second 8 := fun i _ => congrFun (down.trans held.symm) i
  have bit := held_buttons_sent RimSettings.default_valid (Machine.reachesBy_of_run ran) before _ []
    rfl frame rfl _ pair 8 (by decide) (by decide) steady
  refine ⟨_, s, frame, ran, by simp, bit.mpr (.inl ⟨0, ?_, ?_, ?_⟩)⟩
  · rw [map]
    decide
  · rw [held]
    decide
  · unfold LastMapped
    rw [map]
    decide

end FanatecWheel.App
