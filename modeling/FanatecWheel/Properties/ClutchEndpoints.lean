import FanatecWheel.Properties.ClutchSafety

/-!
# The ends of the clutch travel

The low pass loses a difference below four, so under a held sample the level rests up to
three counts short of it. The guard band has to make up for that at both ends. An empty range
is safe as long as the sum of its lower edge does not wrap.
-/

namespace FanatecWheel.App

open Foundation Filter

/-- The channel after some samples since its start. -/
def clutchAfter (cal : ClutchCal) (before : List U16) : ClutchChan :=
  final clutchChanFeed (clutchChanInit cal) before

/-- From some call on the output is the value, while the sample is held. -/
def SettlesAt (c : ClutchChan) (raw : U16) (value : U8) : Prop :=
  ∃ n, ∀ m, n ≤ m →
    (clutchChanFeed (final clutchChanFeed c (List.replicate m raw)) raw).2 = value

/-- The usable range is not empty, and the dead zone leaves something of it. -/
structure UsableCal (cal : ClutchCal) : Prop where
  edges : asInt cal.min + asInt cal.guard < asInt cal.max - asInt cal.guard
  deadzone : cal.deadzone < 255

/-- Where the level comes to rest under a held sample: within three counts of it, on the side
on which the first of the held samples leaves the level. -/
def restLevel (c : ClutchChan) (raw : U16) : ℤ :=
  within 3 (asInt raw) (asInt (clutchChanFeed c raw).1.iir)

/-! ### Rest -/

private theorem clutchAfter_setup (cal : ClutchCal) (before : List U16) :
    (clutchAfter cal before).conditioner.divisor = 4 ∧
      (clutchAfter cal before).conditioner.rate = 64 ∧ (clutchAfter cal before).cal = cal := by
  have history := clutch_history cal before
  refine ⟨?_, ?_, history.cal⟩
  · change (2 : ℤ) ^ (clutchAfter cal before).iirShift.toNat = 4
    rw [show (clutchAfter cal before).iirShift = 2 from history.iirShift]
    rfl
  · change ((clutchAfter cal before).rateLimit.toNat : ℤ) = 64
    rw [show (clutchAfter cal before).rateLimit = 64 from history.rateLimit]
    rfl

private theorem replicate_asInt (raw : U16) (n : ℕ) :
    (List.replicate n raw).map asInt = List.replicate n (asInt raw) := List.map_replicate

/-- A held sample in the channel is a held sample in the chain. -/
private theorem held_conditioned (c : ClutchChan) (raw : U16) (n : ℕ) :
    (final clutchChanFeed c (List.replicate n raw)).conditioned =
      c.conditioner.held c.conditioned (asInt raw) n := by
  rw [(c.run_conditioned _).2.1, replicate_asInt]
  rfl

private theorem feed_iir (c : ClutchChan) (raw : U16) :
    asInt (clutchChanFeed c raw).1.iir =
      (c.conditioner.feed c.conditioned (asInt raw)).1.level :=
  congrArg Conditioned.level (c.feed_conditioned raw).2

/-- The output settles at the static map of the level at rest, and at nothing else. -/
theorem settlesAt_iff (cal : ClutchCal) (before : List U16) (raw : U16) (value : U8) :
    SettlesAt (clutchAfter cal before) raw value ↔
      asInt value = clutchMap cal (restLevel (clutchAfter cal before) raw) := by
  let c := clutchAfter cal before
  obtain ⟨divisor, rate, sameCal⟩ := clutchAfter_setup cal before
  have output (m : ℕ) : asInt (clutchChanFeed (final clutchChanFeed c (List.replicate m raw)) raw).2 =
      (c.conditioner.held c.conditioned (asInt raw) (m + 1)).shown := by
    rw [← held_conditioned, List.replicate_succ', final_snoc]
    rfl
  have rests := (tendsto_add_atTop_nat 1).eventually
    (c.conditioner.held_shown (by rw [rate]; decide) c.conditioned (asInt raw))
  have scale : c.conditioner.scale = clutchMap cal := congrArg clutchMap sameCal
  rw [divisor, ← feed_iir, scale] at rests
  obtain ⟨start, rests⟩ := eventually_atTop.mp rests
  constructor
  · -- late enough both hold, so the value is that of the level at rest
    rintro ⟨n, settled⟩
    have late := rests (max n start) (le_max_right _ _)
    rw [← output, settled _ (le_max_left _ _)] at late
    exact late
  · intro same
    refine ⟨start, fun m late => ?_⟩
    have now := rests m late
    rw [← output] at now
    apply BitVec.eq_of_toNat_eq
    exact Int.ofNat_inj.mp (now.trans same.symm)

/-! ### The extreme levels -/

/-- No level gets nearer to the largest sample than the dead band lets. -/
theorem level_le_top (cal : ClutchCal) (before : List U16) :
    asInt (clutchAfter cal before).iir ≤ 65532 := by
  have kept (c : ClutchChan) (raw : U16) (_ : True)
      (low : c.iirShift = 2 ∧ asInt c.iir ≤ 65532) :
      (clutchChanFeed c raw).1.iirShift = 2 ∧ asInt (clutchChanFeed c raw).1.iir ≤ 65532 := by
    refine ⟨low.1, ?_⟩
    have bound (m : U16) : asInt m ≤ 65535 := by
      have size := m.isLt
      unfold asInt
      omega
    -- 65532 is in the dead band of the largest sample
    have next (m : U16) : asInt (iirNext c m) ≤ lowPass 4 65532 65535 := by
      rw [show asInt (iirNext c m) = _ from iirNext_toNat c m, low.1]
      exact lowPass_mono (by decide) low.2 (bound m)
    exact next _
  have start : (clutchChanInit cal).iirShift = 2 ∧ asInt (clutchChanInit cal).iir ≤ 65532 :=
    ⟨rfl, (by decide : asInt (0 : U16) ≤ 65532)⟩
  exact (final_invariant clutchChanFeed start kept before fun _ _ => trivial).2

private theorem feed_le_top (cal : ClutchCal) (before : List U16) (raw : U16) :
    asInt (clutchChanFeed (clutchAfter cal before) raw).1.iir ≤ 65532 := by
  have level := level_le_top cal (before ++ [raw])
  rwa [clutchAfter, final_snoc] at level

/-- From the start a sample is approached from below. -/
private theorem restLevel_init (cal : ClutchCal) (raw : U16) :
    restLevel (clutchAfter cal []) raw = max (asInt raw - 3) 0 := by
  -- the first sample is alone in the window, so the median leaves it out
  have level : asInt (clutchChanFeed (clutchChanInit cal) raw).1.iir = 0 := by
    rw [feed_iir, Conditioner.feed_level]
    change lowPass 4 0 (median (asInt raw) 0 0) = 0
    rw [← median_rotate, median_self, lowPass_self]
  have positive := asInt_nonneg raw
  unfold restLevel within
  rw [show clutchAfter cal [] = clutchChanInit cal from rfl, level]
  omega

/-- From the largest level a sample is approached from above. -/
private theorem restLevel_top (cal : ClutchCal) :
    ∃ before, ∀ raw, restLevel (clutchAfter cal before) raw = min (asInt raw + 3) 65532 := by
  let c := clutchChanInit cal
  have rests := c.conditioner.held_level c.conditioned (asInt (65535 : U16))
  have first : (c.conditioner.feed c.conditioned (asInt (65535 : U16))).1.level = 0 := by
    rw [Conditioner.feed_level]
    change lowPass 4 0 (median (asInt (65535 : U16)) 0 0) = 0
    rw [← median_rotate, median_self, lowPass_self]
  have divisor : c.conditioner.divisor = 4 := (clutchAfter_setup cal []).1
  rw [first] at rests
  obtain ⟨start, rests⟩ := eventually_atTop.mp rests
  -- the window still has two of the held samples when the next one comes
  let held := List.replicate (start + 1 + 1) (65535 : U16)
  refine ⟨held, fun raw => ?_⟩
  have level : asInt (clutchChanFeed (clutchAfter cal held) raw).1.iir = 65532 := by
    have state : (clutchAfter cal held).conditioned = _ :=
      held_conditioned c 65535 (start + 1 + 1)
    have setup : (clutchAfter cal held).conditioner = c.conditioner := (c.run_conditioned _).2.2
    rw [feed_iir, setup, state, Conditioner.held_next_level, rests _ (by omega), divisor]
    decide
  have bound := raw.isLt
  unfold restLevel within
  rw [level]
  unfold asInt
  omega

/-! ### Full travel and release -/

private theorem usable_edges {cal : ClutchCal} (usable : UsableCal cal) :
    asInt (calLo cal) = asInt cal.min + asInt cal.guard ∧
      asInt (calHi cal) = asInt cal.max - asInt cal.guard := by
  have edges := usable.edges
  have size := cal.max.isLt
  unfold asInt at edges
  have order : cal.guard < cal.max := BitVec.lt_def.mpr (by omega)
  constructor
  · unfold asInt calLo
    rw [BitVec.toNat_add]
    omega
  · unfold asInt calHi
    rw [if_pos order, BitVec.toNat_sub_of_le (BitVec.le_of_lt order)]
    have less := BitVec.lt_def.mp order
    omega

private theorem usable_zone {cal : ClutchCal} (usable : UsableCal cal) :
    asInt cal.deadzone < 255 := by
  have less := BitVec.lt_def.mp usable.deadzone
  exact Int.ofNat_lt.mpr less

/-- In a usable range neither edge wraps. -/
private theorem clutchMap_usable {cal : ClutchCal} (usable : UsableCal cal) (x : ℤ) :
    clutchMap cal x = deadZone (asInt cal.deadzone)
      (scaled (asInt cal.min + asInt cal.guard) (asInt cal.max - asInt cal.guard) 255 x) := by
  obtain ⟨lo, hi⟩ := usable_edges usable
  rw [← lo, ← hi]
  rfl

/-- Full travel is shown from the upper edge on. -/
theorem clutchMap_eq_255 {cal : ClutchCal} (usable : UsableCal cal) (x : ℤ) :
    clutchMap cal x = 255 ↔ asInt cal.max - asInt cal.guard ≤ x := by
  have zone := usable_zone usable
  rw [clutchMap_usable usable]
  constructor
  · intro full
    by_contra below
    have less := @scaled_lt (asInt cal.min + asInt cal.guard) (asInt cal.max - asInt cal.guard) 255
      (by decide) x (not_le.mp below)
    unfold deadZone at full
    split at full <;> omega
  · intro high
    rw [scaled_high usable.edges high, deadZone, if_neg (not_le.mpr zone)]

/-- Release is shown up to the lower edge, and while the share of the travel is in the dead
zone. -/
theorem clutchMap_eq_zero {cal : ClutchCal} (usable : UsableCal cal) (x : ℤ) :
    let lo := asInt cal.min + asInt cal.guard
    let hi := asInt cal.max - asInt cal.guard
    clutchMap cal x = 0 ↔ x ≤ lo ∨ (x - lo) * 255 / (hi - lo) ≤ asInt cal.deadzone := by
  intro lo hi
  have edges : lo < hi := usable.edges
  have zone := usable_zone usable
  have zonePos := asInt_nonneg cal.deadzone
  rw [clutchMap_usable usable, deadZone_eq_zero zonePos]
  rcases le_or_gt x lo with low | above
  · rw [scaled_low (.inr low)]
    exact iff_of_true zonePos (.inl low)
  rw [or_iff_right (not_le.mpr above)]
  rcases lt_or_ge x hi with below | high
  · rw [scaled_between above below]
  · -- past the upper edge the share is more than the whole
    have whole : 255 ≤ (x - lo) * 255 / (hi - lo) := by
      apply Int.le_ediv_of_mul_le (by omega)
      omega
    rw [scaled_high edges high]
    omega

/-- Both ends of the travel are reached, from every state and by every held sample at or past
the calibrated ends. -/
def EndpointsReached (cal : ClutchCal) : Prop :=
  ∀ before raw,
    (cal.max ≤ raw → SettlesAt (clutchAfter cal before) raw 255) ∧
      (raw ≤ cal.min → SettlesAt (clutchAfter cal before) raw 0)

private theorem restLevel_bounds (c : ClutchChan) (raw : U16) :
    asInt raw - 3 ≤ restLevel c raw ∧ restLevel c raw ≤ asInt raw + 3 := by
  unfold restLevel within
  constructor <;> omega

/-- Full travel is reached from a state exactly when its level at rest is past the upper edge. -/
theorem settlesAt_255 {cal : ClutchCal} (usable : UsableCal cal) (before : List U16) (raw : U16) :
    SettlesAt (clutchAfter cal before) raw 255 ↔
      asInt cal.max - asInt cal.guard ≤ restLevel (clutchAfter cal before) raw := by
  rw [settlesAt_iff, ← clutchMap_eq_255 usable]
  exact eq_comm

/-- From every state full travel is reached exactly when the guard band makes up for the dead
band of the low pass. -/
theorem full_travel_iff {cal : ClutchCal} (usable : UsableCal cal) (raw : U16) :
    (∀ before, SettlesAt (clutchAfter cal before) raw 255) ↔
      asInt cal.max + 3 ≤ asInt raw + asInt cal.guard := by
  simp only [settlesAt_255 usable]
  have edges := usable.edges
  have positive := asInt_nonneg cal.min
  have guardPos := asInt_nonneg cal.guard
  constructor
  · -- from the start the level stops three counts short
    intro reached
    have slowest := reached []
    rw [restLevel_init] at slowest
    omega
  · intro wide before
    have low := (restLevel_bounds (clutchAfter cal before) raw).1
    omega

/-- From every state release is reached exactly when the static map is zero three counts above
the sample. -/
theorem release_iff {cal : ClutchCal} (usable : UsableCal cal) (raw : U16) :
    let lo := asInt cal.min + asInt cal.guard
    let hi := asInt cal.max - asInt cal.guard
    let top := min (asInt raw + 3) 65532
    (∀ before, SettlesAt (clutchAfter cal before) raw 0) ↔
      top ≤ lo ∨ (top - lo) * 255 / (hi - lo) ≤ asInt cal.deadzone := by
  intro lo hi top
  refine Iff.trans ?_ (clutchMap_eq_zero usable top)
  simp only [settlesAt_iff]
  constructor
  · intro reached
    -- from the largest level it stops three counts above, or does not get so far
    obtain ⟨before, last⟩ := restLevel_top cal
    have shown := reached before
    rw [last] at shown
    exact shown.symm
  · intro zero before
    have below : restLevel (clutchAfter cal before) raw ≤ top := by
      have level := feed_le_top cal before raw
      have bound := raw.isLt
      unfold restLevel within top
      unfold asInt at level ⊢
      omega
    have least := clutchMap_mono cal below
    rw [zero] at least
    exact (le_antisymm least (clutchMap_mem cal _).1).symm

/-- Under a calibration with a usable range both ends of the travel are reached from every
state exactly with a guard band of three counts at least: the low pass stops three counts
short of a held sample. -/
theorem clutch_endpoints {cal : ClutchCal} (usable : UsableCal cal) :
    let lo := asInt cal.min + asInt cal.guard
    let hi := asInt cal.max - asInt cal.guard
    (EndpointsReached cal ↔ 3 ≤ cal.guard.toNat) ∧
    (∀ raw, cal.max ≤ raw →
      ((∀ before, SettlesAt (clutchAfter cal before) raw 255) ↔
        asInt cal.max + 3 ≤ asInt raw + asInt cal.guard)) ∧
    (∀ raw, raw ≤ cal.min →
      ((∀ before, SettlesAt (clutchAfter cal before) raw 0) ↔
        let top := min (asInt raw + 3) 65532
        top ≤ lo ∨ (top - lo) * 255 / (hi - lo) ≤ asInt cal.deadzone)) := by
  intro lo hi
  refine ⟨?_, fun raw _ => full_travel_iff usable raw, fun raw _ => release_iff usable raw⟩
  constructor
  · intro reached
    have full := (full_travel_iff usable cal.max).mp fun before =>
      (reached before cal.max).1 (BitVec.le_refl _)
    unfold asInt at full
    omega
  · intro wide before raw
    constructor
    · intro pulled
      refine (full_travel_iff usable raw).mpr ?_ before
      have order := asInt_le.mpr pulled
      unfold asInt at order ⊢
      omega
    · intro released
      refine (release_iff usable raw).mpr (.inl ?_) before
      have order := asInt_le.mpr released
      unfold asInt at order ⊢
      omega

/-- The shipped calibration has a guard band of 50 counts. -/
theorem clutch_endpoints_default :
    let cal : ClutchCal := ⟨400, 3700, 50, 8⟩
    let lo := asInt cal.min + asInt cal.guard
    let hi := asInt cal.max - asInt cal.guard
    (EndpointsReached cal ↔ 3 ≤ cal.guard.toNat) ∧
    (∀ raw, cal.max ≤ raw →
      ((∀ before, SettlesAt (clutchAfter cal before) raw 255) ↔
        asInt cal.max + 3 ≤ asInt raw + asInt cal.guard)) ∧
    (∀ raw, raw ≤ cal.min →
      ((∀ before, SettlesAt (clutchAfter cal before) raw 0) ↔
        let top := min (asInt raw + 3) 65532
        top ≤ lo ∨ (top - lo) * 255 / (hi - lo) ≤ asInt cal.deadzone)) :=
  clutch_endpoints ⟨by decide, by decide⟩

/-- Without a guard band the paddle that is pulled to its calibrated end shows 254. -/
theorem full_travel_missed :
    let cal : ClutchCal := ⟨400, 3700, 0, 0⟩
    UsableCal cal ∧ cal.max ≤ 3700 ∧ ¬ SettlesAt (clutchAfter cal []) 3700 255 := by
  intro cal
  refine ⟨⟨by decide, by decide⟩, by decide, ?_⟩
  rw [settlesAt_iff, restLevel_init]
  decide

/-! ### An empty range -/

/-- Every output of every run is zero. -/
def AlwaysZero (cal : ClutchCal) : Prop :=
  ∀ samples, ∀ out ∈ trace clutchChanFeed (clutchChanInit cal) samples, out = 0

/-- No run shows anything exactly when the static map of the largest level is zero. -/
theorem alwaysZero_iff (cal : ClutchCal) : AlwaysZero cal ↔ clutchMap cal 65532 = 0 := by
  constructor
  · intro zero
    have settled : SettlesAt (clutchAfter cal []) 65535 0 := by
      refine ⟨0, fun m _ => zero (List.replicate m 65535 ++ [65535]) _ ?_⟩
      rw [trace_snoc]
      exact List.mem_append_right _ List.mem_cons_self
    rw [settlesAt_iff, restLevel_init] at settled
    exact settled.symm
  · intro zero samples
    -- on the samples so far: no target and no output before is other than zero
    induction samples using List.reverseRecOn with
    | nil => exact fun out none => absurd none List.not_mem_nil
    | append_singleton before raw ih =>
      have history := clutch_history cal before
      have level := feed_le_top cal before raw
      change ClutchHistory cal before _ (clutchAfter cal before) at history
      have target : asInt (clutchScale (clutchAfter cal before).cal
          (clutchChanFeed (clutchAfter cal before) raw).1.iir) = 0 := by
        rw [show asInt (clutchScale _ _) = _ from clutchScale_toNat _ _, history.cal]
        have least := clutchMap_mono cal level
        rw [zero] at least
        exact le_antisymm least (clutchMap_mem cal _).1
      have prev : (clutchAfter cal before).outPrev = 0 := by
        rw [history.outPrev]
        rcases List.mem_cons.mp List.getLastD_mem_cons with first | put
        · exact first
        · exact ih _ put
      have output := (clutchAfter cal before).feed_output raw
      rw [target, prev] at output
      intro out put
      rw [trace_snoc] at put
      rcases List.mem_append.mp put with old | new
      · exact ih out old
      · rw [List.mem_singleton.mp new]
        apply BitVec.eq_of_toNat_eq
        have rest : within (asInt (clutchAfter cal before).rateLimit) (asInt (0 : U8)) 0 = 0 :=
          (within_eq_iff (asInt_nonneg _)).mpr (by simp [asInt])
        exact Int.ofNat_inj.mp (output.trans rest)

/-- The sum of the lower edge stays in 16 bits, or the range is empty after the wrap as well,
or the dead zone takes the whole of what the largest level shows. -/
def SafelyEmpty (cal : ClutchCal) : Prop :=
  asInt cal.min + asInt cal.guard < 65536 ∨
    asInt cal.max ≤ asInt cal.guard + (asInt cal.min + asInt cal.guard - 65536) ∨
    cal.deadzone = 255 ∨
    cal.deadzone = 254 ∧ 65532 < asInt cal.max - asInt cal.guard

private theorem clutchMap_top_iff {cal : ClutchCal}
    (empty : asInt cal.max - asInt cal.guard ≤ asInt cal.min + asInt cal.guard) :
    clutchMap cal 65532 = 0 ↔ SafelyEmpty cal := by
  have lo : asInt (calLo cal) = (asInt cal.min + asInt cal.guard) % 65536 := by
    unfold asInt calLo
    rw [BitVec.toNat_add]
    omega
  have hi : asInt (calHi cal) = max 0 (asInt cal.max - asInt cal.guard) := by
    unfold asInt calHi
    split
    next order =>
      rw [BitVec.toNat_sub_of_le (BitVec.le_of_lt order)]
      have less := BitVec.lt_def.mp order
      omega
    next notLess =>
      have order := BitVec.le_def.mp (BitVec.not_lt.mp notLess)
      change (0 : ℤ) = _
      omega
  have minSize : asInt cal.min < 65536 := asInt_lt cal.min
  have maxSize : asInt cal.max < 65536 := asInt_lt cal.max
  have zoneSize : asInt cal.deadzone < 256 := asInt_lt cal.deadzone
  have minPos := asInt_nonneg cal.min
  have guardPos := asInt_nonneg cal.guard
  have zonePos := asInt_nonneg cal.deadzone
  have zones : (cal.deadzone = 255 ↔ asInt cal.deadzone = 255) ∧
      (cal.deadzone = 254 ↔ asInt cal.deadzone = 254) := ⟨asInt_inj.symm, asInt_inj.symm⟩
  change deadZone (asInt cal.deadzone)
    (scaled (asInt (calLo cal)) (asInt (calHi cal)) 255 65532) = 0 ↔ _
  rw [deadZone_eq_zero zonePos, SafelyEmpty, zones.1, zones.2]
  rcases le_or_gt (asInt (calHi cal)) (asInt (calLo cal)) with shut | opened
  · rw [scaled_low (.inl shut)]
    omega
  rcases le_or_gt (asInt (calHi cal)) 65532 with inside | beyond
  · rw [scaled_high opened inside]
    omega
  · -- the largest level is just below the upper edge
    have share : scaled (asInt (calLo cal)) (asInt (calHi cal)) 255 65532 = 254 := by
      have less := @scaled_lt (asInt (calLo cal)) (asInt (calHi cal)) 255 (by decide) _ beyond
      rw [scaled_between (by omega) beyond] at less ⊢
      have most : 254 ≤ (65532 - asInt (calLo cal)) * 255 / (asInt (calHi cal) - asInt (calLo cal)) := by
        apply Int.le_ediv_of_mul_le (by omega)
        omega
      omega
    rw [share]
    omega

/-- Under a calibration whose range is empty every output is zero exactly as long as the 16-bit
sum of the lower edge does not open a range by its wrap. -/
theorem clutch_invalid_calibration {cal : ClutchCal}
    (empty : asInt cal.max - asInt cal.guard ≤ asInt cal.min + asInt cal.guard) :
    AlwaysZero cal ↔ SafelyEmpty cal := by
  rw [alwaysZero_iff, clutchMap_top_iff empty]

/-- Calibrated ends that were stored the wrong way round. -/
theorem clutch_invalid_calibration_swapped :
    let cal : ClutchCal := ⟨3700, 400, 50, 8⟩
    AlwaysZero cal ↔ SafelyEmpty cal :=
  clutch_invalid_calibration (by decide)

/-- The lower edge at 66000 wraps to 464, and two samples of 40000 are shown. -/
theorem empty_range_opened :
    let cal : ClutchCal := ⟨65000, 60000, 1000, 0⟩
    asInt cal.max - asInt cal.guard ≤ asInt cal.min + asInt cal.guard ∧ ¬ AlwaysZero cal := by
  intro cal
  refine ⟨by decide, fun zero => ?_⟩
  have shown : trace clutchChanFeed (clutchChanInit cal) [40000, 40000] = [0, 41] := by decide
  have last := zero [40000, 40000] 41 (by rw [shown]; exact List.mem_cons_of_mem _ List.mem_cons_self)
  exact absurd last (by decide)

end FanatecWheel.App
