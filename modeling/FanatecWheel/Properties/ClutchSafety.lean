import FanatecWheel.Properties.ClutchStages

/-!
# Arithmetic of the clutch pipeline

The pipeline once more, over integers that do not wrap: a division by zero and a value that
its type does not hold end the call. Only the lower edge of the calibration is still a 16-bit
sum. The call never ends so, and its outputs move in limited steps.
-/

namespace FanatecWheel.App

open Foundation

/-! ### The checked pipeline -/

/-- The quotient of C, none for a zero divisor. -/
def checkedDiv (a b : ℤ) : Option ℤ := if b = 0 then none else some (a.tdiv b)

/-- The conversion to an unsigned type, none for a value that does not fit. -/
def checkedCast (w : ℕ) (x : ℤ) : Option (BitVec w) :=
  if 0 ≤ x ∧ x < 2 ^ w then some (BitVec.ofInt w x) else none

/-- `median3` with its cast checked. -/
def median3Checked (a b c : U16) : Option U16 :=
  let lo := minOf a (minOf b c)
  let hi := maxOf a (maxOf b c)
  checkedCast 16 (asInt a + asInt b + asInt c - asInt lo - asInt hi)

/-- The calibration with its division and its 32-bit values checked. -/
def shareChecked (lo hi iir : U16) : Option U32 :=
  if hi ≤ lo then some 0
  else if iir ≤ lo then some 0
  else if hi ≤ iir then some 255
  else do
    let above ← checkedCast 32 (asInt iir - asInt lo)
    let product ← checkedCast 32 (asInt above * 255)
    let quotient ← checkedDiv (asInt product) (asInt hi - asInt lo)
    checkedCast 32 quotient

/-- `clutch_chan_feed` with every division and every narrowing checked. -/
def clutchChanFeedChecked (c : ClutchChan) (raw : U16) : Option (ClutchChan × U8) := do
  let diag := railDiag c raw
  let med := Function.update c.med c.medI raw
  let m ← median3Checked (med 0) (med 1) (med 2)
  let change ← checkedDiv (asInt m - asInt c.iir) (2 ^ c.iirShift.toNat)
  let iir ← checkedCast 16 (asInt c.iir + change)
  let out255 ← shareChecked (calLo c.cal) (calHi c.cal) iir
  let out255 : ℤ := if asInt out255 ≤ asInt c.cal.deadzone then 0 else asInt out255
  let step : ℤ := out255 - asInt c.outPrev
  let diag := diag &&& ~~~clutchDiagRate
  let fast := asInt c.rateLimit < step ∨ step < -asInt c.rateLimit
  let diag := if fast then diag ||| clutchDiagRate else diag
  let out255 ← checkedCast 32 <|
    if fast then
      if 0 < step then asInt c.outPrev + asInt c.rateLimit
      else asInt c.outPrev - asInt c.rateLimit
    else out255
  let out ← checkedCast 8 (asInt out255)
  some ({ c with diag, med, medI := c.medI + 1, iir, outPrev := out, out }, out)

/-! ### Nothing is cut -/

theorem checkedDiv_of_ne {a b : ℤ} (divisor : b ≠ 0) : checkedDiv a b = some (a.tdiv b) :=
  if_neg divisor

theorem checkedCast_asInt {w : ℕ} {x : ℤ} {y : BitVec w} (fits : x = asInt y) :
    checkedCast w x = some y := by
  rw [fits, checkedCast, if_pos ⟨asInt_nonneg y, asInt_lt y⟩, asInt, BitVec.ofInt_natCast,
    BitVec.ofNat_toNat, BitVec.setWidth_eq]

theorem median3Checked_eq (a b c : U16) : median3Checked a b c = some (median3 a b c) := by
  apply checkedCast_asInt
  have sum := median_add a.toNat b.toNat c.toNat
  rw [← median3_toNat, ← minOf_toNat, ← minOf_toNat, ← maxOf_toNat, ← maxOf_toNat] at sum
  unfold asInt
  omega

private theorem travel_fits {lo x : U16} (above : lo.toNat < x.toNat) :
    asInt x - asInt lo = asInt ((x - lo).setWidth 32 : U32) := by
  rw [asInt, asInt, asInt, travel_toNat above]
  omega

private theorem product_fits {lo x : U16} (above : lo.toNat < x.toNat) :
    asInt ((x - lo).setWidth 32 : U32) * 255 = asInt ((x - lo).setWidth 32 * 255 : U32) := by
  rw [asInt, asInt, travel_product_toNat above, travel_toNat above]
  omega

private theorem quotient_fits (x y : U32) : (asInt x).tdiv (asInt y) = asInt (x / y) := by
  rw [asInt, asInt, asInt, BitVec.toNat_udiv, Int.natCast_ediv]
  exact Int.tdiv_eq_ediv_of_nonneg (Int.natCast_nonneg _)

theorem shareChecked_eq (lo hi iir : U16) : shareChecked lo hi iir = some (shareOf lo hi iir) := by
  unfold shareChecked shareOf
  split
  next => rfl
  next usable =>
    have edges := BitVec.lt_def.mp (BitVec.not_le.mp usable)
    split
    next => rfl
    next notLow =>
      have above := BitVec.lt_def.mp (BitVec.not_le.mp notLow)
      split
      next => rfl
      next =>
        -- `lo < hi` was tested before, so the division is by a positive number
        have divisor : asInt ((hi - lo).setWidth 32 : U32) ≠ 0 := by
          rw [← travel_fits edges]
          unfold asInt
          omega
        rw [checkedCast_asInt (travel_fits above), Option.bind_eq_bind, Option.bind_some,
          checkedCast_asInt (product_fits above), Option.bind_eq_bind, Option.bind_some,
          travel_fits edges, checkedDiv_of_ne divisor, Option.bind_some]
        exact checkedCast_asInt (quotient_fits _ _)

/-- The step of a limited output, in exact numbers. -/
private theorem limited_eq {rate : ℤ} (positive : 0 ≤ rate) (prev target : ℤ) :
    (if rate < target - prev ∨ target - prev < -rate then
      if 0 < target - prev then prev + rate else prev - rate
    else target) = within rate prev target := by
  unfold within
  split
  · split <;> omega
  · omega

theorem clutchScale_toInt (cal : ClutchCal) (iir : U16) :
    (clutchScale cal iir).toInt = asInt (clutchScale cal iir) := by
  have bound := clutchScale_le cal iir
  exact BitVec.toInt_eq_toNat_of_lt (by omega)

/-- The target with the dead zone, in exact numbers. -/
private theorem target_fits (cal : ClutchCal) (iir : U16) :
    (if asInt (shareOf (calLo cal) (calHi cal) iir) ≤ asInt cal.deadzone then 0
      else asInt (shareOf (calLo cal) (calHi cal) iir)) = asInt (clutchScale cal iir) := by
  rw [show asInt (clutchScale cal iir) = _ from clutchScale_toNat cal iir, clutchMap,
    ← shareOf_toNat]
  rfl

private theorem byte_fits (x : U8) : asInt (x.setWidth 32 : U32) = asInt x := by
  rw [asInt, asInt, BitVec.toNat_setWidth_of_le (by decide)]

/-- The output before it is cut to a byte. -/
private theorem output_fits (c : ClutchChan) (raw iir : U16)
    (filtered : iir = (clutchChanFeed c raw).1.iir) :
    (if asInt c.rateLimit < asInt (clutchScale c.cal iir) - asInt c.outPrev ∨
        asInt (clutchScale c.cal iir) - asInt c.outPrev < -asInt c.rateLimit then
      if 0 < asInt (clutchScale c.cal iir) - asInt c.outPrev then
        asInt c.outPrev + asInt c.rateLimit
      else asInt c.outPrev - asInt c.rateLimit
    else asInt (clutchScale c.cal iir)) = asInt ((clutchChanFeed c raw).2.setWidth 32 : U32) := by
  rw [limited_eq (asInt_nonneg _), byte_fits, filtered]
  exact (c.feed_output raw).symm

/-- The checked pipeline is the pipeline: no call divides by zero or cuts a value. -/
theorem clutchChanFeedChecked_eq (c : ClutchChan) (raw : U16) :
    clutchChanFeedChecked c raw = some (clutchChanFeed c raw) := by
  have divisor : (2 : ℤ) ^ c.iirShift.toNat ≠ 0 := pow_ne_zero _ (by decide)
  have level (m : U16) : asInt c.iir + (asInt m - asInt c.iir).tdiv (2 ^ c.iirShift.toNat) =
      asInt (iirNext c m) := (iirNext_toNat c m).symm
  -- stage by stage in the order of the code: every check succeeds
  unfold clutchChanFeedChecked
  simp only [median3Checked_eq, checkedDiv_of_ne divisor, checkedCast_asInt (level _),
    shareChecked_eq, target_fits, Option.bind_eq_bind, Option.bind_some]
  rw [checkedCast_asInt (output_fits c raw (iirNext c (median3 _ _ _)) rfl), Option.bind_some,
    checkedCast_asInt (byte_fits _), Option.bind_some, ← clutchScale_toInt]
  rfl

/-! ### Flags -/

/-- The flag is set in the diagnosis byte. -/
def Flagged (diag flag : U8) : Prop := diag &&& flag ≠ 0

/-- The rate of change decides about its own flag only. -/
private theorem feed_diag (c : ClutchChan) (raw : U16) :
    (clutchChanFeed c raw).1.diag =
      if asInt c.rateLimit <
        |asInt (clutchScale c.cal (clutchChanFeed c raw).1.iir) - asInt c.outPrev| then
        railDiag c raw &&& ~~~clutchDiagRate ||| clutchDiagRate
      else railDiag c raw &&& ~~~clutchDiagRate := by
  have far (rate step : ℤ) : rate < |step| ↔ rate < step ∨ step < -rate := by
    rw [lt_abs]
    omega
  simp only [far, ← clutchScale_toInt]
  rfl

private theorem rate_flagged (c : ClutchChan) (raw : U16) :
    Flagged (clutchChanFeed c raw).1.diag clutchDiagRate ↔
      asInt c.rateLimit <
        |asInt (clutchScale c.cal (clutchChanFeed c raw).1.iir) - asInt c.outPrev| := by
  rw [feed_diag, Flagged]
  split
  next fast => simp [clutchDiagRate, fast, BitVec.and_or_distrib_right, BitVec.and_assoc]
  next slow => simp [clutchDiagRate, slow, BitVec.and_assoc]

private theorem rail_flagged (c : ClutchChan) (raw : U16) {flag : U8}
    (kept : ~~~clutchDiagRate &&& flag = flag) (other : clutchDiagRate &&& flag = 0) :
    (clutchChanFeed c raw).1.diag &&& flag = railDiag c raw &&& flag := by
  rw [feed_diag]
  split
  · rw [BitVec.and_or_distrib_right, BitVec.and_assoc, kept, other]
    exact BitVec.or_zero
  · rw [BitVec.and_assoc, kept]

/-- At most one rail flag is set, whatever the diagnosis was. -/
private theorem rails_apart (c : ClutchChan) (raw : U16) :
    ¬ (Flagged (clutchChanFeed c raw).1.diag clutchDiagOpen ∧
      Flagged (clutchChanFeed c raw).1.diag clutchDiagShort) := by
  rw [Flagged, Flagged, rail_flagged c raw (by decide) (by decide),
    rail_flagged c raw (by decide) (by decide)]
  -- each branch sets one of the two flags and clears the other, or clears both
  unfold railDiag
  split
  · simp [clutchDiagOpen, clutchDiagShort, BitVec.and_or_distrib_right, BitVec.and_assoc]
  · split
    · simp [clutchDiagOpen, clutchDiagShort, BitVec.and_or_distrib_right, BitVec.and_assoc]
    · simp [clutchDiagOpen, clutchDiagShort, BitVec.and_assoc]

/-! ### Runs -/

theorem median3_le {a b c bound : U16} (first : a ≤ bound) (second : b ≤ bound) :
    median3 a b c ≤ bound := by
  rw [BitVec.le_def, median3_toNat]
  have inside {x : U16} (below : x ≤ bound) : x.toNat ∈ Set.Icc 0 bound.toNat :=
    ⟨Nat.zero_le _, BitVec.le_def.mp below⟩
  exact (median_mem (inside first) (inside second)).2

theorem iirNext_le {c : ClutchChan} {m bound : U16} (level : c.iir ≤ bound) (middle : m ≤ bound) :
    iirNext c m ≤ bound := by
  have inside {x : U16} (below : x ≤ bound) : (x.toNat : ℤ) ∈ Set.Icc 0 (asInt bound) :=
    ⟨Int.natCast_nonneg _, asInt_le.mpr below⟩
  have positive : (0 : ℤ) < 2 ^ c.iirShift.toNat := Int.pow_pos (by decide)
  have next := (lowPass_mem positive (inside level) (inside middle)).2
  rw [← iirNext_toNat] at next
  exact asInt_le.mp next

/-- What the samples and the outputs so far say of a channel since its start. -/
structure ClutchHistory (cal : ClutchCal) (past : List U16) (outs : List U8) (c : ClutchChan) :
    Prop where
  cal : c.cal = cal
  iirShift : c.iirShift = 2
  rateLimit : c.rateLimit = 64
  outPrev : c.outPrev = outs.getLastD 0
  med : ∀ bound, (∀ raw ∈ past, raw ≤ bound) → ∀ i, c.med i ≤ bound
  iir : ∀ bound, (∀ raw ∈ past, raw ≤ bound) → c.iir ≤ bound

private theorem clutchHistory_step {cal : ClutchCal} {past : List U16} {outs : List U8}
    {c : ClutchChan} (history : ClutchHistory cal past outs c) (raw : U16) :
    ClutchHistory cal (past ++ [raw]) (outs ++ [(clutchChanFeed c raw).2])
      (clutchChanFeed c raw).1 := by
  -- the window holds the new sample in one slot and old ones in the others
  have med (bound : U16) (seen : ∀ x ∈ past ++ [raw], x ≤ bound) (i : Fin 3) :
      Function.update c.med c.medI raw i ≤ bound := by
    obtain ⟨before, last⟩ := List.forall_mem_append.mp seen
    by_cases slot : i = c.medI
    · rw [slot, Function.update_self]
      exact last raw List.mem_cons_self
    · rw [Function.update_of_ne slot]
      exact history.med bound before i
  exact {
    cal := history.cal
    iirShift := history.iirShift
    rateLimit := history.rateLimit
    outPrev := List.getLastD_concat.symm
    med
    iir := fun bound seen => iirNext_le
      (history.iir bound (List.forall_mem_append.mp seen).1)
      (median3_le (med bound seen 0) (med bound seen 1)) }

theorem clutch_history (cal : ClutchCal) (samples : List U16) :
    ClutchHistory cal samples (trace clutchChanFeed (clutchChanInit cal) samples)
      (final clutchChanFeed (clutchChanInit cal) samples) := by
  have least (bound : U16) : 0 ≤ bound := BitVec.le_def.mpr (Nat.zero_le _)
  have start : ClutchHistory cal [] [] (clutchChanInit cal) :=
    ⟨rfl, rfl, rfl, rfl, fun bound _ _ => least bound, fun bound _ => least bound⟩
  exact run_induction clutchChanFeed start
    (fun _ _ _ raw history => clutchHistory_step history raw) samples

/-- In every run no call divides by zero or cuts a value, the level is at most the largest
sample, the output moves by 64 at most, and the flags say what they stand for. -/
theorem clutch_arithmetic_safe (cal : ClutchCal) (samples : List U16) (raw : U16) :
    let c := final clutchChanFeed (clutchChanInit cal) samples
    let previous := (trace clutchChanFeed (clutchChanInit cal) samples).getLastD 0
    let (d, out) := clutchChanFeed c raw
    clutchChanFeedChecked c raw = some (d, out) ∧
    (∀ bound, (∀ x ∈ samples ++ [raw], x ≤ bound) → d.iir ≤ bound) ∧
    |asInt out - asInt previous| ≤ 64 ∧
    (Flagged d.diag clutchDiagRate ↔ 64 < |asInt (clutchScale cal d.iir) - asInt previous|) ∧
    ¬ (Flagged d.diag clutchDiagOpen ∧ Flagged d.diag clutchDiagShort) := by
  intro c previous
  have history : ClutchHistory cal samples _ c := clutch_history cal samples
  have next := clutchHistory_step history raw
  have rate : asInt c.rateLimit = 64 := by
    rw [history.rateLimit]
    rfl
  have prev : c.outPrev = previous := history.outPrev
  have flag := rate_flagged c raw
  have moved := within_step (asInt_nonneg c.rateLimit) (asInt c.outPrev)
    (asInt (clutchScale c.cal (clutchChanFeed c raw).1.iir))
  rw [← c.feed_output, rate, prev] at moved
  rw [rate, prev, history.cal] at flag
  exact ⟨clutchChanFeedChecked_eq c raw, next.iir, moved, flag, rails_apart c raw⟩

end FanatecWheel.App
