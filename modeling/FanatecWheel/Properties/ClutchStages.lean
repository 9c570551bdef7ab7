import FanatecWheel.App.Clutch
import FanatecWheel.Foundation.Signal

/-!
# The clutch pipeline over the integers

No stage of a clutch channel overflows, so the channel is a chain of conditioning stages: the
low pass divides by four, the static map is the calibration with the dead zone, and the output
moves by 64 at most.
-/

namespace FanatecWheel.App

open Foundation

/-! ### Stages -/

theorem minOf_toNat (a b : U16) : (minOf a b).toNat = min a.toNat b.toNat := by
  unfold minOf
  split
  next less => exact (min_eq_left (BitVec.lt_def.mp less).le).symm
  next notLess => exact (min_eq_right (not_lt.mp fun less => notLess (BitVec.lt_def.mpr less))).symm

theorem maxOf_toNat (a b : U16) : (maxOf a b).toNat = max a.toNat b.toNat := by
  unfold maxOf
  split
  next less => exact (max_eq_left (BitVec.lt_def.mp less).le).symm
  next notLess => exact (max_eq_right (not_lt.mp fun less => notLess (BitVec.lt_def.mpr less))).symm

/-- What is left of three values without the least and the largest. -/
theorem median3_toNat (a b c : U16) :
    (median3 a b c).toNat = median a.toNat b.toNat c.toNat := by
  have lo : (minOf a (minOf b c)).toNat = min a.toNat (min b.toNat c.toNat) := by
    rw [minOf_toNat, minOf_toNat]
  have hi : (maxOf a (maxOf b c)).toNat = max a.toNat (max b.toNat c.toNat) := by
    rw [maxOf_toNat, maxOf_toNat]
  have sum := median_add a.toNat b.toNat c.toNat
  have bound : median a.toNat b.toNat c.toNat < 2 ^ 16 :=
    Nat.lt_succ_of_le (median_mem ⟨Nat.zero_le _, Nat.le_pred_of_lt a.isLt⟩
      ⟨Nat.zero_le _, Nat.le_pred_of_lt b.isLt⟩).2
  rw [← lo, ← hi] at sum
  generalize median a.toNat b.toNat c.toNat = middle at sum bound ⊢
  -- the sum of the three may wrap, and the two subtractions take the wrap back
  rw [median3, BitVec.toNat_sub, BitVec.toNat_sub, BitVec.toNat_add, BitVec.toNat_add]
  omega

/-- The low pass stays between two 16-bit values and is not cut. -/
theorem iirNext_toNat (c : ClutchChan) (m : U16) :
    ((iirNext c m).toNat : ℤ) = lowPass (2 ^ c.iirShift.toNat) c.iir.toNat m.toNat := by
  have inside (x : U16) : (x.toNat : ℤ) ∈ Set.Icc 0 65535 := by
    have bound := x.isLt
    exact ⟨by omega, by omega⟩
  have positive : (0 : ℤ) < 2 ^ c.iirShift.toNat := Int.pow_pos (by decide)
  obtain ⟨low, high⟩ := lowPass_mem positive (inside c.iir) (inside m)
  unfold iirNext
  rw [BitVec.toNat_ofInt, ← lowPass, Int.toNat_of_nonneg (Int.emod_nonneg _ (by decide))]
  exact Int.emod_eq_of_lt low (by omega)

/-- The lower edge of the travel, cut to 16 bits. -/
def calLo (cal : ClutchCal) : U16 := cal.min + cal.guard

/-- The upper edge of the travel. -/
def calHi (cal : ClutchCal) : U16 := if cal.guard < cal.max then cal.max - cal.guard else 0

/-- The static map of a calibration: scaling, then the dead zone. -/
def clutchMap (cal : ClutchCal) (x : ℤ) : ℤ :=
  deadZone cal.deadzone.toNat (scaled (calLo cal).toNat (calHi cal).toNat 255 x)

theorem clutchMap_mono (cal : ClutchCal) : Monotone (clutchMap cal) :=
  (deadZone_mono (Int.natCast_nonneg _)).comp (scaled_mono (by decide))

theorem clutchMap_mem (cal : ClutchCal) (x : ℤ) : clutchMap cal x ∈ Set.Icc 0 255 := by
  have low := @scaled_nonneg (calLo cal).toNat (calHi cal).toNat 255 (by decide) x
  have high := @scaled_le (calLo cal).toNat (calHi cal).toNat 255 (by decide) x
  unfold clutchMap deadZone
  split
  · exact ⟨le_rfl, by decide⟩
  · exact ⟨low, high⟩

/-- The share of the travel between two 16-bit edges, in the words of the code. -/
def shareOf (lo hi iir : U16) : U32 :=
  if hi ≤ lo then 0
  else if iir ≤ lo then 0
  else if hi ≤ iir then 255
  else (iir - lo).setWidth 32 * 255 / (hi - lo).setWidth 32

theorem travel_toNat {lo x : U16} (above : lo.toNat < x.toNat) :
    ((x - lo).setWidth 32 : U32).toNat = x.toNat - lo.toNat := by
  rw [BitVec.toNat_setWidth_of_le (by decide),
    BitVec.toNat_sub_of_le (BitVec.le_def.mpr above.le)]

theorem travel_product_toNat {lo x : U16} (above : lo.toNat < x.toNat) :
    ((x - lo).setWidth 32 * 255 : U32).toNat = (x.toNat - lo.toNat) * 255 := by
  have bound := x.isLt
  have small : (x.toNat - lo.toNat) * (255 : U32).toNat < 2 ^ 32 := by
    change _ * 255 < _
    omega
  rw [BitVec.toNat_mul, travel_toNat above]
  exact Nat.mod_eq_of_lt small

theorem shareOf_toNat (lo hi iir : U16) :
    ((shareOf lo hi iir).toNat : ℤ) = scaled lo.toNat hi.toNat 255 iir.toNat := by
  unfold shareOf
  split
  next empty =>
    rw [scaled_low (.inl (by exact_mod_cast BitVec.le_def.mp empty))]
    rfl
  next usable =>
    have edges := BitVec.lt_def.mp (BitVec.not_le.mp usable)
    split
    next low =>
      rw [scaled_low (.inr (by exact_mod_cast BitVec.le_def.mp low))]
      rfl
    next notLow =>
      have above := BitVec.lt_def.mp (BitVec.not_le.mp notLow)
      split
      next high =>
        rw [scaled_high (by exact_mod_cast edges) (by exact_mod_cast BitVec.le_def.mp high)]
        rfl
      next notHigh =>
        have below := BitVec.lt_def.mp (BitVec.not_le.mp notHigh)
        rw [scaled_between (by exact_mod_cast above) (by exact_mod_cast below)]
        rw [BitVec.toNat_udiv, travel_product_toNat above, travel_toNat edges]
        push_cast [Nat.cast_sub above.le, Nat.cast_sub edges.le]
        rfl

/-- The scaling stage is the static map. -/
theorem clutchScale_toNat (cal : ClutchCal) (iir : U16) :
    ((clutchScale cal iir).toNat : ℤ) = clutchMap cal iir.toNat := by
  have share := shareOf_toNat (calLo cal) (calHi cal) iir
  have zone : shareOf (calLo cal) (calHi cal) iir ≤ cal.deadzone.setWidth 32 ↔
      ((shareOf (calLo cal) (calHi cal) iir).toNat : ℤ) ≤ cal.deadzone.toNat := by
    rw [BitVec.le_def, BitVec.toNat_setWidth_of_le (by decide), Int.ofNat_le]
  change ((if shareOf (calLo cal) (calHi cal) iir ≤ cal.deadzone.setWidth 32 then (0 : U32)
    else shareOf (calLo cal) (calHi cal) iir).toNat : ℤ) = _
  rw [clutchMap, ← share, deadZone]
  simp only [zone]
  split <;> rfl

theorem clutchScale_le (cal : ClutchCal) (iir : U16) : (clutchScale cal iir).toNat ≤ 255 := by
  have bound := (clutchMap_mem cal iir.toNat).2
  rw [← clutchScale_toNat] at bound
  exact Int.ofNat_le.mp bound

/-! ### The chain -/

/-- A word as the number it stands for. -/
def asInt {w : ℕ} (x : BitVec w) : ℤ := x.toNat

theorem asInt_nonneg {w : ℕ} (x : BitVec w) : 0 ≤ asInt x := Int.natCast_nonneg _

theorem asInt_lt {w : ℕ} (x : BitVec w) : asInt x < 2 ^ w := by
  unfold asInt
  exact_mod_cast x.isLt

theorem asInt_le {w : ℕ} {x y : BitVec w} : asInt x ≤ asInt y ↔ x ≤ y := by
  rw [BitVec.le_def, asInt, asInt, Int.ofNat_le]

theorem asInt_inj {w : ℕ} {x y : BitVec w} : asInt x = asInt y ↔ x = y := by
  rw [asInt, asInt, Int.ofNat_inj, BitVec.toNat_inj]

namespace ClutchChan

/-- The chain of stages that a channel is set up for. -/
def conditioner (c : ClutchChan) : Conditioner where
  divisor := 2 ^ c.iirShift.toNat
  scale := clutchMap c.cal
  rate := c.rateLimit.toNat
  divisor_pos := Int.pow_pos (by decide)
  scale_mono := clutchMap_mono c.cal
  rate_nonneg := Int.natCast_nonneg _

/-- The state of the chain in a channel. -/
def conditioned (c : ClutchChan) : Conditioned where
  window := fun slot => (c.med slot).toNat
  slot := c.medI
  level := c.iir.toNat
  shown := c.outPrev.toNat

end ClutchChan

/-- The slew limit of the code, on a target that fits a byte. -/
private theorem limited_toNat (prev : U8) (rate : U16) (target : U32) (small : target.toNat ≤ 255) :
    let step : ℤ := target.toInt - prev.toNat
    let fast := (rate.toNat : ℤ) < step ∨ step < -(rate.toNat : ℤ)
    let out : U32 :=
      if fast then
        if 0 < step then prev.setWidth 32 + rate.setWidth 32 else prev.setWidth 32 - rate.setWidth 32
      else target
    ((out.setWidth 8 : U8).toNat : ℤ) = within rate.toNat prev.toNat target.toNat := by
  intro step fast out
  have signed : target.toInt = target.toNat := BitVec.toInt_eq_toNat_of_lt (by omega)
  have prevSize := prev.isLt
  have rateSize := rate.isLt
  rw [BitVec.toNat_setWidth]
  unfold out within
  split
  next isFast =>
    split
    next up =>
      rw [BitVec.toNat_add, BitVec.toNat_setWidth_of_le (by decide),
        BitVec.toNat_setWidth_of_le (by decide)]
      unfold fast step at isFast
      unfold step at up
      omega
    next down =>
      rw [BitVec.toNat_sub, BitVec.toNat_setWidth_of_le (by decide),
        BitVec.toNat_setWidth_of_le (by decide)]
      unfold fast step at isFast
      unfold step at down
      omega
  next slow =>
    unfold fast step at slow
    omega

namespace ClutchChan

/-- The output is the new target, as near as the limit lets. -/
theorem feed_output (c : ClutchChan) (raw : U16) :
    asInt (clutchChanFeed c raw).2 =
      within (asInt c.rateLimit) (asInt c.outPrev)
        (asInt (clutchScale c.cal (clutchChanFeed c raw).1.iir)) :=
  limited_toNat c.outPrev c.rateLimit _ (clutchScale_le c.cal (clutchChanFeed c raw).1.iir)

/-- A call is one step of the chain. -/
theorem feed_conditioned (c : ClutchChan) (raw : U16) :
    ((clutchChanFeed c raw).2.toNat : ℤ) = (c.conditioner.feed c.conditioned raw.toNat).2 ∧
      (clutchChanFeed c raw).1.conditioned = (c.conditioner.feed c.conditioned raw.toNat).1 := by
  have window : (fun slot => ((Function.update c.med c.medI raw slot).toNat : ℤ)) =
      Function.update c.conditioned.window c.medI raw.toNat := by
    funext slot
    exact Function.apply_update (fun _ (x : U16) => (x.toNat : ℤ)) c.med c.medI raw slot
  have level : ((clutchChanFeed c raw).1.iir.toNat : ℤ) =
      (c.conditioner.feed c.conditioned raw.toNat).1.level := by
    have cast : Monotone fun n : ℕ => (n : ℤ) := fun _ _ order => Int.ofNat_le.mpr order
    -- the median commutes with the cast, so the filter gets the same value
    let fed := Function.update c.conditioned.window c.medI raw.toNat
    change ((iirNext c (median3 _ _ _)).toNat : ℤ) =
      lowPass (2 ^ c.iirShift.toNat) c.iir.toNat (median (fed 0) (fed 1) (fed 2))
    rw [iirNext_toNat, median3_toNat, show fed = _ from window.symm]
    exact congrArg (lowPass _ _) (median_map cast _ _ _)
  have target : asInt (clutchScale c.cal (clutchChanFeed c raw).1.iir) =
      clutchMap c.cal (c.conditioner.feed c.conditioned raw.toNat).1.level := by
    rw [← level]
    exact clutchScale_toNat c.cal _
  have shown : asInt (clutchChanFeed c raw).2 =
      (c.conditioner.feed c.conditioned raw.toNat).2 := by
    rw [feed_output, target]
    rfl
  exact ⟨shown, Conditioned.ext window rfl level shown⟩

/-- The setup of a channel is not changed by a call. -/
theorem feed_conditioner (c : ClutchChan) (raw : U16) :
    (clutchChanFeed c raw).1.conditioner = c.conditioner := rfl

/-- A run is a run of the chain. -/
theorem run_conditioned (c : ClutchChan) (samples : List U16) :
    (trace clutchChanFeed c samples).map asInt =
        trace c.conditioner.feed c.conditioned (samples.map asInt) ∧
      (final clutchChanFeed c samples).conditioned =
        final c.conditioner.feed c.conditioned (samples.map asInt) ∧
      (final clutchChanFeed c samples).conditioner = c.conditioner := by
  -- the setup is part of the relation: it says which chain the run is one of
  have next (d : ClutchChan) (s : Conditioned) (raw : U16) (x : ℤ)
      (same : d.conditioned = s ∧ d.conditioner = c.conditioner) (fed : asInt raw = id x) :
      asInt (clutchChanFeed d raw).2 = id (c.conditioner.feed s x).2 ∧
        (clutchChanFeed d raw).1.conditioned = (c.conditioner.feed s x).1 ∧
          (clutchChanFeed d raw).1.conditioner = c.conditioner := by
    obtain ⟨rfl, setup⟩ := same
    rw [← setup, show x = raw.toNat from fed.symm]
    exact ⟨(d.feed_conditioned raw).1, (d.feed_conditioned raw).2, d.feed_conditioner raw⟩
  have start : c.conditioned = c.conditioned ∧ c.conditioner = c.conditioner := ⟨rfl, rfl⟩
  have observed := trace_observed next start (List.map_id (samples.map asInt)).symm
  rw [List.map_id] at observed
  exact observed

end ClutchChan

end FanatecWheel.App
