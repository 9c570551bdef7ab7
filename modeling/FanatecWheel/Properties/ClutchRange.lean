import FanatecWheel.Properties.ClutchStages

/-!
# Order and range of the clutch outputs

Pulling a paddle further never gives a smaller value, and a spike of one sample leaves the
value between those of the samples round it.
-/

namespace FanatecWheel.App

open Foundation

/-- Everything that the first channel holds is at most what the second holds. -/
structure ClutchBelow (c c' : ClutchChan) : Prop where
  cal : c.cal = c'.cal
  iirShift : c.iirShift = c'.iirShift
  rateLimit : c.rateLimit = c'.rateLimit
  medI : c.medI = c'.medI
  med : ∀ i, c.med i ≤ c'.med i
  iir : c.iir ≤ c'.iir
  outPrev : c.outPrev ≤ c'.outPrev

/-- The samples from `a` to `b`. -/
def range (a b : U16) : Set U16 := {raw | a ≤ raw ∧ raw ≤ b}

/-- The filters of the channel hold samples of the range, and the last output is between the
static map of its bounds. -/
structure ClutchWithin (a b : U16) (c : ClutchChan) : Prop where
  med : ∀ i, c.med i ∈ range a b
  iir : c.iir ∈ range a b
  outLow : (clutchScale c.cal a).toNat ≤ c.outPrev.toNat
  outHigh : c.outPrev.toNat ≤ (clutchScale c.cal b).toNat

/-! ### Order -/

private theorem conditioned_below {c c' : ClutchChan} (below : ClutchBelow c c') :
    Conditioner.Below c.conditioned c'.conditioned where
  window := fun i => asInt_le.mpr (below.med i)
  slot := below.medI
  level := asInt_le.mpr below.iir
  shown := asInt_le.mpr below.outPrev

private theorem conditioner_congr {c c' : ClutchChan} (below : ClutchBelow c c') :
    c.conditioner = c'.conditioner := by
  simp only [ClutchChan.conditioner, below.cal, below.iirShift, below.rateLimit]

private theorem forall₂_asInt {w : ℕ} {xs ys : List (BitVec w)} :
    List.Forall₂ (· ≤ ·) (xs.map asInt) (ys.map asInt) ↔ List.Forall₂ (· ≤ ·) xs ys := by
  simp only [List.forall₂_map_left_iff, List.forall₂_map_right_iff, asInt_le]

/-- Larger samples never give a smaller output. -/
theorem clutch_order_preserving {c c' : ClutchChan} (below : ClutchBelow c c')
    {samples samples' : List U16} (order : List.Forall₂ (· ≤ ·) samples samples') :
    List.Forall₂ (· ≤ ·) (trace clutchChanFeed c samples) (trace clutchChanFeed c' samples') := by
  have chained := c'.conditioner.run_mono (conditioned_below below) (forall₂_asInt.mpr order)
  rw [← forall₂_asInt, (c.run_conditioned samples).1, (c'.run_conditioned samples').1,
    conditioner_congr below]
  exact chained

/-- A paddle pulled further from a state that is further on. -/
theorem clutch_order_preserving_pulled :
    let c := clutchChanInit ⟨400, 3700, 50, 8⟩
    let c' := { c with iir := 900, outPrev := 30 }
    List.Forall₂ (· ≤ ·) (trace clutchChanFeed c [3000, 3100, 2900])
      (trace clutchChanFeed c' [3000, 3600, 2900]) := by
  intro c c'
  have below : ClutchBelow c c' :=
    ⟨rfl, rfl, rfl, rfl, fun _ => BitVec.le_refl _, by decide, by decide⟩
  exact clutch_order_preserving below
    (.cons (by decide) (.cons (by decide) (.cons (by decide) .nil)))

/-! ### Range -/

private theorem range_asInt {a b raw : U16} :
    raw ∈ range a b ↔ asInt raw ∈ Set.Icc (asInt a) (asInt b) := by
  rw [Set.mem_Icc, asInt_le, asInt_le]
  rfl

/-- The filtered level stays in a range that the samples leave in isolated spikes only, the
outputs stay between the static map of its bounds, and in a range of one value no output
moves. -/
theorem clutch_isolated_spikes {a b : U16} {c : ClutchChan} (within : ClutchWithin a b c)
    {samples : List U16} (isolated : Isolated (range a b) (a :: a :: samples)) :
    (final clutchChanFeed c samples).iir ∈ range a b ∧
      (∀ out ∈ trace clutchChanFeed c samples,
        (clutchScale c.cal a).toNat ≤ out.toNat ∧ out.toNat ≤ (clutchScale c.cal b).toNat) ∧
      (a = b → ∀ out ∈ trace clutchChanFeed c samples, out = c.outPrev) := by
  have low := clutchScale_toNat c.cal a
  have high := clutchScale_toNat c.cal b
  have outLow := within.outLow
  have outHigh := within.outHigh
  have shown : c.conditioned.shown ∈
      Set.Icc (c.conditioner.scale (asInt a)) (c.conditioner.scale (asInt b)) := by
    change (c.outPrev.toNat : ℤ) ∈ Set.Icc (clutchMap c.cal a.toNat) (clutchMap c.cal b.toNat)
    rw [← low, ← high]
    exact ⟨Int.ofNat_le.mpr outLow, Int.ofNat_le.mpr outHigh⟩
  have spikes := isolated_map isolated fun raw => range_asInt.mp
  obtain ⟨level, outs⟩ := c.conditioner.run_mem (range_asInt.mp within.iir) shown
    (fun _ => range_asInt.mp (within.med _)) (fun _ => range_asInt.mp (within.med _)) spikes
  obtain ⟨sameOuts, sameState, -⟩ := c.run_conditioned samples
  rw [← sameOuts] at outs
  rw [← sameState] at level
  have between : ∀ out ∈ trace clutchChanFeed c samples,
      (clutchScale c.cal a).toNat ≤ out.toNat ∧ out.toNat ≤ (clutchScale c.cal b).toNat := by
    intro out put
    obtain ⟨above, below⟩ := outs (asInt out) (List.mem_map_of_mem put)
    change clutchMap c.cal a.toNat ≤ asInt out at above
    change asInt out ≤ clutchMap c.cal b.toNat at below
    rw [← low] at above
    rw [← high] at below
    exact ⟨Int.ofNat_le.mp above, Int.ofNat_le.mp below⟩
  refine ⟨range_asInt.mpr level, between, ?_⟩
  rintro rfl out put
  obtain ⟨above, below⟩ := between out put
  apply BitVec.eq_of_toNat_eq
  omega

/-- A spike to the upper rail near half of the travel. -/
theorem clutch_isolated_spikes_rail :
    let c := { clutchChanInit ⟨400, 3700, 50, 8⟩ with
      med := fun _ => 2000, iir := 2000, outPrev := 123 }
    let samples : List U16 := [1995, 65535, 2005]
    (final clutchChanFeed c samples).iir ∈ range 1990 2010 ∧
      (∀ out ∈ trace clutchChanFeed c samples,
        (clutchScale c.cal 1990).toNat ≤ out.toNat ∧ out.toNat ≤ (clutchScale c.cal 2010).toNat) ∧
      ((1990 : U16) = 2010 → ∀ out ∈ trace clutchChanFeed c samples, out = c.outPrev) := by
  intro c samples
  have inside : (2000 : U16) ∈ range 1990 2010 := ⟨by decide, by decide⟩
  have within : ClutchWithin 1990 2010 c := ⟨fun _ => inside, inside, by decide, by decide⟩
  have isolated : Isolated (range 1990 2010) (1990 :: 1990 :: samples) := by
    rw [isolated_cons, isolated_cons, isolated_cons]
    have low : (1990 : U16) ∈ range 1990 2010 := ⟨by decide, by decide⟩
    have before : (1995 : U16) ∈ range 1990 2010 := ⟨by decide, by decide⟩
    have after : (2005 : U16) ∈ range 1990 2010 := ⟨by decide, by decide⟩
    exact ⟨.inl ⟨low, low⟩, .inl ⟨low, before⟩, .inr (.inr ⟨before, after⟩), isolated_pair _ _⟩
  exact clutch_isolated_spikes within isolated

end FanatecWheel.App
