import FanatecWheel.App.Switches

/-!
# Hysteresis of the D-pad ladder

Seven descending thresholds cut the range of the converter into eight windows. A jump to
a window below is measured from the edge of the window that is left, a jump to a window
above from the lower edge of the window that is reached.
-/

namespace FanatecWheel.App

/-- The sample lies between the two thresholds of the window. -/
def InWindow (thr : Fin 7 → U16) (raw : U16) (pos : DpadPos) : Prop :=
  (∀ i : Fin 7, i.succ = pos → raw ≤ thr i) ∧ ∀ i : Fin 7, i.castSucc = pos → thr i < raw

/-- The sample lies in the window of the position, widened by the hysteresis on both sides. -/
def WithinBand (d : DpadDecoder) (raw : U16) : Prop :=
  (∀ i : Fin 7, i.succ = d.cur → raw.toNat ≤ (d.thr i).toNat + d.hyst.toNat) ∧
    ∀ i : Fin 7, i.castSucc = d.cur → (d.thr i).toNat ≤ raw.toNat + d.hyst.toNat

/-- The position is kept exactly in the widened window, and else it is the window of the
sample. -/
def SchmittStep (d : DpadDecoder) (raw : U16) : Prop :=
  let pos := (dpadDecode d raw).2
  (dpadDecode d raw).1 = { d with cur := pos } ∧ (pos = d.cur ↔ WithinBand d raw) ∧
    (¬ WithinBand d raw → InWindow d.thr raw pos)

/-- A jump over at least one window towards the higher readings, to a sample within the
hysteresis above the lower threshold of its window. -/
def ShortOfJump (d : DpadDecoder) (raw : U16) : Prop :=
  ∃ i j : Fin 7, i.castSucc = windowOf d raw ∧ i < j ∧ j.succ = d.cur ∧
    raw.toNat ≤ (d.thr i).toNat + d.hyst.toNat ∧ (d.thr j).toNat + d.hyst.toNat < raw.toNat

/-! ### The window of a sample -/

/-- The first threshold below the sample. -/
theorem windowOf_spec (d : DpadDecoder) (raw : U16) :
    (∀ i : Fin 7, i.castSucc < windowOf d raw → raw ≤ d.thr i) ∧
      ∀ i : Fin 7, i.castSucc = windowOf d raw → d.thr i < raw := by
  unfold windowOf
  split
  next w found =>
    obtain ⟨below, k, inside, same, earlier⟩ := List.find?_eq_some_iff_getElem.mp found
    rw [List.getElem_finRange] at same
    subst same
    constructor
    · intro i before
      have first := earlier i.val before
      rw [List.getElem_finRange] at first
      simpa using first
    · intro i same
      rw [Fin.castSucc_inj.mp same]
      simpa using below
  next none =>
    rw [List.find?_eq_none] at none
    constructor
    · intro i _
      simpa using none i (List.mem_finRange i)
    · intro i last
      exact absurd last i.castSucc_lt_last.ne

theorem windowOf_inWindow (d : DpadDecoder) (raw : U16) : InWindow d.thr raw (windowOf d raw) := by
  obtain ⟨above, below⟩ := windowOf_spec d raw
  refine ⟨fun i upper => above i ?_, below⟩
  rw [← upper]
  exact i.castSucc_lt_succ

/-! ### One sample -/

/-- The decoder moves to the window or stays. -/
private def moved (d : DpadDecoder) (pos : DpadPos) (leaves : Prop) [Decidable leaves] :
    DpadDecoder × DpadPos :=
  if leaves then ({ d with cur := pos }, pos) else (d, d.cur)

/-- A window below: the distance is that to the lower edge of the current window. -/
private theorem dpadDecode_below {d : DpadDecoder} {raw : U16} {i : Fin 7}
    (edge : i.castSucc = d.cur) (below : d.cur < windowOf d raw) :
    dpadDecode d raw = moved d (windowOf d raw)
      (raw.toNat + d.hyst.toNat < (d.thr i).toNat) := by
  have above := BitVec.le_def.mp ((windowOf_spec d raw).1 i (edge ▸ below))
  have boundary : ∀ lt, (if d.cur < windowOf d raw then d.cur else windowOf d raw).castLT lt = i := by
    intro lt
    apply Fin.castSucc_injective
    rw [Fin.castSucc_castLT, if_pos below, edge]
  have dist : (d.hyst < if d.thr i < raw then raw - d.thr i else d.thr i - raw) ↔
      raw.toNat + d.hyst.toNat < (d.thr i).toNat := by
    rw [if_neg (BitVec.not_lt.mpr (BitVec.le_def.mpr above)), BitVec.lt_def, BitVec.toNat_sub_of_le
      (BitVec.le_def.mpr above)]
    omega
  simp only [dpadDecode, below.ne', dif_neg, not_false_eq_true, boundary, moved, dist]
  split <;> rfl

/-- A window above: the distance is that to the lower edge of the new window. -/
private theorem dpadDecode_above {d : DpadDecoder} {raw : U16} {i : Fin 7}
    (edge : i.castSucc = windowOf d raw) (above : windowOf d raw < d.cur) :
    dpadDecode d raw = moved d (windowOf d raw)
      ((d.thr i).toNat + d.hyst.toNat < raw.toNat) := by
  have below := (windowOf_spec d raw).2 i edge
  -- the index is that of the new window, however far away the current one is
  have boundary : ∀ lt, (if d.cur < windowOf d raw then d.cur else windowOf d raw).castLT lt = i := by
    intro lt
    apply Fin.castSucc_injective
    rw [Fin.castSucc_castLT, if_neg above.not_gt, edge]
  have dist : (d.hyst < if d.thr i < raw then raw - d.thr i else d.thr i - raw) ↔
      (d.thr i).toNat + d.hyst.toNat < raw.toNat := by
    rw [if_pos below, BitVec.lt_def, BitVec.toNat_sub_of_le (BitVec.le_of_lt below)]
    have order := BitVec.lt_def.mp below
    omega
  simp only [dpadDecode, above.ne, dif_neg, not_false_eq_true, boundary, moved, dist]
  split <;> rfl

/-! ### The trigger -/

/-- A move that is right whenever the sample has left the widened window. -/
private theorem moved_schmitt {d : DpadDecoder} {raw : U16} {leaves : Prop} [Decidable leaves]
    (decoded : dpadDecode d raw = moved d (windowOf d raw) leaves)
    (other : windowOf d raw ≠ d.cur) :
    SchmittStep d raw ↔ (leaves ↔ ¬ WithinBand d raw) := by
  unfold SchmittStep
  rw [decoded]
  unfold moved
  split
  next left =>
    have reached := windowOf_inWindow d raw
    simp only [other, left, reached, implies_true, true_and, and_true, true_iff, false_iff]
  next stayed =>
    simp only [stayed, true_iff, false_iff, not_not, true_and]
    exact ⟨fun held => held.1, fun held => ⟨held, fun out => absurd held out⟩⟩

/-- A sample in the window itself. -/
private theorem stay_within {d : DpadDecoder} {raw : U16} (same : windowOf d raw = d.cur) :
    WithinBand d raw := by
  have inside := windowOf_inWindow d raw
  rw [same] at inside
  constructor
  · intro i upper
    have held := BitVec.le_def.mp (inside.1 i upper)
    omega
  · intro i lower
    have held := BitVec.lt_def.mp (inside.2 i lower)
    omega

private theorem below_within {d : DpadDecoder} {raw : U16} {i : Fin 7}
    (edge : i.castSucc = d.cur) (down : d.cur < windowOf d raw) :
    WithinBand d raw ↔ (d.thr i).toNat ≤ raw.toNat + d.hyst.toNat := by
  constructor
  · intro within
    exact within.2 i edge
  · intro near
    constructor
    · intro j upper
      have before : j.castSucc < windowOf d raw := (upper ▸ j.castSucc_lt_succ : _ < d.cur).trans down
      have held := BitVec.le_def.mp ((windowOf_spec d raw).1 j before)
      omega
    · intro j lower
      rw [Fin.castSucc_inj.mp (lower.trans edge.symm)]
      exact near

private theorem above_within {d : DpadDecoder} {raw : U16}
    (descending : ∀ i j : Fin 7, i < j → d.thr j < d.thr i) {j : Fin 7} (upper : j.succ = d.cur)
    (up : windowOf d raw < d.cur) :
    WithinBand d raw ↔ raw.toNat ≤ (d.thr j).toNat + d.hyst.toNat := by
  obtain ⟨i, edge⟩ := Fin.exists_castSucc_eq.mpr (up.trans_le (Fin.le_last d.cur)).ne
  have held := BitVec.lt_def.mp ((windowOf_spec d raw).2 i edge)
  constructor
  · intro within
    exact within.1 j upper
  · intro near
    constructor
    · intro k upper'
      rw [Fin.succ_inj.mp (upper'.trans upper.symm)]
      exact near
    · -- the lower edge of the current window is below that of the sample's own
      intro k lower
      have order : i < k := by
        rw [← Fin.castSucc_lt_castSucc_iff, edge, lower]
        exact up
      have falls := BitVec.lt_def.mp (descending i k order)
      omega

/-- **Hysteresis.** For a descending table the decoder is a Schmitt trigger around the current
window, exactly when the sample does not fall short of a jump over a window. -/
theorem dpad_schmitt (d : DpadDecoder) (raw : U16)
    (descending : ∀ i j : Fin 7, i < j → d.thr j < d.thr i) :
    SchmittStep d raw ↔ ¬ ShortOfJump d raw := by
  rcases lt_trichotomy d.cur (windowOf d raw) with down | same | up
  · -- the edge that counts is that of the current window
    obtain ⟨i, edge⟩ := Fin.exists_castSucc_eq.mpr (down.trans_le (Fin.le_last _)).ne
    have short : ¬ ShortOfJump d raw := by
      rintro ⟨k, j, window, order, upper, -⟩
      rw [← window, ← upper] at down
      exact absurd (down.trans (Fin.castSucc_lt_succ_iff.mpr order.le)) (lt_irrefl _)
    rw [moved_schmitt (dpadDecode_below edge down) down.ne', below_within edge down, not_le]
    simp only [short, not_false_eq_true]
  · have short : ¬ ShortOfJump d raw := by
      rintro ⟨k, j, window, order, upper, -⟩
      rw [← window, ← upper] at same
      exact absurd same (Fin.castSucc_lt_succ_iff.mpr order.le).ne'
    have within := stay_within same.symm
    have stayed : dpadDecode d raw = (d, d.cur) := by
      simp only [dpadDecode, same.symm, dif_pos]
    simp only [SchmittStep, stayed, within, short, not_true_eq_false, not_false_eq_true,
      false_implies, and_self]
  · obtain ⟨i, edge⟩ := Fin.exists_castSucc_eq.mpr (up.trans_le (Fin.le_last d.cur)).ne
    obtain ⟨j, upper⟩ := Fin.exists_succ_eq.mpr (up.trans_le' (Fin.zero_le _)).ne'
    have order : i ≤ j := by
      rw [← Fin.castSucc_lt_succ_iff, edge, upper]
      exact up
    rw [moved_schmitt (dpadDecode_above edge up) up.ne, above_within descending upper up, not_le]
    rcases order.eq_or_lt with rfl | apart
    · -- the next window: its lower edge is the upper edge of the current one
      have short : ¬ ShortOfJump d raw := by
        rintro ⟨k, l, window, apart, upper', -⟩
        rw [Fin.castSucc_inj.mp (window.trans edge.symm),
          Fin.succ_inj.mp (upper'.trans upper.symm)] at apart
        exact absurd apart (lt_irrefl _)
      simp only [short, not_false_eq_true]
    · have falls := BitVec.lt_def.mp (descending i j apart)
      constructor
      · rintro same ⟨k, l, window, -, upper', near, far⟩
        rw [Fin.castSucc_inj.mp (window.trans edge.symm)] at near
        rw [Fin.succ_inj.mp (upper'.trans upper.symm)] at far
        exact absurd (same.mpr far) (not_lt.mpr near)
      · intro long
        constructor
        · intro clear
          omega
        · intro far
          by_contra near
          exact long ⟨i, j, edge, apart, upper, not_lt.mp near, far⟩

instance (d : DpadDecoder) (raw : U16) : Decidable (ShortOfJump d raw) :=
  inferInstanceAs (Decidable (∃ _ _ : Fin 7, _ ∧ _ ∧ _ ∧ _ ∧ _))

/-- From the button window to just above the highest threshold of the default table: the
sample is far outside the window, but the position stays. -/
theorem dpad_jump_missed :
    let d : DpadDecoder := { dpadInit none 0 with cur := 7 }
    ¬ WithinBand d 3740 ∧ (dpadDecode d 3740).2 = 7 := by
  constructor
  · rintro ⟨upper, -⟩
    exact absurd (upper 6 rfl) (by decide)
  · decide

/-- The same jump to a sample well inside the window. -/
theorem dpad_schmitt_jump : SchmittStep { dpadInit none 0 with cur := 7 } 4000 := by
  apply (dpad_schmitt _ _ (by decide)).mpr
  decide

end FanatecWheel.App
