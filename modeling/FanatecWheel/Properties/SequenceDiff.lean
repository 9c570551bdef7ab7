import FanatecWheel.Foundation.CommonSubsequence
import FanatecWheel.Properties.CaptureDump

/-!
# What the reconciliation reports

The walk of `seq_diff` never looks back: at a mismatch it skips a frame of the longer rest. So its
matches are a common subsequence that leaves frames out at a certain pace, and the longest of
those; a longest common subsequence when one of these keeps that pace.
-/

namespace FanatecWheel.Host

open Foundation Rimlink App

/-! ### The pace of the walk -/

section Pace

variable {α : Type*}

/-- What two sequences may leave out in front of a pair, by the frames that follow the pair: no
LA frame when at least two more of them are in the DUT, no DUT frame when more are in the LA. -/
def InPace (dout lout dset lset : List α) : Prop :=
  (lset.length + 2 ≤ dset.length → lout = []) ∧ (dset.length < lset.length → dout = [])

/-- So many equal frames are paired in order, and in pace. -/
def Paced : List α → List α → ℕ → Prop := Paired InPace

variable {dset lset : List α} {n : ℕ}

/-- One more DUT frame is left out in front. -/
theorem Paced.cons_dut (d : α) (ahead : lset.length ≤ dset.length) (paced : Paced dset lset n) :
    Paced (d :: dset) lset n := by
  cases paced with
  | rest => exact .rest _ _
  | pair dout lout frame gap paced =>
    refine .pair (d :: dout) lout frame ⟨gap.1, fun more => ?_⟩ paced
    -- the DUT left nothing out there, so that the LA would be longer in front of the pair too
    rw [gap.2 more, List.length_append, List.length_append, List.length_cons, List.length_cons,
      List.length_nil] at ahead
    omega

/-- One more LA frame is. -/
theorem Paced.cons_la (l : α) (behind : dset.length ≤ lset.length + 1)
    (paced : Paced dset lset n) : Paced dset (l :: lset) n := by
  cases paced with
  | rest => exact .rest _ _
  | pair dout lout frame gap paced =>
    refine .pair dout (l :: lout) frame ⟨fun more => ?_, gap.2⟩ paced
    rw [gap.1 more, List.length_append, List.length_append, List.length_cons, List.length_cons,
      List.length_nil] at behind
    omega

theorem Paced.append_dut (dout : List α) (ahead : lset.length ≤ dset.length)
    (paced : Paced dset lset n) : Paced (dout ++ dset) lset n := by
  induction dout with
  | nil => exact paced
  | cons d dout ih =>
    rw [List.cons_append]
    refine ih.cons_dut d (ahead.trans ?_)
    rw [List.length_append]
    exact Nat.le_add_left _ _

theorem Paced.append_la (lout : List α) (behind : dset.length ≤ lset.length + 1)
    (paced : Paced dset lset n) : Paced dset (lout ++ lset) n := by
  induction lout with
  | nil => exact paced
  | cons l lout ih =>
    rw [List.cons_append]
    refine ih.cons_la l (behind.trans ?_)
    rw [List.length_append]
    omega

/-- Equal heads may be paired. -/
theorem Paced.same {d : α} (paced : Paced (d :: dset) (d :: lset) (n + 1)) :
    Paced dset lset n ∨ Paced dset lset (n + 1) := by
  obtain ⟨dout, lout, frame, dset', lset', inDut, inLa, gap, rest⟩ := paced.first
  cases dout with
  | nil =>
    obtain ⟨rfl, rfl⟩ := List.cons.inj inDut
    cases lout with
    | nil =>
      obtain ⟨-, rfl⟩ := List.cons.inj inLa
      exact .inl rest
    | cons l lout =>
      obtain ⟨-, rfl⟩ := List.cons.inj inLa
      -- the LA left frames out, so that few follow in the DUT
      have behind : dset.length ≤ lset'.length + 1 := by
        by_contra more
        cases gap.1 (by omega)
      exact .inl ((Paced.cons_la d behind rest).append_la lout (by rw [List.length_cons]; omega))
  | cons d' dout =>
    obtain ⟨-, rfl⟩ := List.cons.inj inDut
    have ahead : lset'.length ≤ dset'.length := by
      by_contra more
      cases gap.2 (by omega)
    cases lout with
    | nil =>
      obtain ⟨rfl, rfl⟩ := List.cons.inj inLa
      exact .inl ((Paced.cons_dut d ahead rest).append_dut dout (by rw [List.length_cons]; omega))
    | cons l lout =>
      obtain ⟨-, rfl⟩ := List.cons.inj inLa
      refine .inr (.pair dout lout frame ⟨fun more => ?_, fun more => ?_⟩ rest)
      · cases gap.1 more
      · omega

/-- When the heads differ and the DUT is longer, its head is in no pair. -/
theorem Paced.skip_dut {d l : α} (differ : d ≠ l) (longer : (l :: lset).length < (d :: dset).length)
    (paced : Paced (d :: dset) (l :: lset) (n + 1)) : Paced dset (l :: lset) (n + 1) := by
  obtain ⟨dout, lout, frame, dset', lset', inDut, inLa, gap, rest⟩ := paced.first
  cases dout with
  | nil =>
    obtain ⟨rfl, rfl⟩ := List.cons.inj inDut
    cases lout with
    | nil => exact absurd (List.cons.inj inLa).1.symm differ
    | cons l' lout =>
      -- its head in a pair and the head of the LA in none: more would have to follow in the DUT
      rw [inLa, List.length_append, List.length_cons, List.length_cons, List.length_cons] at longer
      cases gap.1 (by omega)
  | cons d' dout =>
    obtain ⟨-, rfl⟩ := List.cons.inj inDut
    rw [inLa]
    refine .pair dout lout frame ⟨gap.1, fun more => ?_⟩ rest
    cases gap.2 more

/-- When it is not, the head of the LA is in none. -/
theorem Paced.skip_la {d l : α} (differ : d ≠ l)
    (short : ¬ (l :: lset).length < (d :: dset).length)
    (paced : Paced (d :: dset) (l :: lset) (n + 1)) : Paced (d :: dset) lset (n + 1) := by
  obtain ⟨dout, lout, frame, dset', lset', inDut, inLa, gap, rest⟩ := paced.first
  cases lout with
  | nil =>
    obtain ⟨rfl, rfl⟩ := List.cons.inj inLa
    cases dout with
    | nil => exact absurd (List.cons.inj inDut).1 differ
    | cons d' dout =>
      rw [inDut, List.length_append, List.length_cons, List.length_cons, List.length_cons] at short
      cases gap.2 (by omega)
  | cons l' lout =>
    obtain ⟨-, rfl⟩ := List.cons.inj inLa
    rw [inDut]
    refine .pair dout lout frame ⟨fun more => ?_, gap.2⟩ rest
    cases gap.1 more

/-- DUT frames that are in the LA are paired in pace, also with one more behind them. -/
theorem paced_of_sublist (last : List α) (few : last.length ≤ 1) (inside : dset.Sublist lset) :
    Paced (dset ++ last) lset dset.length := by
  refine Paired.of_sublist last (fun lout dset lset inside => ⟨fun more => ?_, fun _ => rfl⟩) inside
  have shorter := inside.length_le
  rw [List.length_append] at more
  omega

theorem paced_of_superlist (inside : lset.Sublist dset) : Paced dset lset lset.length := by
  have paired : Paired (fun lout dout lset dset => InPace dout lout dset lset) (lset ++ []) dset
      lset.length := by
    refine .of_sublist [] (fun dout lset dset inside => ⟨fun _ => rfl, fun more => ?_⟩) inside
    have shorter := inside.length_le
    rw [List.append_nil] at more
    omega
  rw [List.append_nil] at paired
  exact paired.swap

end Pace

/-! ### The walk -/

section Walk

variable {α : Type*} [DecidableEq α] {dset lset : List α} {n : ℕ}

theorem matchCount_nil_left (lset : List α) : matchCount [] lset = 0 := by
  rw [matchCount]
  intro d dset l rest empty
  cases empty

theorem matchCount_nil_right (dset : List α) : matchCount dset [] = 0 := by
  rw [matchCount]
  intro d rest l lset _ empty
  cases empty

theorem matchCount_same (d : α) (dset lset : List α) :
    matchCount (d :: dset) (d :: lset) = matchCount dset lset + 1 := by
  rw [matchCount, if_pos rfl]

theorem matchCount_skip_dut {d l : α} (differ : d ≠ l) {dset lset : List α}
    (longer : (l :: lset).length < (d :: dset).length) :
    matchCount (d :: dset) (l :: lset) = matchCount dset (l :: lset) := by
  rw [matchCount, if_neg differ, if_pos longer]

theorem matchCount_skip_la {d l : α} (differ : d ≠ l) {dset lset : List α}
    (short : ¬ (l :: lset).length < (d :: dset).length) :
    matchCount (d :: dset) (l :: lset) = matchCount (d :: dset) lset := by
  rw [matchCount, if_neg differ, if_neg short]

/-- The matches of the walk are in pace. -/
theorem paced_matchCount (dset lset : List α) : Paced dset lset (matchCount dset lset) := by
  induction dset, lset using matchCount.induct with
  | case1 dset d lset ih =>
    rw [matchCount_same]
    exact .pair [] [] d ⟨fun _ => rfl, fun _ => rfl⟩ ih
  | case2 d dset l lset differ longer ih =>
    rw [matchCount_skip_dut differ longer]
    exact ih.cons_dut d (Nat.le_of_lt_succ longer)
  | case3 d dset l lset differ short ih =>
    rw [matchCount_skip_la differ short]
    exact ih.cons_la l (Nat.not_lt.mp short)
  | case4 dset lset other =>
    rw [matchCount]
    · exact .rest dset lset
    · exact other

/-- No pairing in pace has more pairs. -/
theorem Paced.le_matchCount (paced : Paced dset lset n) : n ≤ matchCount dset lset := by
  induction dset, lset using matchCount.induct generalizing n with
  | case1 dset d lset ih =>
    rw [matchCount_same]
    cases n with
    | zero => exact Nat.zero_le _
    | succ n =>
      rcases paced.same with rest | more
      · exact Nat.succ_le_succ (ih rest)
      · exact Nat.le_succ_of_le (ih more)
  | case2 d dset l lset differ longer ih =>
    rw [matchCount_skip_dut differ longer]
    cases n with
    | zero => exact Nat.zero_le _
    | succ n => exact ih (paced.skip_dut differ longer)
  | case3 d dset l lset differ short ih =>
    rw [matchCount_skip_la differ short]
    cases n with
    | zero => exact Nat.zero_le _
    | succ n => exact ih (paced.skip_la differ short)
  | case4 dset lset other =>
    cases n with
    | zero => exact Nat.zero_le _
    | succ n =>
      obtain ⟨dout, lout, frame, dset', lset', rfl, rfl, -, -⟩ := paced.first
      cases dout <;> cases lout <;> exact absurd rfl (other _ _ _ _ rfl)

/-- **The walk is optimal at its pace**: it finds as many pairs as any pairing in pace has. -/
theorem matchCount_isGreatest (dset lset : List α) :
    IsGreatest {n | Paced dset lset n} (matchCount dset lset) :=
  ⟨paced_matchCount dset lset, fun _ paced => paced.le_matchCount⟩

/-- The matches are as many as can be exactly if a longest common subsequence keeps the pace. -/
theorem matchCount_exact_iff (dset lset : List α) :
    IsGreatest (commonLengths dset lset) (matchCount dset lset) ↔
      ∃ n, IsGreatest (commonLengths dset lset) n ∧ Paced dset lset n := by
  obtain ⟨walked, most⟩ := matchCount_isGreatest dset lset
  constructor
  · exact fun greatest => ⟨_, greatest, walked⟩
  · rintro ⟨n, greatest, paced⟩
    rwa [Nat.le_antisymm (greatest.2 walked.common) (most paced)]

/-- A frame that is not on the other side yet costs one at most. -/
theorem matchCount_waiting (last : List α) (few : last.length ≤ 1) (inside : dset.Sublist lset) :
    dset.length ≤ matchCount (dset ++ last) lset :=
  (paced_of_sublist last few inside).le_matchCount

theorem matchCount_of_sublist (inside : dset.Sublist lset) :
    matchCount dset lset = dset.length := by
  refine Nat.le_antisymm ((isGreatest_of_sublist inside).2 (paced_matchCount dset lset).common) ?_
  have most := matchCount_waiting [] (Nat.zero_le 1) inside
  rwa [List.append_nil] at most

theorem matchCount_of_superlist (inside : lset.Sublist dset) :
    matchCount dset lset = lset.length :=
  Nat.le_antisymm ((isGreatest_of_superlist inside).2 (paced_matchCount dset lset).common)
    (paced_of_superlist inside).le_matchCount

/-! ### Windows that overlap -/

/-- Two windows on one sequence of distinct frames, where the later one ends later: once the
walk stands at different frames it never meets the same frame twice. -/
theorem matchCount_windows {s : List α} (distinct : s.Nodup) {m : ℕ} (later : m < s.length)
    (left : ℕ) : ∀ i k, i < k → (m - i) + (s.length - k) ≤ left →
      matchCount ((s.take m).drop i) (s.drop k) = 0 := by
  -- by what is left of the two windows; the walk stays at two different places of `s`
  induction left with
  | zero =>
    intro i k _ bound
    rw [List.drop_of_length_le (by rw [List.length_take]; omega)]
    exact matchCount_nil_left _
  | succ left ih =>
    intro i k apart bound
    rcases Nat.lt_or_ge i m with inDut | doneDut
    · rcases Nat.lt_or_ge k s.length with inLa | doneLa
      · have dut : (s.take m).drop i = s[i] :: (s.take m).drop (i + 1) := by
          rw [List.drop_eq_getElem_cons (by rw [List.length_take]; omega), List.getElem_take]
        have la : s.drop k = s[k] :: s.drop (k + 1) := List.drop_eq_getElem_cons inLa
        have differ : s[i] ≠ s[k] := by
          rw [Ne, distinct.getElem_inj_iff]
          omega
        by_cases longer : (s.drop k).length < ((s.take m).drop i).length
        · have room := longer
          rw [List.length_drop, List.length_drop, List.length_take] at room
          rw [la, dut] at longer ⊢
          rw [matchCount_skip_dut differ longer, ← la]
          exact ih (i + 1) k (by omega) (by omega)
        · rw [la, dut] at longer ⊢
          rw [matchCount_skip_la differ longer, ← dut]
          exact ih i (k + 1) (by omega) (by omega)
      · rw [List.drop_of_length_le doneLa]
        exact matchCount_nil_right _
    · rw [List.drop_of_length_le (by rw [List.length_take]; omega)]
      exact matchCount_nil_left _

/-- The DUT window starts earlier and the LA window ends later: nothing is matched. -/
theorem matchCount_overlap {before common after : List α} (started : before ≠ [])
    (ended : after ≠ []) (distinct : (before ++ common ++ after).Nodup) :
    matchCount (before ++ common) (common ++ after) = 0 := by
  have first := List.length_pos_iff.mpr started
  have last := List.length_pos_iff.mpr ended
  have shorter : (before ++ common).length < (before ++ common ++ after).length := by
    simp only [List.length_append]
    omega
  have nothing := matchCount_windows distinct shorter _ 0 before.length first (Nat.le_refl _)
  rw [List.take_left' rfl, List.drop_zero, List.append_assoc, List.drop_left' rfl] at nothing
  exact nothing

end Walk

/-! ### The report -/

/-- The report is exact: the matches are a longest common subsequence, and the two other numbers
the least differences. -/
structure Exact (dut : List DutEntry) (la : List Text) : Prop where
  matched : IsGreatest (commonLengths (dut.map DutEntry.hex) la) (seqDiff dut la).matched
  dutExtra : IsLeast ((fun n : ℕ => (dut.length : ℤ) - n) ''
    commonLengths (dut.map DutEntry.hex) la) (seqDiff dut la).dutExtra
  laUnmatched : IsLeast ((fun n : ℕ => (la.length : ℤ) - n) ''
    commonLengths (dut.map DutEntry.hex) la) (seqDiff dut la).laUnmatched

theorem exact_iff {dut : List DutEntry} {la : List Text} : Exact dut la ↔
    IsGreatest (commonLengths (dut.map DutEntry.hex) la) (seqDiff dut la).matched := by
  constructor
  · exact Exact.matched
  · intro matched
    refine ⟨matched, ?_, isLeast_rest matched la.length⟩
    rw [seqDiff, List.length_map]
    exact isLeast_rest matched dut.length

/-- Frames that the device lost are reported as such and nothing else is. -/
theorem seqDiff_lossy {dut : List DutEntry} {la : List Text}
    (seen : (dut.map DutEntry.hex).Sublist la) :
    Exact dut la ∧ (seqDiff dut la).dutExtra = 0 := by
  have all := matchCount_of_sublist seen
  refine ⟨exact_iff.mpr ?_, ?_⟩
  · simp only [seqDiff, all]
    exact isGreatest_of_sublist seen
  · simp only [seqDiff, all, Int.sub_self]

/-- So are frames that the analyser lost. -/
theorem seqDiff_blind {dut : List DutEntry} {la : List Text}
    (recorded : la.Sublist (dut.map DutEntry.hex)) :
    Exact dut la ∧ (seqDiff dut la).laUnmatched = 0 := by
  have all := matchCount_of_superlist recorded
  refine ⟨exact_iff.mpr ?_, ?_⟩
  · simp only [seqDiff, all]
    exact isGreatest_of_superlist recorded
  · simp only [seqDiff, all, Int.sub_self]

/-- The hex text of a frame that repeats a digit. -/
def frameText (digit : Char) : Text := List.replicate 66 digit

/-- The report is exact if and only if some longest common subsequence keeps the pace in the two
sequences, and so whenever one of them is in the other. -/
theorem seqDiff_exact_iff (dut : List DutEntry) (la : List Text) :
    (Exact dut la ↔ ∃ n, IsGreatest (commonLengths (dut.map DutEntry.hex) la) n ∧
      Paced (dut.map DutEntry.hex) la n) ∧
    ((dut.map DutEntry.hex).Sublist la ∨ la.Sublist (dut.map DutEntry.hex) → Exact dut la) := by
  refine ⟨exact_iff.trans (matchCount_exact_iff _ _), ?_⟩
  rintro (seen | recorded)
  · exact (seqDiff_lossy seen).1
  · exact (seqDiff_blind recorded).1

/-- The device lost the frame between two others. -/
theorem seqDiff_exact_gap : Exact [⟨frameText '1', true⟩, ⟨frameText '3', false⟩]
    [frameText '1', frameText '2', frameText '3'] :=
  (seqDiff_exact_iff _ _).2 (.inl (by decide))

/-- Two windows of distinct frames that overlap: the report has no match at all. -/
theorem not_exact_overlap {dut : List DutEntry} {before common after : List Text}
    (window : dut.map DutEntry.hex = before ++ common) (started : before ≠ [])
    (shared : common ≠ []) (ended : after ≠ []) (distinct : (before ++ common ++ after).Nodup) :
    ¬ Exact dut (common ++ after) := by
  intro exact
  have overlap : common.length ∈ commonLengths (dut.map DutEntry.hex) (common ++ after) := by
    rw [window]
    exact ⟨common, List.sublist_append_right _ _, List.sublist_append_left _ _, rfl⟩
  have most : common.length ≤ matchCount (dut.map DutEntry.hex) (common ++ after) :=
    exact.matched.2 overlap
  rw [window, matchCount_overlap started ended distinct] at most
  exact shared (List.length_eq_zero_iff.mp (Nat.le_zero.mp most))

/-- The device stops recording a frame before the analyser does. -/
theorem seqDiff_overlap :
    ¬ Exact [⟨frameText '1', true⟩, ⟨frameText '2', true⟩] [frameText '2', frameText '3'] := by
  have window : [(⟨frameText '1', true⟩ : DutEntry), ⟨frameText '2', true⟩].map DutEntry.hex =
      [frameText '1'] ++ [frameText '2'] := rfl
  have distinct : ([frameText '1'] ++ [frameText '2'] ++ [frameText '3']).Nodup := by decide
  exact not_exact_overlap window (List.cons_ne_nil _ _) (List.cons_ne_nil _ _)
    (List.cons_ne_nil _ _) distinct

/-- **From the ring to the report**: when the analyser saw every frame of the ring, the dump
reconciles without an extra frame. -/
theorem ringDiff_cmdRimCapDump (c : Capture) {miso mosi : List Text}
    (txSeen : ((dutCapture c.contents).tx.map DutEntry.hex).Sublist miso)
    (rxSeen : ((dutCapture c.contents).rx.map DutEntry.hex).Sublist mosi) :
    ∃ rx tx, ringDiff (cmdRimCapDump c) miso mosi = some (rx, tx) ∧
      rx.dutExtra = 0 ∧ tx.dutExtra = 0 := by
  refine ⟨_, _, ?_, (seqDiff_lossy rxSeen).2, (seqDiff_lossy txSeen).2⟩
  rw [ringDiff, (loadDut_cmdRimCapDump c).1]
  rfl

end FanatecWheel.Host
