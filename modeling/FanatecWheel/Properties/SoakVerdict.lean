import FanatecWheel.Host.ConsoleText

/-!
# The soak verdict and the device

The device prints its counters and the soak runner finds them by their labels. A label
that is spelled otherwise is missing there, and a missing counter reads as 0.
-/

namespace FanatecWheel.Host

open Foundation Rimlink App

/-! ### A key of the dictionary -/

/-- The value of a key after one more match. -/
def lastValue (key : Text) (n : ℕ) : List Text → ℕ
  | [k, v] => if key = k then Nat.ofDigitChars 10 v 0 else n
  | _ => n

theorem statOf_parseStat (stats : SoakStats) (key : Text) (m : List Text) :
    statOf (parseStat stats m) key = lastValue key (statOf stats key) m := by
  match m with
  | [k, v] =>
    by_cases same : key = k
    · subst same
      simp only [statOf, parseStat, lastValue, AList.lookup_insert, Option.getD_some, if_true]
    · simp only [statOf, parseStat, lastValue, AList.lookup_insert_ne same, if_neg same]
  | [] | [_] | _ :: _ :: _ :: _ => rfl

/-- A key of the dictionary has the value of its last match. -/
theorem statOf_foldl (out : List (List Text)) (key : Text) (stats : SoakStats) :
    statOf (out.foldl parseStat stats) key = out.foldl (lastValue key) (statOf stats key) := by
  induction out generalizing stats with
  | nil => rfl
  | cons m rest ih => rw [List.foldl_cons, ih, statOf_parseStat, List.foldl_cons]

theorem lastValue_entry (key k : Text) (n m : ℕ) :
    lastValue key n (entry k m) = if key = k then m else n := by
  simp only [lastValue, entry, fmtU, Nat.ofDigitChars_ten_toDigits]

/-- Matches of another label leave the value. -/
theorem lastValue_labelled {key w : Text} (other : key ≠ w) {out : List (List Text)}
    (labelled : Labelled w out) (n : ℕ) : out.foldl (lastValue key) n = n := by
  induction out generalizing n with
  | nil => rfl
  | cons m rest ih =>
    obtain ⟨⟨v, rfl⟩, later⟩ := List.forall_mem_cons.mp labelled
    rw [List.foldl_cons, ih later, lastValue, if_neg other]

/-! ### The verdict -/

/-- The counters with a threshold, under the names that the thresholds give them. -/
def thresholded (d : DeviceCounters) : List (Text × ℕ) :=
  [("crc_err_rx".toList, d.link.crcErrRx.toNat), ("short_frame".toList, d.link.shortFrame.toNat),
    ("overrun".toList, d.link.overrun.toNat), ("rearm_miss".toList, d.link.rearmMiss.toNat),
    ("stale_clear".toList, d.link.staleClear.toNat),
    ("funky_faults".toList, d.v2.funkyFaults.toNat),
    ("wdt_resets".toList, d.health.hc.wdtResets.toNat)]

/-- A counter exceeds its threshold. -/
def Exceeds (d : DeviceCounters) : Prop :=
  ∃ key limit n, (key, limit) ∈ thresholds ∧ (key, n) ∈ thresholded d ∧ limit < n

/-- A counter other than the faults of the funky switch exceeds its threshold. -/
def OtherExceeds (d : DeviceCounters) : Prop :=
  ∃ key limit n, (key, limit) ∈ thresholds ∧ (key, n) ∈ thresholded d ∧ limit < n ∧
    key ≠ "funky_faults".toList

/-- What the runner reads for a counter with a threshold. -/
def readCounter (key : Text) (n : ℕ) : ℕ := if key = "funky_faults".toList then 0 else n

private theorem thresholds_thresholded (d : DeviceCounters) {key : Text} {limit : ℕ}
    (threshold : (key, limit) ∈ thresholds) : ∃ n, (key, n) ∈ thresholded d := by
  have names : thresholds.map Prod.fst = (thresholded d).map Prod.fst := rfl
  have named : key ∈ (thresholded d).map Prod.fst := by
    rw [← names]
    exact List.mem_map_of_mem threshold
  obtain ⟨⟨k, n⟩, member, rfl⟩ := List.mem_map.mp named
  exact ⟨n, member⟩

theorem statOf_console (d : DeviceCounters) {key : Text} {n : ℕ}
    (member : (key, n) ∈ thresholded d) :
    statOf (parseStats (consoleText d)) key = readCounter key n := by
  obtain ⟨rumble, enc, rumble_labelled, enc_labelled, found⟩ := findAll_console d
  rw [parseStats, found, statOf_foldl]
  simp only [consoleStats, List.foldl_append, List.foldl_cons, List.foldl_nil, lastValue_entry]
  simp only [thresholded, List.mem_cons, List.not_mem_nil, or_false, Prod.mk.injEq] at member
  -- one case per threshold: which of the labels is the key is decided by their spelling
  rcases member with ⟨rfl, rfl⟩ | ⟨rfl, rfl⟩ | ⟨rfl, rfl⟩ | ⟨rfl, rfl⟩ | ⟨rfl, rfl⟩ | ⟨rfl, rfl⟩ |
    ⟨rfl, rfl⟩
  all_goals
    rw [lastValue_labelled (by decide) enc_labelled, lastValue_labelled (by decide) rumble_labelled]
    simp only [String.toList_inj, String.reduceEq, if_true, if_false, readCounter, healthGet,
      foldStats]
  -- the key that no label has
  rfl

/-- The runner reports a failure when a counter that it finds exceeds its threshold. -/
theorem evaluate_ne_nil (stats : SoakStats) :
    evaluate stats ≠ [] ↔ ∃ key limit, (key, limit) ∈ thresholds ∧ limit < statOf stats key := by
  simp only [evaluate, ne_eq, List.filterMap_eq_nil_iff, Prod.forall, ite_eq_right_iff,
    reduceCtorEq, imp_false, not_forall, not_not, exists_prop]

theorem evaluate_console (d : DeviceCounters) :
    evaluate (parseStats (consoleText d)) ≠ [] ↔ OtherExceeds d := by
  rw [evaluate_ne_nil]
  constructor
  · rintro ⟨key, limit, threshold, exceeded⟩
    obtain ⟨n, member⟩ := thresholds_thresholded d threshold
    rw [statOf_console d member, readCounter] at exceeded
    split at exceeded
    · exact absurd exceeded (Nat.not_lt_zero _)
    next other => exact ⟨key, limit, n, threshold, member, exceeded, other⟩
  · rintro ⟨key, limit, n, threshold, member, exceeded, other⟩
    refine ⟨key, limit, threshold, ?_⟩
    rw [statOf_console d member, readCounter, if_neg other]
    exact exceeded

private theorem thresholded_funky (d : DeviceCounters) {n : ℕ}
    (member : ("funky_faults".toList, n) ∈ thresholded d) : n = d.v2.funkyFaults.toNat := by
  simpa only [thresholded, List.mem_cons, Prod.mk.injEq, String.toList_inj, String.reduceEq,
    false_and, true_and, false_or, List.not_mem_nil, or_false] using member

/-- The threshold of the faults of the funky switch is 0. -/
theorem exceeds_iff (d : DeviceCounters) :
    Exceeds d ↔ OtherExceeds d ∨ d.v2.funkyFaults ≠ 0 := by
  constructor
  · rintro ⟨key, limit, n, threshold, member, exceeded⟩
    by_cases funky : key = "funky_faults".toList
    · right
      subst funky
      rw [thresholded_funky d member] at exceeded
      intro none
      rw [none] at exceeded
      exact absurd exceeded (Nat.not_lt_zero _)
    · left
      exact ⟨key, limit, n, threshold, member, exceeded, funky⟩
  · rintro (⟨key, limit, n, threshold, member, exceeded, -⟩ | faults)
    · exact ⟨key, limit, n, threshold, member, exceeded⟩
    · refine ⟨"funky_faults".toList, 0, d.v2.funkyFaults.toNat, ?_, ?_, ?_⟩
      · simp only [thresholds, List.mem_cons, true_or, or_true]
      · simp only [thresholded, List.mem_cons, true_or, or_true]
      · exact Nat.pos_of_ne_zero fun zero => faults (BitVec.eq_of_toNat_eq zero)

/-- **The verdict.** It matches the device exactly when the funky switch has no fault or
another counter fails the run. -/
theorem verdict_matches (d : DeviceCounters) :
    (evaluate (parseStats (consoleText d)) ≠ [] ↔ Exceeds d) ↔
      d.v2.funkyFaults = 0 ∨ OtherExceeds d := by
  rw [evaluate_console, exceeds_iff]
  constructor
  · intro same
    by_cases faults : d.v2.funkyFaults = 0
    · exact .inl faults
    · exact .inr (same.mpr (.inr faults))
  · rintro (none | other)
    · exact ⟨.inl, fun exceeded => exceeded.resolve_right fun faults => faults none⟩
    · exact ⟨.inl, fun _ => other⟩

/-- A device on which only the funky switch has failed, once. -/
def oneFault : DeviceCounters where
  link := .zero
  output := ⟨0, fun _ => 0, 0, 0, 0⟩
  p99Us := 0
  maxUs := 0
  v2 := ⟨fun _ => 0, fun _ => 0, .idle, false, 1, fun _ => 0, 0, fun _ => 0⟩
  health := ⟨.zero, .zero⟩

/-- The fault is printed under another label, and the run passes. -/
theorem fault_passes :
    evaluate (parseStats (consoleText oneFault)) = [] ∧ Exceeds oneFault := by
  constructor
  · decide +kernel
  · apply (exceeds_iff oneFault).mpr
    right
    decide

end FanatecWheel.Host
