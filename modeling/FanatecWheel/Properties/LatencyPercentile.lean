import FanatecWheel.App.Latency
import FanatecWheel.Foundation.RingLog

/-!
# The latency percentile

The report sorts the filled slots of the latency ring and picks the sample of rank
`99 n / 100`. Until the 32-bit write index wraps, the filled slots are the newest samples.
-/

namespace FanatecWheel.App

open Foundation

/-! ### The sorted copy -/

/-- The slots the report looks at. -/
def LatencyRing.front (l : LatencyRing) : List U32 := (List.ofFn l.ring).take l.count

theorem length_front (l : LatencyRing) : l.front.length = l.count := by
  rw [LatencyRing.front, List.length_take, List.length_ofFn]
  exact Nat.min_eq_left (Nat.min_le_right _ _)

/-- What a sort of the front leaves behind. -/
structure SortedFront (l : LatencyRing) (sorted : List U32) : Prop where
  ascending : sorted.Pairwise (· ≤ ·)
  permutation : sorted.Perm l.front
  within : ∀ rest, sortFirst l.count (l.front ++ rest) = some (sorted ++ rest)

namespace SortedFront

variable {l : LatencyRing} {sorted : List U32}

theorem length_eq (front : SortedFront l sorted) : sorted.length = l.count :=
  front.permutation.length_eq.trans (length_front l)

theorem latencySorted_eq (front : SortedFront l sorted) :
    latencySorted l = some (sorted ++ (List.ofFn l.ring).drop l.count) := by
  have split := front.within ((List.ofFn l.ring).drop l.count)
  rwa [LatencyRing.front, List.take_append_drop] at split

theorem rank_exists (front : SortedFront l sorted) (filled : 0 < l.count) :
    ∃ p99, sorted[l.count * 99 / 100]? = some p99 := by
  have inside : l.count * 99 / 100 < sorted.length := by
    rw [front.length_eq]
    omega
  exact ⟨_, List.getElem?_eq_getElem inside⟩

theorem latencyP99Cyc_empty (front : SortedFront l sorted) (empty : l.count = 0) :
    latencyP99Cyc l = some 0 := by
  rw [latencyP99Cyc, front.latencySorted_eq]
  simp only [Option.bind_eq_bind, Option.bind_some, empty, Nat.lt_irrefl, if_false]

theorem latencyP99Cyc_filled (front : SortedFront l sorted) (filled : 0 < l.count) :
    latencyP99Cyc l = sorted[l.count * 99 / 100]? := by
  rw [latencyP99Cyc, front.latencySorted_eq]
  simp only [Option.bind_eq_bind, Option.bind_some, if_pos filled]
  rw [List.getElem?_append_left (by rw [front.length_eq]; omega)]

/-- At least 99 of 100 samples are not above the sample of that rank. -/
theorem rank_covers (front : SortedFront l sorted) {p99 : U32}
    (found : sorted[l.count * 99 / 100]? = some p99) :
    99 * l.count ≤ 100 * l.front.countP (· ≤ p99) := by
  have rank := rank_le_countP front.ascending found
  rw [front.permutation.countP_eq] at rank
  omega

end SortedFront

theorem sortedFront (l : LatencyRing) : ∃ sorted, SortedFront l sorted := by
  obtain ⟨sorted, ascending, permutation, within⟩ := sortFirst_spec l.front
  rw [length_front] at within
  exact ⟨sorted, ascending, permutation, within⟩

/-! ### Runs -/

def LatencyRing.boot : LatencyRing := ⟨fun _ => 0, 0, 0⟩

def latencyRun (samples : List U32) : LatencyRing := samples.foldl latencyNote .boot

def LatencyRing.toRing (l : LatencyRing) : Ring U32 128 32 := ⟨l.ring, l.idx⟩

theorem latencyRun_append (samples : List U32) (cyc : U32) :
    latencyRun (samples ++ [cyc]) = latencyNote (latencyRun samples) cyc := by
  rw [latencyRun, List.foldl_append]
  rfl

theorem latencyRun_holds (samples : List U32) : (latencyRun samples).toRing.Holds samples := by
  induction samples using List.reverseRecOn with
  | nil => exact Ring.holds_nil _ rfl
  | append_singleton samples cyc ih =>
    rw [latencyRun_append]
    exact Ring.holds_append ⟨2 ^ 25, rfl⟩ ih cyc

theorem maxCyc_latencyNote (l : LatencyRing) (cyc : U32) :
    l.maxCyc ≤ (latencyNote l cyc).maxCyc ∧ cyc ≤ (latencyNote l cyc).maxCyc := by
  simp only [latencyNote]
  split
  next above => exact ⟨BitVec.le_of_lt above, BitVec.le_refl _⟩
  next below => exact ⟨BitVec.le_refl _, BitVec.not_lt.mp below⟩

/-- No sample of a run is above its maximum. -/
theorem le_maxCyc (samples : List U32) : ∀ cyc ∈ samples, cyc ≤ (latencyRun samples).maxCyc := by
  induction samples using List.reverseRecOn with
  | nil => exact nofun
  | append_singleton samples last ih =>
    obtain ⟨kept, above⟩ := maxCyc_latencyNote (latencyRun samples) last
    rw [latencyRun_append, List.forall_mem_append, List.forall_mem_singleton]
    exact ⟨fun cyc member => BitVec.le_trans (ih cyc member) kept, above⟩

theorem count_latencyRun (samples : List U32) (short : samples.length < 2 ^ 32) :
    (latencyRun samples).count = min samples.length 128 := by
  have index : (latencyRun samples).idx = BitVec.ofNat 32 samples.length :=
    (latencyRun_holds samples).count
  rw [LatencyRing.count, index, BitVec.toNat_ofNat, Nat.mod_eq_of_lt short]

/-- The filled slots are the newest samples. -/
theorem front_latencyRun (samples : List U32) (short : samples.length < 2 ^ 32) :
    (latencyRun samples).front.Perm (samples.drop (samples.length - min samples.length 128)) := by
  rw [LatencyRing.front, count_latencyRun samples short]
  exact Ring.window_perm (latencyRun_holds samples)

/-! ### The percentile -/

theorem p99_le_maxCyc (samples : List U32) (short : samples.length < 2 ^ 32) :
    ∃ p99, latencyP99Cyc (latencyRun samples) = some p99 ∧ p99 ≤ (latencyRun samples).maxCyc := by
  obtain ⟨sorted, front⟩ := sortedFront (latencyRun samples)
  rcases Nat.eq_zero_or_pos (latencyRun samples).count with empty | filled
  · exact ⟨0, front.latencyP99Cyc_empty empty, BitVec.le_def.mpr (Nat.zero_le _)⟩
  · obtain ⟨p99, found⟩ := front.rank_exists filled
    have inFront := front.permutation.mem_iff.mp (List.mem_of_getElem? found)
    have inWindow := (front_latencyRun samples short).mem_iff.mp inFront
    refine ⟨p99, ?_, le_maxCyc samples p99 (List.mem_of_mem_drop inWindow)⟩
    rw [front.latencyP99Cyc_filled filled, found]

theorem inputSvcLatencyGet_eq (hz : ℕ) {l : LatencyRing} {p99 : U32}
    (found : latencyP99Cyc l = some p99) :
    inputSvcLatencyGet hz l = some (cycToUs32 hz p99, cycToUs32 hz l.maxCyc) := by
  rw [inputSvcLatencyGet, found]
  rfl

/-- The report takes the right percentile of whatever the ring holds. After a run these are the
newest samples, and on a clock of a megahertz or more the maximum is at least the percentile. -/
theorem latency_percentile (hz : ℕ) :
    (∀ l : LatencyRing, ∃ sorted p99, SortedFront l sorted ∧
      latencySorted l = some (sorted ++ (List.ofFn l.ring).drop l.count) ∧
      latencyP99Cyc l = some p99 ∧
      (if l.count = 0 then p99 = 0 else sorted[99 * l.count / 100]? = some p99) ∧
      99 * l.count ≤ 100 * l.front.countP (· ≤ p99) ∧
      inputSvcLatencyGet hz l = some (cycToUs32 hz p99, cycToUs32 hz l.maxCyc)) ∧
    ∀ samples : List U32, samples.length < 2 ^ 32 →
      (latencyRun samples).count = min samples.length 128 ∧
      (latencyRun samples).front.Perm
        (samples.drop (samples.length - min samples.length 128)) ∧
      (1000000 ≤ hz → ∃ p99 max,
        inputSvcLatencyGet hz (latencyRun samples) = some (p99, max) ∧ p99 ≤ max) := by
  constructor
  · intro l
    obtain ⟨sorted, front⟩ := sortedFront l
    rcases Nat.eq_zero_or_pos l.count with empty | filled
    · have found := front.latencyP99Cyc_empty empty
      refine ⟨sorted, 0, front, front.latencySorted_eq, found, ?_, ?_,
        inputSvcLatencyGet_eq hz found⟩
      · rw [if_pos empty]
      · rw [empty]
        exact Nat.zero_le _
    · obtain ⟨p99, ranked⟩ := front.rank_exists filled
      have found : latencyP99Cyc l = some p99 := by
        rw [front.latencyP99Cyc_filled filled, ranked]
      refine ⟨sorted, p99, front, front.latencySorted_eq, found, ?_, front.rank_covers ranked,
        inputSvcLatencyGet_eq hz found⟩
      rw [if_neg (by omega), Nat.mul_comm 99, ranked]
  · intro samples short
    obtain ⟨p99, found, below⟩ := p99_le_maxCyc samples short
    refine ⟨count_latencyRun samples short, front_latencyRun samples short, fun fast => ?_⟩
    exact ⟨_, _, inputSvcLatencyGet_eq hz found, cycToUs32_mono fast below⟩

theorem latency_percentile_two :
    1000000 ≤ 550000000 ∧ [(5500 : U32), 1100].length < 2 ^ 32 ∧
      ∃ p99 max, inputSvcLatencyGet 550000000 (latencyRun [5500, 1100]) = some (p99, max) ∧
        p99 ≤ max := by
  have fast : 1000000 ≤ 550000000 := by decide
  have short : [(5500 : U32), 1100].length < 2 ^ 32 := by decide
  exact ⟨fast, short, ((latency_percentile 550000000).2 [5500, 1100] short).2.2 fast⟩

example : inputSvcLatencyGet 550000000 (latencyRun [5500, 1100]) = some (10, 10) := by
  decide +kernel

end FanatecWheel.App
