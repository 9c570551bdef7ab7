import FanatecWheel.Foundation.Trace
import Mathlib

/-!
# Conditioning of sampled signals

The stages that make a steady reading out of the samples of an analog input: the median of
the last three, a low pass with a truncating division, a static map and a limit on the step of
the output. Every stage is monotone and stays between its arguments, so the chain of them is
order preserving, keeps to a range of its input and settles under a constant one.
-/

namespace FanatecWheel.Foundation

open Filter

/-! ### Stages -/

section Median

variable {α : Type*} [LinearOrder α]

/-- The middle one of three values. -/
def median (a b c : α) : α := max (min a b) (min (max a b) c)

theorem median_mono {a b c a' b' c' : α} (first : a ≤ a') (second : b ≤ b') (third : c ≤ c') :
    median a b c ≤ median a' b' c' :=
  max_le_max (min_le_min first second) (min_le_min (max_le_max first second) third)

theorem median_map {β : Type*} [LinearOrder β] {f : α → β} (mono : Monotone f) (a b c : α) :
    f (median a b c) = median (f a) (f b) (f c) := by
  simp only [median, mono.map_max, mono.map_min]

theorem median_rotate (a b c : α) : median b c a = median a b c := by
  unfold median
  rcases le_total a b with ab | ab <;> rcases le_total b c with bc | bc <;>
    rcases le_total a c with ac | ac <;> grind

theorem median_self (a b : α) : median a a b = a := by
  rw [median, min_self, max_self]
  exact max_eq_left inf_le_left

/-- The median is what the least and the largest of the three leave of their sum. -/
theorem median_add (a b c : ℕ) :
    median a b c + min a (min b c) + max a (max b c) = a + b + c := by
  unfold median
  rcases le_total a b with ab | ab <;> rcases le_total b c with bc | bc <;>
    rcases le_total a c with ac | ac <;> simp [ab, bc, ac] <;> omega

/-- Two values between the bounds are enough. -/
theorem median_mem {lo hi a b c : α} (first : a ∈ Set.Icc lo hi) (second : b ∈ Set.Icc lo hi) :
    median a b c ∈ Set.Icc lo hi := by
  constructor
  · exact le_max_of_le_left (le_min first.1 second.1)
  · apply max_le
    · exact min_le_of_left_le first.2
    · exact min_le_of_left_le (max_le first.2 second.2)

end Median

/-- The value nearest to the given one within a radius of the center. -/
def within (radius center value : ℤ) : ℤ := max (center - radius) (min (center + radius) value)

section Within

variable {radius : ℤ}

theorem within_mono {center center' value value' : ℤ} (centers : center ≤ center')
    (values : value ≤ value') : within radius center value ≤ within radius center' value' := by
  unfold within
  omega

theorem within_mem {lo hi center value : ℤ} (positive : 0 ≤ radius)
    (inside : center ∈ Set.Icc lo hi) (target : value ∈ Set.Icc lo hi) :
    within radius center value ∈ Set.Icc lo hi := by
  obtain ⟨above, below⟩ := inside
  obtain ⟨above', below'⟩ := target
  unfold within
  constructor <;> omega

theorem within_step (positive : 0 ≤ radius) (center value : ℤ) :
    |within radius center value - center| ≤ radius := by
  rw [abs_le, within]
  constructor <;> omega

/-- The value is reached exactly within the radius. -/
theorem within_eq_iff (positive : 0 ≤ radius) {center value : ℤ} :
    within radius center value = value ↔ |value - center| ≤ radius := by
  rw [abs_le, within]
  constructor
  · intro reached
    constructor <;> omega
  · rintro ⟨below, above⟩
    omega

end Within

/-- One step of the low pass, divided toward zero. -/
def lowPass (divisor y x : ℤ) : ℤ := y + (x - y).tdiv divisor

section LowPass

variable {divisor : ℤ}

theorem lowPass_self (y : ℤ) : lowPass divisor y y = y := by
  rw [lowPass, Int.sub_self, Int.zero_tdiv, Int.add_zero]

/-- A truncated quotient moves by no more than its dividend. -/
private theorem tdiv_sub_le (positive : 0 < divisor) {a b : ℤ} (order : a ≤ b) :
    b.tdiv divisor - a.tdiv divisor ≤ b - a := by
  obtain ⟨d, rfl⟩ := Int.exists_add_of_le order
  clear order
  -- one more in the dividend carries into the quotient once at most
  induction d with
  | zero => simp
  | succ d ih =>
    rw [Int.natCast_succ, ← Int.add_assoc, Int.add_one_tdiv_of_pos positive]
    split <;> omega

theorem lowPass_mono (positive : 0 < divisor) {y y' x x' : ℤ} (state : y ≤ y') (input : x ≤ x') :
    lowPass divisor y x ≤ lowPass divisor y' x' := by
  have moved : (x - y').tdiv divisor ≤ (x' - y').tdiv divisor :=
    Int.tdiv_le_tdiv positive (by omega)
  have kept := tdiv_sub_le positive (show x - y' ≤ x - y by omega)
  unfold lowPass
  omega

theorem lowPass_mem (positive : 0 < divisor) {lo hi y x : ℤ} (state : y ∈ Set.Icc lo hi)
    (input : x ∈ Set.Icc lo hi) : lowPass divisor y x ∈ Set.Icc lo hi := by
  constructor
  · rw [← @lowPass_self divisor lo]
    exact lowPass_mono positive state.1 input.1
  · rw [← @lowPass_self divisor hi]
    exact lowPass_mono positive state.2 input.2

/-- The dead band: a difference below the divisor is lost. -/
theorem lowPass_dead {y x : ℤ} (near : |x - y| < divisor) : lowPass divisor y x = y := by
  obtain ⟨below, above⟩ := abs_lt.mp near
  have lost : (x - y).tdiv divisor = 0 := by
    rcases le_total 0 (x - y) with up | down
    · exact Int.tdiv_eq_zero_of_lt up above
    · rw [← Int.neg_neg (x - y), Int.neg_tdiv, Int.tdiv_eq_zero_of_lt (by omega) (by omega)]
      rfl
  rw [lowPass, lost, Int.add_zero]

/-- Outside the dead band the filter moves, and not past its edge. -/
theorem lowPass_toward (positive : 0 < divisor) (y x : ℤ) :
    let edge := within (divisor - 1) x y
    y = edge ∧ lowPass divisor y x = y ∨
      y < lowPass divisor y x ∧ lowPass divisor y x ≤ edge ∧ edge = x - (divisor - 1) ∨
      lowPass divisor y x < y ∧ edge ≤ lowPass divisor y x ∧ edge = x + (divisor - 1) := by
  intro edge
  have reached (e : ℤ) (near : |x - e| < divisor) := @lowPass_dead divisor e x near
  rcases lt_or_ge y (x - (divisor - 1)) with low | notLow
  · have edge_eq : edge = x - (divisor - 1) := by
      unfold edge within
      omega
    have moves : 1 ≤ (x - y).tdiv divisor := by
      rw [← Int.tdiv_self positive.ne']
      exact Int.tdiv_le_tdiv positive (by omega)
    -- the step from the edge itself is lost, and the filter is monotone in its state
    have bounded := lowPass_mono positive low.le (le_refl x)
    rw [reached (x - (divisor - 1)) (by rw [abs_lt]; omega)] at bounded
    refine .inr (.inl ⟨?_, edge_eq ▸ bounded, edge_eq⟩)
    unfold lowPass
    omega
  rcases lt_or_ge (x + (divisor - 1)) y with high | notHigh
  · have edge_eq : edge = x + (divisor - 1) := by
      unfold edge within
      omega
    have moves : 1 ≤ (y - x).tdiv divisor := by
      rw [← Int.tdiv_self positive.ne']
      exact Int.tdiv_le_tdiv positive (by omega)
    have turned : (x - y).tdiv divisor = -(y - x).tdiv divisor := by
      rw [← Int.neg_tdiv, Int.neg_sub]
    have bounded := lowPass_mono positive high.le (le_refl x)
    rw [reached (x + (divisor - 1)) (by rw [abs_lt]; omega)] at bounded
    refine .inr (.inr ⟨?_, edge_eq ▸ bounded, edge_eq⟩)
    unfold lowPass
    omega
  · refine .inl ⟨?_, reached y (by rw [abs_lt]; omega)⟩
    unfold edge within
    omega

end LowPass

/-- The part of the travel between the edges, as a share of `top`. -/
def scaled (lo hi top x : ℤ) : ℤ :=
  if hi ≤ lo ∨ x ≤ lo then 0 else if hi ≤ x then top else (x - lo) * top / (hi - lo)

/-- Small outputs are cut to zero. -/
def deadZone (zone out : ℤ) : ℤ := if out ≤ zone then 0 else out

section Scale

variable {lo hi top : ℤ}

theorem scaled_low {x : ℤ} (low : hi ≤ lo ∨ x ≤ lo) : scaled lo hi top x = 0 := if_pos low

theorem scaled_high (usable : lo < hi) {x : ℤ} (high : hi ≤ x) : scaled lo hi top x = top := by
  rw [scaled, if_neg (by omega), if_pos high]

theorem scaled_between {x : ℤ} (above : lo < x) (below : x < hi) :
    scaled lo hi top x = (x - lo) * top / (hi - lo) := by
  rw [scaled, if_neg (by omega), if_neg (by omega)]

theorem scaled_nonneg (positive : 0 ≤ top) (x : ℤ) : 0 ≤ scaled lo hi top x := by
  unfold scaled
  split
  next => exact le_rfl
  next usable =>
    split
    · exact positive
    · exact Int.ediv_nonneg (Int.mul_nonneg (by omega) positive) (by omega)

/-- Below the upper edge the share is not the whole. -/
theorem scaled_lt (positive : 0 < top) {x : ℤ} (below : x < hi) : scaled lo hi top x < top := by
  rcases le_or_gt x lo with low | above
  · rw [scaled_low (.inr low)]
    exact positive
  · rw [scaled_between above below]
    apply Int.ediv_lt_of_lt_mul (by omega)
    rw [Int.mul_comm]
    exact Int.mul_lt_mul_of_pos_left (by omega) positive

theorem scaled_le (positive : 0 < top) (x : ℤ) : scaled lo hi top x ≤ top := by
  rcases lt_or_ge x hi with below | high
  · exact (scaled_lt positive below).le
  · rcases le_or_gt hi lo with empty | usable
    · rw [scaled_low (.inl empty)]
      exact positive.le
    · exact (scaled_high usable high).le

theorem scaled_mono (positive : 0 < top) : Monotone (scaled lo hi top) := by
  intro x y order
  by_cases low : hi ≤ lo ∨ x ≤ lo
  · rw [scaled_low low]
    exact scaled_nonneg positive.le y
  rcases lt_or_ge y hi with below | high
  · rw [scaled_between (by omega) (by omega), scaled_between (by omega) below]
    apply Int.ediv_le_ediv (by omega)
    exact Int.mul_le_mul_of_nonneg_right (by omega) positive.le
  · rw [@scaled_high lo hi top (by omega) y high]
    exact scaled_le positive x

theorem deadZone_eq_zero {zone out : ℤ} (size : 0 ≤ zone) :
    deadZone zone out = 0 ↔ out ≤ zone := by
  unfold deadZone
  split <;> omega

theorem deadZone_mono {zone : ℤ} (positive : 0 ≤ zone) : Monotone (deadZone zone) := by
  intro x y order
  unfold deadZone
  split <;> split <;> omega

end Scale

/-! ### Settling -/

/-- What stays once it holds, and else has a measure that falls, holds from some time on. -/
theorem eventually_of_measure {P : ℕ → Prop} (measure : ℕ → ℕ)
    (next : ∀ᶠ n in atTop, (P n → P (n + 1)) ∧ (¬ P n → measure (n + 1) < measure n)) :
    ∀ᶠ n in atTop, P n := by
  obtain ⟨start, next⟩ := eventually_atTop.mp next
  -- the measure cannot fall for ever
  have reaches : ∀ bound n, start ≤ n → measure n < bound → ∃ m, n ≤ m ∧ P m := by
    intro bound
    induction bound with
    | zero =>
      intro n _ small
      exact absurd small (Nat.not_lt_zero _)
    | succ bound ih =>
      intro n late small
      by_cases holds : P n
      · exact ⟨n, le_rfl, holds⟩
      · have falls := (next n late).2 holds
        obtain ⟨m, later, reached⟩ := ih (n + 1) (by omega) (by omega)
        exact ⟨m, by omega, reached⟩
  obtain ⟨first, late, reached⟩ := reaches (measure start + 1) start le_rfl (Nat.lt_succ_self _)
  rw [eventually_atTop]
  refine ⟨first, fun n later => ?_⟩
  induction n, later using Nat.le_induction with
  | base => exact reached
  | succ n later ih => exact (next n (by omega)).1 ih

/-- A reading that follows its target in limited steps reaches it. -/
theorem within_settles {radius target : ℤ} (positive : 0 < radius) {y : ℕ → ℤ}
    (next : ∀ᶠ n in atTop, y (n + 1) = within radius (y n) target) :
    ∀ᶠ n in atTop, y n = target := by
  -- the distance to the target falls by the radius, or the target is reached
  apply eventually_of_measure fun n => (target - y n).natAbs
  filter_upwards [next] with n step
  rw [step, within]
  constructor
  · intro reached
    omega
  · intro away
    omega

/-- Under a constant input the low pass comes to rest at the edge of its dead band. -/
theorem lowPass_settles {divisor x : ℤ} (positive : 0 < divisor) {y : ℕ → ℤ}
    (next : ∀ n, y (n + 1) = lowPass divisor (y n) x) :
    ∀ᶠ n in atTop, y n = within (divisor - 1) x (y 0) := by
  -- the level does not cross the band, so the edge that it comes to stays the same
  have edge : ∀ n, within (divisor - 1) x (y n) = within (divisor - 1) x (y 0) := by
    intro n
    induction n with
    | zero => rfl
    | succ n ih =>
      rw [← ih, next]
      have moved := lowPass_toward positive (y n) x
      unfold within at moved ⊢
      omega
  apply eventually_of_measure fun n => (y n - within (divisor - 1) x (y 0)).natAbs
  filter_upwards with n
  have moved := lowPass_toward positive (y n) x
  rw [edge, ← next] at moved
  constructor
  · intro reached
    omega
  · intro away
    omega

/-! ### Isolated values -/

/-- Of any three neighbours at most one is outside. -/
def Isolated {α : Type*} (inside : Set α) (samples : List α) : Prop :=
  ∀ x y z, [x, y, z] <:+: samples →
    x ∈ inside ∧ y ∈ inside ∨ y ∈ inside ∧ z ∈ inside ∨ x ∈ inside ∧ z ∈ inside

section Isolated

variable {α β : Type*} {inside : Set α}

theorem isolated_pair (x y : α) : Isolated inside [x, y] := by
  intro a b c inner
  have short : 3 ≤ 2 := inner.length_le
  omega

theorem isolated_cons {x y z : α} {rest : List α} :
    Isolated inside (x :: y :: z :: rest) ↔
      (x ∈ inside ∧ y ∈ inside ∨ y ∈ inside ∧ z ∈ inside ∨ x ∈ inside ∧ z ∈ inside) ∧
        Isolated inside (y :: z :: rest) := by
  constructor
  · intro isolated
    refine ⟨isolated x y z ⟨[], rest, rfl⟩, fun a b c inner => isolated a b c ?_⟩
    exact inner.trans (List.suffix_cons x _).isInfix
  · rintro ⟨first, later⟩ a b c inner
    rcases List.infix_cons_iff.mp inner with head | tail
    · obtain ⟨_, same⟩ := head
      cases same
      exact first
    · exact later a b c tail

/-- The spikes of a stream do not depend on how its values are written. -/
theorem isolated_map {f : α → β} {inside' : Set β} {samples : List α}
    (isolated : Isolated inside samples) (kept : ∀ x ∈ inside, f x ∈ inside') :
    Isolated inside' (samples.map f) := by
  intro a b c inner
  obtain ⟨three, found, same⟩ := List.infix_map_iff.mp inner
  obtain ⟨x, y, z, rfl⟩ : ∃ x y z, three = [x, y, z] := by
    apply List.length_eq_three.mp
    rw [← List.length_map f, ← same]
    rfl
  simp only [List.map_cons, List.map_nil, List.cons.injEq, and_true] at same
  obtain ⟨rfl, rfl, rfl⟩ := same
  rcases isolated x y z found with ⟨first, second⟩ | ⟨second, third⟩ | ⟨first, third⟩
  · exact .inl ⟨kept x first, kept y second⟩
  · exact .inr (.inl ⟨kept y second, kept z third⟩)
  · exact .inr (.inr ⟨kept x first, kept z third⟩)

end Isolated

/-! ### The chain of stages -/

/-- The parameters of a chain: the divisor of the low pass, the static map and the largest
step of the output. -/
structure Conditioner where
  divisor : ℤ
  scale : ℤ → ℤ
  rate : ℤ
  divisor_pos : 0 < divisor
  scale_mono : Monotone scale
  rate_nonneg : 0 ≤ rate

/-- The state of a chain: the last three samples with the slot of the oldest, the level of the
low pass and the last output. -/
@[ext]
structure Conditioned where
  window : Fin 3 → ℤ
  slot : Fin 3
  level : ℤ
  shown : ℤ
deriving DecidableEq

namespace Conditioner

variable (p : Conditioner)

/-- One sample, with the output after it. -/
def feed (s : Conditioned) (x : ℤ) : Conditioned × ℤ :=
  let window := Function.update s.window s.slot x
  let level := lowPass p.divisor s.level (median (window 0) (window 1) (window 2))
  let shown := within p.rate s.shown (p.scale level)
  (⟨window, s.slot + 1, level, shown⟩, shown)

/-- The median does not depend on where the window begins. -/
theorem median_window {α : Type*} [LinearOrder α] (window : Fin 3 → α) (slot : Fin 3) :
    median (window 0) (window 1) (window 2) =
      median (window slot) (window (slot + 1)) (window (slot + 2)) := by
  fin_cases slot
  · rfl
  · exact (median_rotate _ _ _).symm
  · exact (median_rotate _ _ _).trans (median_rotate _ _ _) |>.symm

theorem feed_level (s : Conditioned) (x : ℤ) :
    (p.feed s x).1.level =
      lowPass p.divisor s.level (median x (s.window (s.slot + 1)) (s.window (s.slot + 2))) := by
  have next : ∀ slot : Fin 3, slot + 1 ≠ slot := by decide
  have last : ∀ slot : Fin 3, slot + 2 ≠ slot := by decide
  change lowPass p.divisor s.level _ = _
  rw [median_window _ s.slot, Function.update_self, Function.update_of_ne (next _),
    Function.update_of_ne (last _)]

theorem feed_window_first (s : Conditioned) (x : ℤ) :
    (p.feed s x).1.window ((p.feed s x).1.slot + 1) = s.window (s.slot + 2) := by
  have other : ∀ slot : Fin 3, slot + 2 ≠ slot := by decide
  have sum : ∀ slot : Fin 3, slot + 1 + 1 = slot + 2 := by decide
  change Function.update s.window s.slot x (s.slot + 1 + 1) = _
  rw [sum, Function.update_of_ne (other _)]

theorem feed_window_second (s : Conditioned) (x : ℤ) :
    (p.feed s x).1.window ((p.feed s x).1.slot + 2) = x := by
  have same : ∀ slot : Fin 3, slot + 1 + 2 = slot := by decide
  change Function.update s.window s.slot x (s.slot + 1 + 2) = _
  rw [same, Function.update_self]

/-! #### Order -/

/-- Everything in the first state is at most what it is in the second. -/
structure Below (s t : Conditioned) : Prop where
  window : s.window ≤ t.window
  slot : s.slot = t.slot
  level : s.level ≤ t.level
  shown : s.shown ≤ t.shown

theorem feed_mono {s t : Conditioned} (below : Below s t) {x y : ℤ} (order : x ≤ y) :
    (p.feed s x).2 ≤ (p.feed t y).2 ∧ Below (p.feed s x).1 (p.feed t y).1 := by
  have window : (p.feed s x).1.window ≤ (p.feed t y).1.window := by
    change Function.update s.window s.slot x ≤ Function.update t.window t.slot y
    rw [below.slot, update_le_update_iff]
    exact ⟨order, fun slot _ => below.window slot⟩
  have level : (p.feed s x).1.level ≤ (p.feed t y).1.level :=
    lowPass_mono p.divisor_pos below.level (median_mono (window 0) (window 1) (window 2))
  have shown : (p.feed s x).2 ≤ (p.feed t y).2 :=
    within_mono below.shown (p.scale_mono level)
  exact ⟨shown, window, congrArg (· + 1) below.slot, level, shown⟩

/-- Larger samples never give a smaller output. -/
theorem run_mono {s t : Conditioned} (below : Below s t) {samples samples' : List ℤ}
    (order : List.Forall₂ (· ≤ ·) samples samples') :
    List.Forall₂ (· ≤ ·) (trace p.feed s samples) (trace p.feed t samples') :=
  have next (s t : Conditioned) (x y : ℤ) (below : Below s t) (order : x ≤ y) :=
    p.feed_mono below order
  (trace_related next below order).1

/-! #### Range -/

theorem feed_mem {lo hi : ℤ} {s : Conditioned} {x : ℤ} (level : s.level ∈ Set.Icc lo hi)
    (shown : s.shown ∈ Set.Icc (p.scale lo) (p.scale hi))
    (middle : median x (s.window (s.slot + 1)) (s.window (s.slot + 2)) ∈ Set.Icc lo hi) :
    (p.feed s x).1.level ∈ Set.Icc lo hi ∧
      (p.feed s x).2 ∈ Set.Icc (p.scale lo) (p.scale hi) := by
  have next : (p.feed s x).1.level ∈ Set.Icc lo hi := by
    rw [feed_level]
    exact lowPass_mem p.divisor_pos level middle
  refine ⟨next, within_mem p.rate_nonneg shown ?_⟩
  exact ⟨p.scale_mono next.1, p.scale_mono next.2⟩

/-- Samples with isolated spikes keep the level in the range of the others, and the output
between the static map of its bounds. -/
theorem run_mem {lo hi : ℤ} {s : Conditioned} {u v : ℤ} (level : s.level ∈ Set.Icc lo hi)
    (shown : s.shown ∈ Set.Icc (p.scale lo) (p.scale hi))
    (first : u ∈ Set.Icc lo hi → s.window (s.slot + 1) ∈ Set.Icc lo hi)
    (second : v ∈ Set.Icc lo hi → s.window (s.slot + 2) ∈ Set.Icc lo hi) {samples : List ℤ}
    (isolated : Isolated (Set.Icc lo hi) (u :: v :: samples)) :
    (final p.feed s samples).level ∈ Set.Icc lo hi ∧
      ∀ out ∈ trace p.feed s samples, out ∈ Set.Icc (p.scale lo) (p.scale hi) := by
  -- `u` and `v` are the samples whose places in the window come before the next
  induction samples generalizing s u v with
  | nil => exact ⟨level, fun out none => absurd none List.not_mem_nil⟩
  | cons x rest ih =>
    obtain ⟨three, later⟩ := isolated_cons.mp isolated
    have middle : median x (s.window (s.slot + 1)) (s.window (s.slot + 2)) ∈ Set.Icc lo hi := by
      -- whichever two are inside, the median is between them
      rcases three with ⟨inU, inV⟩ | ⟨inV, inX⟩ | ⟨inU, inX⟩
      · rw [← median_rotate]
        exact median_mem (first inU) (second inV)
      · rw [← median_rotate, ← median_rotate]
        exact median_mem (second inV) inX
      · exact median_mem inX (first inU)
    obtain ⟨level', shown'⟩ := p.feed_mem level shown middle
    have rest' := ih level' shown' (by rw [feed_window_first]; exact second)
      (by rw [feed_window_second]; exact id) later
    refine ⟨rest'.1, ?_⟩
    intro out put
    rcases List.mem_cons.mp put with rfl | put
    · exact shown'
    · exact rest'.2 out put

/-! #### A constant input -/

/-- The state after a sample is repeated. -/
def held (s : Conditioned) (x : ℤ) (n : ℕ) : Conditioned := final p.feed s (List.replicate n x)

theorem held_succ (s : Conditioned) (x : ℤ) (n : ℕ) :
    p.held s x (n + 1) = (p.feed (p.held s x n) x).1 := by
  rw [held, List.replicate_succ', final_snoc, held]

/-- After a repetition the median is the sample, whatever comes next. -/
theorem held_next_level (s : Conditioned) (x z : ℤ) (n : ℕ) :
    (p.feed (p.held s x (n + 1 + 1)) z).1.level =
      lowPass p.divisor (p.held s x (n + 1 + 1)).level x := by
  have newest : (p.held s x (n + 1 + 1)).window ((p.held s x (n + 1 + 1)).slot + 2) = x := by
    rw [held_succ, feed_window_second]
  have older : (p.held s x (n + 1 + 1)).window ((p.held s x (n + 1 + 1)).slot + 1) = x := by
    rw [held_succ, feed_window_first, held_succ, feed_window_second]
  rw [feed_level, newest, older, ← median_rotate, median_self]

/-- From the second sample on the median is the sample. -/
private theorem held_level_succ (s : Conditioned) (x : ℤ) (n : ℕ) :
    (p.held s x (n + 1 + 1)).level = lowPass p.divisor (p.held s x (n + 1)).level x := by
  have newest : (p.held s x (n + 1)).window ((p.held s x (n + 1)).slot + 2) = x := by
    rw [held_succ, feed_window_second]
  rw [held_succ, feed_level, newest, ← median_rotate, ← median_rotate, median_self]

/-- The level comes to rest at the edge of the dead band round the sample. -/
theorem held_level (s : Conditioned) (x : ℤ) :
    ∀ᶠ n in atTop,
      (p.held s x n).level = within (p.divisor - 1) x (p.feed s x).1.level := by
  rw [← map_add_atTop_eq_nat 1, eventually_map]
  apply lowPass_settles p.divisor_pos
  exact p.held_level_succ s x

/-- The output comes to rest at the static map of that level. -/
theorem held_shown (moves : 0 < p.rate) (s : Conditioned) (x : ℤ) :
    ∀ᶠ n in atTop,
      (p.held s x n).shown = p.scale (within (p.divisor - 1) x (p.feed s x).1.level) := by
  apply within_settles moves
  -- the output starts to follow when the level has come to rest
  have rests := (tendsto_add_atTop_nat 1).eventually (p.held_level s x)
  filter_upwards [rests] with n level
  rw [← level, held_succ]
  rfl

end Conditioner

end FanatecWheel.Foundation
