import Mathlib.Data.List.Basic
import Mathlib.Order.Bounds.Basic

/-!
# Running extremes

A pair of registers that keeps the least and the greatest of the values noted so far, and what
an addend does to the least and the greatest of a family.
-/

namespace FanatecWheel.Foundation

section Registers

variable {α : Type*} [LinearOrder α] {bot top : α} {xs : List α} {low high : α}

/-- The registers hold the extremes of the values, or their start values before the first. -/
structure Extremes (bot top : α) (xs : List α) (low high : α) : Prop where
  least : ∀ x ∈ xs, low ≤ x
  greatest : ∀ x ∈ xs, x ≤ high
  low_mem : low ∈ xs ∨ xs = [] ∧ low = top
  high_mem : high ∈ xs ∨ xs = [] ∧ high = bot

theorem extremes_nil (bot top : α) : Extremes bot top [] top bot :=
  ⟨nofun, nofun, Or.inr ⟨rfl, rfl⟩, Or.inr ⟨rfl, rfl⟩⟩

theorem Extremes.note (held : Extremes bot top xs low high) {x : α} (above : bot ≤ x)
    (below : x ≤ top) : Extremes bot top (xs ++ [x]) (min low x) (max high x) := by
  have last : x ∈ xs ++ [x] := List.mem_append_right xs (List.mem_singleton_self x)
  constructor
  · rw [List.forall_mem_append, List.forall_mem_singleton]
    exact ⟨fun y member => le_trans (min_le_left low x) (held.least y member), min_le_right low x⟩
  · rw [List.forall_mem_append, List.forall_mem_singleton]
    exact ⟨fun y member => le_trans (held.greatest y member) (le_max_left high x),
      le_max_right high x⟩
  · left
    rcases held.low_mem with old | ⟨-, rfl⟩
    · rcases le_total low x with keep | fresh
      · rw [min_eq_left keep]
        exact List.mem_append_left [x] old
      · rwa [min_eq_right fresh]
    · rwa [min_eq_right below]
  · left
    rcases held.high_mem with old | ⟨-, rfl⟩
    · rcases le_total x high with keep | fresh
      · rw [max_eq_left keep]
        exact List.mem_append_left [x] old
      · rwa [max_eq_right fresh]
    · rwa [max_eq_right above]

theorem Extremes.isLeast (held : Extremes bot top xs low high) (some : xs ≠ []) :
    IsLeast {x | x ∈ xs} low :=
  ⟨held.low_mem.resolve_right fun empty => some empty.1, held.least⟩

theorem Extremes.isGreatest (held : Extremes bot top xs low high) (some : xs ≠ []) :
    IsGreatest {x | x ∈ xs} high :=
  ⟨held.high_mem.resolve_right fun empty => some empty.1, held.greatest⟩

end Registers

/-! ### Sums -/

section Sums

variable {ι : Type*} {items : List ι} {f g : ι → ℕ} {n : ℕ}

/-- The least sum is the least first part exactly if some least first part has nothing added. -/
theorem isLeast_sum_iff (least : IsLeast {x | x ∈ items.map fun i => f i + g i} n) :
    IsLeast {x | x ∈ items.map f} n ↔ ∃ i ∈ items, g i = 0 ∧ ∀ j ∈ items, f i ≤ f j := by
  obtain ⟨r, memberR, same⟩ := List.mem_map.mp least.1
  have bound {i : ι} (member : i ∈ items) : n ≤ f i + g i :=
    least.2 (List.mem_map.mpr ⟨i, member, rfl⟩)
  constructor
  · rintro ⟨-, below⟩
    have first := below (List.mem_map_of_mem memberR)
    have nothing : g r = 0 := by omega
    refine ⟨r, memberR, nothing, fun j memberJ => ?_⟩
    have other := below (List.mem_map_of_mem memberJ)
    omega
  · rintro ⟨i, memberI, nothing, small⟩
    have atMost := bound memberI
    have atLeast := small r memberR
    have equal : n = f i := by omega
    refine ⟨equal ▸ List.mem_map_of_mem memberI, ?_⟩
    rintro _ member
    obtain ⟨j, memberJ, rfl⟩ := List.mem_map.mp member
    exact equal ▸ small j memberJ

/-- The greatest sum is the greatest first part exactly if no sum is above all first parts. -/
theorem isGreatest_sum_iff (greatest : IsGreatest {x | x ∈ items.map fun i => f i + g i} n) :
    IsGreatest {x | x ∈ items.map f} n ↔ ∀ i ∈ items, ∃ j ∈ items, f i + g i ≤ f j := by
  obtain ⟨r, memberR, same⟩ := List.mem_map.mp greatest.1
  have bound {i : ι} (member : i ∈ items) : f i + g i ≤ n :=
    greatest.2 (List.mem_map.mpr ⟨i, member, rfl⟩)
  constructor
  · rintro ⟨first, -⟩ i memberI
    obtain ⟨j, memberJ, equal⟩ := List.mem_map.mp first
    refine ⟨j, memberJ, ?_⟩
    rw [equal]
    exact bound memberI
  · intro covered
    obtain ⟨j, memberJ, above⟩ := covered r memberR
    have atMost := bound memberJ
    have equal : n = f j := by omega
    refine ⟨equal ▸ List.mem_map_of_mem memberJ, ?_⟩
    rintro _ member
    obtain ⟨i, memberI, rfl⟩ := List.mem_map.mp member
    exact Nat.le_trans (Nat.le_add_right _ _) (bound memberI)

end Sums

end FanatecWheel.Foundation
