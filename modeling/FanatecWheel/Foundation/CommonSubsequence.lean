import Mathlib.Data.Int.Order.Basic
import Mathlib.Data.List.Basic
import Mathlib.Order.Bounds.Basic

/-!
# Common subsequences

The lengths of the common subsequences of two lists, the greatest of them when the one list is
itself a subsequence, and pairings of equal entries in order with a condition on what they leave
out.
-/

namespace FanatecWheel.Foundation

variable {α : Type*} {left right : List α}

/-- The lengths of the common subsequences. -/
def commonLengths (left right : List α) : Set ℕ :=
  {n | ∃ common : List α, common.Sublist left ∧ common.Sublist right ∧ common.length = n}

theorem isGreatest_of_sublist (inside : left.Sublist right) :
    IsGreatest (commonLengths left right) left.length := by
  refine ⟨⟨left, List.Sublist.refl left, inside, rfl⟩, ?_⟩
  rintro n ⟨common, inLeft, -, rfl⟩
  exact inLeft.length_le

theorem isGreatest_of_superlist (inside : right.Sublist left) :
    IsGreatest (commonLengths left right) right.length := by
  refine ⟨⟨right, inside, List.Sublist.refl right, rfl⟩, ?_⟩
  rintro n ⟨common, -, inRight, rfl⟩
  exact inRight.length_le

/-- What is left over is least when the common part is greatest. -/
theorem isLeast_rest {lengths : Set ℕ} {n : ℕ} (greatest : IsGreatest lengths n) (total : ℤ) :
    IsLeast ((fun n : ℕ => total - n) '' lengths) (total - n) := by
  refine ⟨⟨n, greatest.1, rfl⟩, ?_⟩
  rintro _ ⟨k, member, rfl⟩
  have most := greatest.2 member
  dsimp only
  omega

/-! ### Pairings -/

/-- `n` equal entries are paired in order; what is left out in front of a pair is allowed by what
follows the pair. -/
inductive Paired (allowed : List α → List α → List α → List α → Prop) :
    List α → List α → ℕ → Prop
  | rest (left right : List α) : Paired allowed left right 0
  | pair {left right : List α} {n : ℕ} (out out' : List α) (entry : α)
      (gap : allowed out out' left right) (paired : Paired allowed left right n) :
      Paired allowed (out ++ entry :: left) (out' ++ entry :: right) (n + 1)

namespace Paired

variable {allowed : List α → List α → List α → List α → Prop} {n : ℕ}

/-- The paired entries are a common subsequence. -/
theorem common (paired : Paired allowed left right n) : n ∈ commonLengths left right := by
  induction paired with
  | rest left right => exact ⟨[], List.nil_sublist _, List.nil_sublist _, rfl⟩
  | pair out out' entry _ _ ih =>
    obtain ⟨common, inLeft, inRight, rfl⟩ := ih
    exact ⟨entry :: common, (inLeft.cons_cons entry).trans (List.sublist_append_right _ _),
      (inRight.cons_cons entry).trans (List.sublist_append_right _ _), rfl⟩

/-- The first pair. -/
theorem first (paired : Paired allowed left right (n + 1)) :
    ∃ out out' entry left' right', left = out ++ entry :: left' ∧ right = out' ++ entry :: right' ∧
      allowed out out' left' right' ∧ Paired allowed left' right' n := by
  cases paired with
  | pair out out' entry gap rest => exact ⟨out, out', entry, _, _, rfl, rfl, gap, rest⟩

theorem swap (paired : Paired allowed left right n) :
    Paired (fun out out' left right => allowed out' out right left) right left n := by
  induction paired with
  | rest left right => exact .rest right left
  | pair out out' entry gap _ ih => exact .pair out' out entry gap ih

/-- A subsequence is paired as a whole, with more entries behind it, where anything may be left
out of the longer list. -/
theorem of_sublist (last : List α)
    (free : ∀ out' left right, left.Sublist right → allowed [] out' (left ++ last) right)
    (inside : left.Sublist right) : Paired allowed (left ++ last) right left.length := by
  induction left generalizing right with
  | nil => exact .rest last right
  | cons entry left ih =>
    obtain ⟨before, after, rfl, found, inAfter⟩ := List.cons_sublist_iff.mp inside
    obtain ⟨out', between, rfl⟩ := List.append_of_mem found
    have inRest : left.Sublist (between ++ after) :=
      inAfter.trans (List.sublist_append_right between after)
    rw [List.append_assoc]
    exact .pair [] out' entry (free out' left _ inRest) (ih inRest)

end Paired

end FanatecWheel.Foundation
