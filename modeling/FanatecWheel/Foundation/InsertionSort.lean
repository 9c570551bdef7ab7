import Mathlib.Data.List.Basic
import Mathlib.Data.List.Induction

/-!
# Insertion sort in place

An array is the list of its cells. Reading or writing past its end has no result, so that a
sort with a result has stayed in the array.
-/

namespace FanatecWheel.Foundation

variable {α : Type*}

/-- `cells[k] = x`. -/
def store (cells : List α) (k : ℕ) (x : α) : Option (List α) :=
  if k < cells.length then some (cells.set k x) else none

theorem store_append (before : List α) (x y : α) (rest : List α) :
    store (before ++ x :: rest) before.length y = some (before ++ y :: rest) := by
  rw [store, if_pos (by rw [List.length_append, List.length_cons]; omega), List.set_append,
    if_neg (Nat.lt_irrefl _), Nat.sub_self, List.set_cons_zero]

theorem getElem?_append_cell (before : List α) (x : α) (rest : List α) :
    (before ++ x :: rest)[before.length]? = some x := by
  rw [List.getElem?_append_right (Nat.le_refl _), Nat.sub_self, List.getElem?_cons_zero]

section Loops

variable [LT α] [DecidableLT α]

/-- The inner loop: cells greater than the value move up by one. The loop ends with the index
of the hole. -/
def shiftUp (v : α) : ℕ → List α → Option (List α × ℕ)
  | 0, cells => some (cells, 0)
  | j + 1, cells => do
    let left ← cells[j]?
    if v < left then
      let cells ← store cells (j + 1) left
      shiftUp v j cells
    else some (cells, j + 1)

/-- One turn of the outer loop. -/
def insertAt (cells : List α) (i : ℕ) : Option (List α) := do
  let v ← cells[i]?
  let (cells, j) ← shiftUp v i cells
  store cells j v

/-- The sort of the first `n` cells. -/
def sortFirst (n : ℕ) (cells : List α) : Option (List α) :=
  (List.range' 1 (n - 1)).foldlM insertAt cells

theorem sortFirst_succ (n : ℕ) (cells : List α) :
    sortFirst (n + 2) cells =
      (sortFirst (n + 1) cells).bind fun cells => insertAt cells (n + 1) := by
  change (List.range' 1 (n + 1)).foldlM insertAt cells = _
  rw [List.range'_1_concat, List.foldlM_append, Nat.add_comm 1 n]
  simp only [List.foldlM_cons, List.foldlM_nil, bind_pure]
  rfl

end Loops

/-! ### The loops -/

section Order

variable [LE α] [LT α] [DecidableLT α] [Std.IsLinearOrder α] [Std.LawfulOrderLT α]

/-- The hole moves down to behind the cells that are not greater. -/
theorem shiftUp_spec (v : α) {before : List α} (sorted : before.Pairwise (· ≤ ·)) :
    ∃ low high, before = low ++ high ∧ (∀ a ∈ low, a ≤ v) ∧ (∀ b ∈ high, v < b) ∧
      ∀ x rest, ∃ y, shiftUp v before.length (before ++ x :: rest) =
        some (low ++ y :: (high ++ rest), low.length) := by
  -- the hole comes down from the end of the cells before it
  induction before using List.reverseRecOn with
  | nil => exact ⟨[], [], rfl, nofun, nofun, fun x rest => ⟨x, rfl⟩⟩
  | append_singleton before left ih =>
    obtain ⟨sorted', -, last⟩ := List.pairwise_append.mp sorted
    have step (x : α) (rest : List α) :
        shiftUp v (before ++ [left]).length (before ++ [left] ++ x :: rest) =
          if v < left then
            (store (before ++ [left] ++ x :: rest) (before ++ [left]).length left).bind
              (shiftUp v before.length)
          else some (before ++ [left] ++ x :: rest, (before ++ [left]).length) := by
      have read : (before ++ [left] ++ x :: rest)[before.length]? = some left := by
        rw [List.append_assoc]
        exact getElem?_append_cell before left _
      rw [List.length_append, List.length_singleton, shiftUp, read]
      rfl
    by_cases greater : v < left
    · obtain ⟨low, high, split, small, large, moved⟩ := ih sorted'
      refine ⟨low, high ++ [left], ?_, small, ?_, fun x rest => ?_⟩
      · rw [split, List.append_assoc]
      · rw [List.forall_mem_append, List.forall_mem_singleton]
        exact ⟨large, greater⟩
      · obtain ⟨y, found⟩ := moved left (left :: rest)
        refine ⟨y, ?_⟩
        rw [step, if_pos greater, store_append, Option.bind_some, List.append_assoc,
          List.singleton_append, found, List.append_assoc, List.singleton_append]
    · have order : left ≤ v := Std.not_lt.mp greater
      refine ⟨before ++ [left], [], (List.append_nil _).symm, ?_, nofun, fun x rest => ⟨x, ?_⟩⟩
      · rw [List.forall_mem_append, List.forall_mem_singleton]
        exact ⟨fun a member => Std.le_trans (last a member left List.mem_cons_self) order, order⟩
      · rw [step, if_neg greater, List.nil_append]

/-- A turn inserts the next cell into the cells before it. -/
theorem insertAt_spec {before : List α} (sorted : before.Pairwise (· ≤ ·)) (v : α) :
    ∃ sorted' : List α, sorted'.Pairwise (· ≤ ·) ∧ sorted'.Perm (before ++ [v]) ∧
      ∀ rest, insertAt (before ++ v :: rest) before.length = some (sorted' ++ rest) := by
  obtain ⟨low, high, split, small, large, moved⟩ := shiftUp_spec v sorted
  refine ⟨low ++ v :: high, ?_, ?_, fun rest => ?_⟩
  · rw [split, List.pairwise_append] at sorted
    obtain ⟨lower, upper, across⟩ := sorted
    rw [List.pairwise_append, List.pairwise_cons]
    refine ⟨lower, ⟨fun b member => Std.le_of_lt (large b member), upper⟩,
      fun a inLow b member => ?_⟩
    rcases List.mem_cons.mp member with rfl | inHigh
    · exact small a inLow
    · exact across a inLow b inHigh
  · rw [split, List.append_assoc]
    exact (List.perm_append_singleton v high).symm.append_left low
  · obtain ⟨y, found⟩ := moved v rest
    rw [insertAt, getElem?_append_cell]
    simp only [Option.bind_eq_bind, Option.bind_some, found, store_append, List.append_assoc,
      List.cons_append]

/-- The sort has a result, orders the front, and neither reads nor moves the rest. -/
theorem sortFirst_spec (front : List α) :
    ∃ sorted : List α, sorted.Pairwise (· ≤ ·) ∧ sorted.Perm front ∧
      ∀ rest, sortFirst front.length (front ++ rest) = some (sorted ++ rest) := by
  induction front using List.reverseRecOn with
  | nil => exact ⟨[], List.Pairwise.nil, List.Perm.nil, fun _ => rfl⟩
  | append_singleton front v ih =>
    obtain ⟨sorted, ordered, same, sorts⟩ := ih
    obtain ⟨sorted', ordered', same', inserts⟩ := insertAt_spec ordered v
    refine ⟨sorted', ordered', same'.trans (same.append_right [v]), fun rest => ?_⟩
    rw [same.length_eq] at inserts
    have turn : sortFirst (front.length + 1) (front ++ v :: rest) =
        (sortFirst front.length (front ++ v :: rest)).bind fun cells =>
          insertAt cells front.length := by
      cases front with
      -- a single cell is its own insertion
      | nil => rfl
      | cons first front => exact sortFirst_succ front.length _
    rw [List.length_append, List.length_singleton, List.append_assoc, List.singleton_append, turn,
      sorts, Option.bind_some, inserts]

omit [LT α] [DecidableLT α] [Std.LawfulOrderLT α] in
/-- At least `k + 1` entries are not above the entry of rank `k`. -/
theorem rank_le_countP [DecidableLE α] {sorted : List α} (ordered : sorted.Pairwise (· ≤ ·))
    {k : ℕ} {x : α} (found : sorted[k]? = some x) : k + 1 ≤ sorted.countP (· ≤ x) := by
  obtain ⟨inside, rfl⟩ := List.getElem?_eq_some_iff.mp found
  have front : ∀ y ∈ sorted.take (k + 1), decide (y ≤ sorted[k]) = true := by
    intro y member
    obtain ⟨i, below, rfl⟩ := List.getElem_of_mem member
    rw [List.length_take] at below
    rw [List.getElem_take, decide_eq_true_iff]
    rcases Nat.lt_or_ge i k with before | after
    · exact List.pairwise_iff_getElem.mp ordered i k (by omega) inside before
    · have last : i = k := by omega
      subst last
      exact Std.le_refl _
  calc k + 1 = (sorted.take (k + 1)).length := by rw [List.length_take]; omega
    _ = (sorted.take (k + 1)).countP (· ≤ sorted[k]) := (List.countP_eq_length.mpr front).symm
    _ ≤ sorted.countP (· ≤ sorted[k]) := (List.take_sublist _ _).countP_le

end Order

end FanatecWheel.Foundation
