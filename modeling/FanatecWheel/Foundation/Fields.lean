import Mathlib.Data.List.Basic
import Mathlib.Data.List.DropRight

/-!
# Lines and fields

Cutting a text into lines that keep their ends, a line into fields with a limit on the cuts, and
blanks off both ends.
-/

namespace FanatecWheel.Foundation

variable {α : Type*}

/-- What is left between the blanks at both ends. -/
def strip (blank : α → Bool) (text : List α) : List α := (text.dropWhile blank).rdropWhile blank

theorem strip_line {blank : α → Bool} {line : List α} (solid : ∀ c ∈ line, blank c = false)
    {eol : α} (white : blank eol = true) : strip blank (line ++ [eol]) = line := by
  cases line with
  | nil => simp only [strip, List.nil_append, List.dropWhile_cons, white, if_true,
      List.dropWhile_nil, List.rdropWhile_nil]
  | cons c line =>
    have first : blank c = false := solid c List.mem_cons_self
    have front : ((c :: line) ++ [eol]).dropWhile blank = (c :: line) ++ [eol] := by
      rw [List.cons_append, List.dropWhile_cons_of_neg (by rw [first]; exact Bool.false_ne_true)]
    rw [strip, front, List.rdropWhile_concat_pos _ _ _ white, List.rdropWhile_eq_self_iff]
    intro nonempty
    rw [solid _ (List.getLast_mem nonempty)]
    exact Bool.false_ne_true

/-- A text without blanks stays as it is. -/
theorem strip_solid {blank : α → Bool} {text : List α} (solid : ∀ c ∈ text, blank c = false) :
    strip blank text = text := by
  have front : text.dropWhile blank = text := by
    cases text with
    | nil => rfl
    | cons c rest =>
      have first : blank c = false := solid c List.mem_cons_self
      exact List.dropWhile_cons_of_neg (by rw [first]; exact Bool.false_ne_true)
  rw [strip, front, List.rdropWhile_eq_self_iff]
  intro nonempty
  rw [solid _ (List.getLast_mem nonempty)]
  exact Bool.false_ne_true

variable [DecidableEq α]

/-- The lines of a text, with their ends; the last one may have none. -/
def lines (eol : α) : List α → List (List α)
  | [] => []
  | c :: rest =>
    if c = eol then [c] :: lines eol rest
    else match lines eol rest with
      | [] => [[c]]
      | line :: more => (c :: line) :: more

/-- The fields between separators, with at most so many cuts. -/
def splitMax (sep : α) : ℕ → List α → List (List α)
  | _, [] => [[]]
  | cuts, c :: rest =>
    if c = sep ∧ 0 < cuts then [] :: splitMax sep (cuts - 1) rest
    else (splitMax sep cuts rest).modifyHead (List.cons c)

theorem lines_line {eol : α} {line : List α} (within : eol ∉ line) (rest : List α) :
    lines eol (line ++ eol :: rest) = (line ++ [eol]) :: lines eol rest := by
  induction line with
  | nil => rw [List.nil_append, lines, if_pos rfl, List.nil_append]
  | cons c line ih =>
    obtain ⟨other, within⟩ := List.ne_and_not_mem_of_not_mem_cons within
    rw [List.cons_append, lines, if_neg (Ne.symm other), ih within]
    rfl

theorem splitMax_field {sep : α} {field : List α} (within : sep ∉ field) (cuts : ℕ)
    (rest : List α) :
    splitMax sep (cuts + 1) (field ++ sep :: rest) = field :: splitMax sep cuts rest := by
  induction field with
  | nil => rw [List.nil_append, splitMax, if_pos ⟨rfl, Nat.succ_pos cuts⟩, Nat.add_sub_cancel]
  | cons c field ih =>
    obtain ⟨other, within⟩ := List.ne_and_not_mem_of_not_mem_cons within
    rw [List.cons_append, splitMax, if_neg fun same => other same.1.symm, ih within]
    rfl

/-- Without a cut left the rest is one field. -/
theorem splitMax_zero (sep : α) (rest : List α) : splitMax sep 0 rest = [rest] := by
  induction rest with
  | nil => rfl
  | cons c rest ih =>
    rw [splitMax, if_neg fun cut => Nat.lt_irrefl 0 cut.2, ih]
    rfl

end FanatecWheel.Foundation
