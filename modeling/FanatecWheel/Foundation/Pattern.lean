import Mathlib.Data.List.TakeWhile

/-!
# Patterns with greedy repeats

The regular expressions that are a row of character classes, each repeated as often
as it can be and less often when the rest of the pattern asks for it. `findAll`
lists the groups of all matches from left to right. Where an item cannot start what
follows the item before it, giving back is of no use and the match is the obvious one.
-/

namespace FanatecWheel.Foundation

variable {α β : Type*}

/-! ### Matching with backtracking -/

/-- Repeats of one class, at least `least` and at most `most` of them. -/
structure Item (α : Type*) where
  cls : α → Bool
  least : ℕ
  most : Option ℕ
  group : Bool

/-- As many repeats as the input has. -/
def Item.reach (p : Item α) (input : List α) : ℕ :=
  match p.most with
  | some most => min most (input.takeWhile p.cls).length
  | none => (input.takeWhile p.cls).length

/-- The first number that works, from the largest down. -/
def greedy (attempt : ℕ → Option β) (least : ℕ) : ℕ → Option β
  | 0 => if least = 0 then attempt 0 else none
  | n + 1 => if n + 1 < least then none else (attempt (n + 1)).or (greedy attempt least n)

/-- A match at the head of the input: the groups and what is left. -/
def matchHere : List (Item α) → List α → Option (List (List α) × List α)
  | [], input => some ([], input)
  | p :: items, input =>
    greedy (fun n => (matchHere items (input.drop n)).map fun (groups, after) =>
      (if p.group then input.take n :: groups else groups, after)) p.least (p.reach input)

/-- A pattern that does not match the empty input. -/
structure Pattern (α : Type*) where
  items : List (Item α)
  consumes : ∃ p ∈ items, 0 < p.least

/-- The first `fuel` positions tried. -/
def findAllFrom (p : Pattern α) : ℕ → List α → List (List (List α))
  | 0, _ => []
  | fuel + 1, input =>
    match matchHere p.items input with
    | some (groups, after) => groups :: findAllFrom p fuel after
    | none =>
      match input with
      | [] => []
      | _ :: tail => findAllFrom p fuel tail

/-- All matches that do not overlap, leftmost first. -/
def findAll (p : Pattern α) (input : List α) : List (List (List α)) :=
  findAllFrom p (input.length + 1) input

/-! ### One item -/

theorem greedy_some {attempt : ℕ → Option β} {least n : ℕ} {x : β}
    (found : greedy attempt least n = some x) :
    ∃ m, least ≤ m ∧ m ≤ n ∧ attempt m = some x := by
  induction n with
  | zero =>
    simp only [greedy] at found
    split at found
    next none_needed => exact ⟨0, le_of_eq none_needed, le_refl _, found⟩
    · cases found
  | succ n ih =>
    simp only [greedy] at found
    split at found
    · cases found
    next enough =>
      rcases Option.or_eq_some_iff.mp found with first | ⟨-, later⟩
      · exact ⟨n + 1, not_lt.mp enough, le_refl _, first⟩
      · obtain ⟨m, low, high, works⟩ := ih later
        exact ⟨m, low, Nat.le_succ_of_le high, works⟩

/-- When the largest number works, nothing else is tried. -/
theorem greedy_first {attempt : ℕ → Option β} {least n : ℕ} (enough : least ≤ n) {x : β}
    (works : attempt n = some x) : greedy attempt least n = some x := by
  cases n with
  | zero => rw [greedy, if_pos (Nat.le_zero.mp enough), works]
  | succ n => rw [greedy, if_neg (not_lt.mpr enough), works, Option.some_or]

theorem Item.reach_le (p : Item α) (input : List α) :
    p.reach input ≤ (input.takeWhile p.cls).length := by
  unfold Item.reach
  split
  · exact Nat.min_le_right _ _
  · exact le_refl _

private theorem drop_takeWhile {cls : α → Bool} {input : List α} {m : ℕ}
    (inside : m < (input.takeWhile cls).length) :
    ∃ c tail, input.drop m = c :: tail ∧ cls c = true := by
  have within : m < input.length :=
    lt_of_lt_of_le inside (List.takeWhile_prefix cls).length_le
  refine ⟨input[m], input.drop (m + 1), List.drop_eq_getElem_cons within, ?_⟩
  have same : (input.takeWhile cls)[m] = input[m] :=
    List.IsPrefix.getElem (List.takeWhile_prefix cls) inside
  rw [← same]
  exact List.mem_takeWhile_imp (List.getElem_mem inside)

/-- Without a first character of its class an item that needs one does not match. -/
theorem matchHere_reject {p : Item α} (needed : 0 < p.least) (items : List (Item α))
    {input : List α} (other : ∀ c ∈ input.head?, p.cls c = false) :
    matchHere (p :: items) input = none := by
  have stuck : p.reach input = 0 := by
    refine Nat.le_zero.mp ((p.reach_le input).trans ?_)
    cases input with
    | nil => exact le_refl _
    | cons c tail =>
      rw [List.takeWhile_cons_of_neg (by rw [other c rfl]; decide)]
      exact le_refl _
  rw [matchHere, stuck, greedy, if_neg (Nat.ne_of_gt needed)]

/-- What an item takes first is what it keeps, if the rest of the pattern matches behind it. -/
theorem matchHere_some {p : Item α} {items : List (Item α)} {taken rest after : List α}
    {groups : List (List α)} (reach : p.reach (taken ++ rest) = taken.length)
    (enough : p.least ≤ taken.length) (found : matchHere items rest = some (groups, after)) :
    matchHere (p :: items) (taken ++ rest) =
      some (if p.group then taken :: groups else groups, after) := by
  rw [matchHere, reach]
  apply greedy_first enough
  rw [List.drop_left, List.take_left, found]
  rfl

/-- If it does not, and no character of the item could start it, nothing matches. -/
theorem matchHere_none {p : Item α} {items : List (Item α)} {taken rest : List α}
    (reach : p.reach (taken ++ rest) = taken.length)
    (apart : ∀ c tail, p.cls c = true → matchHere items (c :: tail) = none)
    (missing : matchHere items rest = none) : matchHere (p :: items) (taken ++ rest) = none := by
  rw [matchHere, reach]
  by_contra found
  obtain ⟨x, some_x⟩ := Option.ne_none_iff_exists'.mp found
  obtain ⟨m, -, high, works⟩ := greedy_some some_x
  -- a shorter take leaves a character of the item at the head
  have none_here : matchHere items ((taken ++ rest).drop m) = none := by
    rcases Nat.lt_or_eq_of_le high with less | rfl
    · have inside := lt_of_lt_of_le less (reach ▸ p.reach_le (taken ++ rest))
      obtain ⟨c, tail, dropped, member⟩ := drop_takeWhile inside
      rw [dropped, apart c tail member]
    · rw [List.drop_left, missing]
  rw [none_here] at works
  cases works

/-- An unbounded item takes a whole run of its class. -/
theorem reach_run {p : Item α} (unbounded : p.most = none) {run rest : List α}
    (inside : ∀ c ∈ run, p.cls c = true) (other : ∀ c ∈ rest.head?, p.cls c = false) :
    p.reach (run ++ rest) = run.length := by
  simp only [Item.reach, unbounded, List.takeWhile_append_of_pos inside]
  cases rest with
  | nil => rw [List.takeWhile_nil, List.append_nil]
  | cons c tail =>
    rw [List.takeWhile_cons_of_neg (by rw [other c rfl]; decide), List.append_nil]

/-- An item of one character takes it. -/
theorem reach_one {p : Item α} (one : p.most = some 1) {c : α} (inside : p.cls c = true)
    (rest : List α) : p.reach ([c] ++ rest) = [c].length := by
  simp only [Item.reach, one, List.singleton_append, List.takeWhile_cons_of_pos inside,
    List.length_cons]
  exact Nat.min_eq_left (Nat.succ_le_succ (Nat.zero_le _))

/-! ### All matches -/

/-- Every item takes what it needs. -/
private theorem matchHere_length {items : List (Item α)} {input after : List α}
    {groups : List (List α)} (found : matchHere items input = some (groups, after)) :
    after.length ≤ input.length ∧ ∀ p ∈ items, after.length + p.least ≤ input.length := by
  induction items generalizing input after groups with
  | nil =>
    simp only [matchHere, Option.some.injEq, Prod.mk.injEq] at found
    rw [← found.2]
    exact ⟨le_refl _, fun _ member => nomatch member⟩
  | cons p items ih =>
    rw [matchHere] at found
    obtain ⟨m, low, high, works⟩ := greedy_some found
    obtain ⟨⟨inner, rest⟩, matched, same⟩ := Option.map_eq_some_iff.mp works
    have within := high.trans ((p.reach_le input).trans (List.takeWhile_prefix p.cls).length_le)
    cases same
    obtain ⟨shorter, behind⟩ := ih matched
    rw [List.length_drop] at shorter behind
    refine ⟨by omega, List.forall_mem_cons.mpr ⟨by omega, fun q member => ?_⟩⟩
    have needed := behind q member
    omega

namespace Pattern

variable (p : Pattern α)

/-- A match leaves less than there was. -/
theorem shorter {input after : List α} {groups : List (List α)}
    (found : matchHere p.items input = some (groups, after)) : after.length < input.length := by
  obtain ⟨item, member, needed⟩ := p.consumes
  have taken := (matchHere_length found).2 item member
  omega

private theorem findAllFrom_fuel {fuel fuel' : ℕ} {input : List α} (enough : input.length < fuel)
    (enough' : input.length < fuel') : findAllFrom p fuel input = findAllFrom p fuel' input := by
  induction fuel generalizing fuel' input with
  | zero => exact absurd enough (Nat.not_lt_zero _)
  | succ fuel ih =>
    cases fuel' with
    | zero => exact absurd enough' (Nat.not_lt_zero _)
    | succ fuel' =>
      simp only [findAllFrom]
      split
      next groups after found =>
        have less := p.shorter found
        exact congrArg _ (ih (by omega) (by omega))
      · cases input with
        | nil => rfl
        | cons c tail =>
          rw [List.length_cons] at enough enough'
          exact ih (by omega) (by omega)

theorem findAll_nil : findAll p [] = [] := by
  simp only [findAll, findAllFrom]
  split
  next groups after found => exact absurd (p.shorter found) (Nat.not_lt_zero _)
  · rfl

/-- A match is listed, and the search goes on behind it. -/
theorem findAll_match {input after : List α} {groups : List (List α)}
    (found : matchHere p.items input = some (groups, after)) :
    findAll p input = groups :: findAll p after := by
  have less := p.shorter found
  unfold findAll
  rw [findAllFrom.eq_def]
  simp only [found]
  exact congrArg _ (findAllFrom_fuel p less (Nat.lt_succ_self _))

/-- Without a match the search goes on one character later. -/
theorem findAll_skip {c : α} {tail : List α} (missing : matchHere p.items (c :: tail) = none) :
    findAll p (c :: tail) = findAll p tail := by
  unfold findAll
  rw [List.length_cons, findAllFrom.eq_def]
  simp only [missing]

end Pattern

end FanatecWheel.Foundation
