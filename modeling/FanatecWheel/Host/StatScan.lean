import FanatecWheel.Foundation.Trace
import FanatecWheel.Host.SoakRunner

/-!
# The counter pattern in one pass

The regular expression of the soak runner never has to give back: no two neighbouring
classes of it meet. So one pass over the text finds the same matches, with a state that
says how much of a match has been read.
-/

namespace FanatecWheel.Host

open Foundation

/-! ### The classes are apart -/

private theorem sep_cases {c : Char} (sep : sepChar c = true) : c = '=' ∨ c = ':' := by
  simpa only [sepChar, Bool.or_eq_true, beq_iff_eq] using sep

theorem sep_apart {c : Char} (sep : sepChar c = true) :
    wordChar c = false ∧ spaceChar c = false ∧ c.isDigit = false := by
  rcases sep_cases sep with rfl | rfl <;> decide

theorem space_apart {c : Char} (space : spaceChar c = true) :
    wordChar c = false ∧ sepChar c = false ∧ c.isDigit = false := by
  have all : ∀ n ≤ 32, spaceChar (Char.ofNat n) = true → wordChar (Char.ofNat n) = false ∧
      sepChar (Char.ofNat n) = false ∧ (Char.ofNat n).isDigit = false := by
    decide
  have low : c.toNat ≤ 32 := by
    simp only [spaceChar, Bool.or_eq_true, Bool.and_eq_true, decide_eq_true_eq,
      beq_iff_eq] at space
    rcases space with (rfl | tab) | separator
    · exact le_refl _
    · exact tab.2.trans (by decide)
    · exact separator.2.trans (by decide)
  have apart := all c.toNat low
  rw [Char.ofNat_toNat] at apart
  exact apart space

theorem digit_word {c : Char} (digit : c.isDigit = true) : wordChar c = true := by
  simp only [wordChar, Char.isAlphanum, digit, Bool.or_true, Bool.true_or]

theorem digit_apart {c : Char} (digit : c.isDigit = true) : spaceChar c = false := by
  by_contra space
  simp only [Bool.not_eq_false] at space
  rw [(space_apart space).2.2] at digit
  cases digit

theorem word_apart {c : Char} (word : wordChar c = true) : sepChar c = false := by
  by_contra sep
  simp only [Bool.not_eq_false] at sep
  rw [(sep_apart sep).1] at word
  cases word

/-! ### The items of the pattern -/

private def digitsItem : Item Char := ⟨Char.isDigit, 1, none, true⟩

private def spaceItem : Item Char := ⟨spaceChar, 0, none, false⟩

private def sepItem : Item Char := ⟨sepChar, 1, some 1, false⟩

private def wordItem : Item Char := ⟨wordChar, 1, none, true⟩

private theorem statRe_items : statRe.items = [wordItem, sepItem, spaceItem, digitsItem] := rfl

private theorem digits_reject {input : List Char} (other : ∀ c ∈ input.head?, c.isDigit = false) :
    matchHere [digitsItem] input = none :=
  matchHere_reject Nat.zero_lt_one [] other

private theorem number_reject {spaces rest : List Char}
    (blank : ∀ c ∈ spaces, spaceChar c = true)
    (other : ∀ c ∈ rest.head?, spaceChar c = false ∧ c.isDigit = false) :
    matchHere [spaceItem, digitsItem] (spaces ++ rest) = none := by
  refine matchHere_none (reach_run rfl blank fun c member => (other c member).1) ?_
    (digits_reject fun c member => (other c member).2)
  intro c tail space
  apply digits_reject
  intro d member
  cases member
  exact (space_apart space).2.2

private theorem value_reject {sep : Char} (isSep : sepChar sep = true)
    {spaces rest : List Char} (blank : ∀ c ∈ spaces, spaceChar c = true)
    (other : ∀ c ∈ rest.head?, spaceChar c = false ∧ c.isDigit = false) :
    matchHere [sepItem, spaceItem, digitsItem] ([sep] ++ (spaces ++ rest)) = none := by
  refine matchHere_none (reach_one rfl isSep _) ?_ (number_reject blank other)
  intro c tail isSep
  refine @number_reject [] (c :: tail) (fun _ member => nomatch member) fun d member => ?_
  cases member
  exact (sep_apart isSep).2

private theorem rest_reject {input : List Char} (other : ∀ c ∈ input.head?, sepChar c = false) :
    matchHere [sepItem, spaceItem, digitsItem] input = none :=
  matchHere_reject Nat.zero_lt_one _ other

/-- A word without a value behind it. -/
private theorem word_reject {w rest : List Char} (word : ∀ c ∈ w, wordChar c = true)
    (ended : ∀ c ∈ rest.head?, wordChar c = false)
    (missing : matchHere [sepItem, spaceItem, digitsItem] rest = none) :
    matchHere statRe.items (w ++ rest) = none := by
  rw [statRe_items]
  refine matchHere_none (reach_run rfl word ended) ?_ missing
  intro c tail inside
  apply rest_reject
  intro d member
  cases member
  exact word_apart inside

/-! ### The search, piece by piece -/

theorem findAll_other {c : Char} (other : wordChar c = false) (rest : List Char) :
    findAll statRe (c :: rest) = findAll statRe rest := by
  refine Pattern.findAll_skip _ (matchHere_reject Nat.zero_lt_one _ fun d member => ?_)
  cases member
  exact other

/-- A word without a value is passed over, character by character. -/
private theorem findAll_pass {w rest : List Char} (word : ∀ c ∈ w, wordChar c = true)
    (ended : ∀ c ∈ rest.head?, wordChar c = false)
    (missing : matchHere [sepItem, spaceItem, digitsItem] rest = none) :
    findAll statRe (w ++ rest) = findAll statRe rest := by
  induction w with
  | nil => rfl
  | cons c w ih =>
    have tail : ∀ d ∈ w, wordChar d = true := fun d member => word d (List.mem_cons_of_mem c member)
    have stuck := word_reject word ended missing
    rw [List.cons_append] at stuck ⊢
    rw [Pattern.findAll_skip _ stuck, ih tail]

theorem findAll_word {w rest : List Char} (word : ∀ c ∈ w, wordChar c = true)
    (ended : ∀ c ∈ rest.head?, wordChar c = false ∧ sepChar c = false) :
    findAll statRe (w ++ rest) = findAll statRe rest :=
  findAll_pass word (fun c member => (ended c member).1)
    (rest_reject fun c member => (ended c member).2)

/-- A label with no number behind it. -/
theorem findAll_label {w : List Char} (word : ∀ c ∈ w, wordChar c = true) {sep : Char}
    (isSep : sepChar sep = true) {spaces : List Char}
    (blank : ∀ c ∈ spaces, spaceChar c = true) {rest : List Char}
    (other : ∀ c ∈ rest.head?, spaceChar c = false ∧ c.isDigit = false) :
    findAll statRe (w ++ ([sep] ++ (spaces ++ rest))) = findAll statRe rest := by
  have ended : ∀ c ∈ ([sep] ++ (spaces ++ rest)).head?, wordChar c = false := by
    intro c member
    cases member
    exact (sep_apart isSep).1
  rw [findAll_pass word ended (value_reject isSep blank other), List.singleton_append,
    findAll_other (sep_apart isSep).1]
  -- the blanks are no word characters either
  induction spaces with
  | nil => rfl
  | cons c spaces ih =>
    obtain ⟨first, later⟩ := List.forall_mem_cons.mp blank
    rw [List.cons_append, findAll_other (space_apart first).1]
    apply ih later
    intro d member
    cases member
    exact (sep_apart isSep).1

/-- A label with its number is a match. -/
theorem findAll_stat {w : List Char} (nonempty : w ≠ []) (word : ∀ c ∈ w, wordChar c = true)
    {sep : Char} (isSep : sepChar sep = true) {spaces : List Char}
    (blank : ∀ c ∈ spaces, spaceChar c = true) {digits : List Char} (some_digit : digits ≠ [])
    (number : ∀ c ∈ digits, c.isDigit = true) {rest : List Char}
    (ended : ∀ c ∈ rest.head?, c.isDigit = false) :
    findAll statRe (w ++ ([sep] ++ (spaces ++ (digits ++ rest)))) =
      [w, digits] :: findAll statRe rest := by
  -- from the last item of the pattern to the first: each takes its run and leaves the others'
  have value : matchHere [digitsItem] (digits ++ rest) = some ([digits], rest) :=
    matchHere_some (reach_run rfl number ended) (List.length_pos_of_ne_nil some_digit) rfl
  have spaced : matchHere [spaceItem, digitsItem] (spaces ++ (digits ++ rest)) =
      some ([digits], rest) := by
    refine matchHere_some (reach_run rfl blank fun c member => ?_) (Nat.zero_le _) value
    rw [List.head?_append_of_ne_nil _ some_digit] at member
    exact digit_apart (number c (List.mem_of_mem_head? member))
  have separated : matchHere [sepItem, spaceItem, digitsItem]
      ([sep] ++ (spaces ++ (digits ++ rest))) = some ([digits], rest) :=
    matchHere_some (reach_one rfl isSep _) (le_refl _) spaced
  have found : matchHere statRe.items (w ++ ([sep] ++ (spaces ++ (digits ++ rest)))) =
      some ([w, digits], rest) := by
    rw [statRe_items]
    refine matchHere_some (reach_run rfl word fun c member => ?_)
      (List.length_pos_of_ne_nil nonempty) separated
    cases member
    exact (sep_apart isSep).1
  exact Pattern.findAll_match _ found

/-! ### The search in one pass -/

/-- What has been read and may still become a match. -/
inductive ScanState
  | outside
  | word (w : List Char)
  | separated (w : List Char)
  | number (w digits : List Char)

/-- A character that starts something new or nothing. -/
def enter (c : Char) : ScanState := if wordChar c then .word [c] else .outside

/-- One character; a match is given out by the first character behind it. -/
def scanStep : ScanState → Char → ScanState × List (List (List Char))
  | .outside, c => (enter c, [])
  | .word w, c =>
    (if wordChar c then .word (w ++ [c]) else if sepChar c then .separated w else .outside, [])
  | .separated w, c =>
    (if spaceChar c then .separated w else if c.isDigit then .number w [c] else enter c, [])
  | .number w digits, c =>
    if c.isDigit then (.number w (digits ++ [c]), []) else (enter c, [[w, digits]])

/-- The match at the end of the text. -/
def ScanState.flush : ScanState → List (List (List Char))
  | .number w digits => [[w, digits]]
  | _ => []

def scan (s : ScanState) (input : List Char) : List (List (List Char)) :=
  (trace scanStep s input).flatten ++ (final scanStep s input).flush

theorem scan_cons (s : ScanState) (c : Char) (rest : List Char) :
    scan s (c :: rest) = (scanStep s c).2 ++ scan (scanStep s c).1 rest := by
  simp only [scan, trace, List.flatten_cons, List.append_assoc]
  rfl

/-- The text a state stands for. -/
inductive Held : ScanState → List Char → Prop
  | outside : Held .outside []
  | word {w : List Char} (nonempty : w ≠ []) (word : ∀ c ∈ w, wordChar c = true) :
      Held (.word w) w
  | separated {w : List Char} (nonempty : w ≠ []) (word : ∀ c ∈ w, wordChar c = true) {sep : Char}
      (isSep : sepChar sep = true) {spaces : List Char}
      (blank : ∀ c ∈ spaces, spaceChar c = true) :
      Held (.separated w) (w ++ ([sep] ++ spaces))
  | number {w : List Char} (nonempty : w ≠ []) (word : ∀ c ∈ w, wordChar c = true) {sep : Char}
      (isSep : sepChar sep = true) {spaces : List Char}
      (blank : ∀ c ∈ spaces, spaceChar c = true) {digits : List Char} (some_digit : digits ≠ [])
      (number : ∀ c ∈ digits, c.isDigit = true) :
      Held (.number w digits) (w ++ ([sep] ++ (spaces ++ digits)))

private theorem forall_snoc {p : Char → Bool} {l : List Char} (held : ∀ c ∈ l, p c = true)
    {c : Char} (last : p c = true) : ∀ d ∈ l ++ [c], p d = true := by
  intro d member
  rcases List.mem_append.mp member with earlier | added
  · exact held d earlier
  · rw [List.mem_singleton.mp added]
    exact last

/-- A character behind everything that could be given up or out. -/
private theorem held_enter (c : Char) (rest : List Char) :
    ∃ before, Held (enter c) before ∧
      findAll statRe (c :: rest) = findAll statRe (before ++ rest) := by
  unfold enter
  split
  next word => exact ⟨[c], .word (List.cons_ne_nil _ _) (by simpa using word), rfl⟩
  next other =>
    rw [Bool.not_eq_true] at other
    exact ⟨[], .outside, findAll_other other rest⟩

/-- One character keeps what the state stands for. -/
private theorem held_step {s : ScanState} {before : List Char} (held : Held s before) (c : Char)
    (rest : List Char) :
    ∃ after, Held (scanStep s c).1 after ∧
      findAll statRe (before ++ c :: rest) =
        (scanStep s c).2 ++ findAll statRe (after ++ rest) := by
  -- a character that does not go on what is held gives it up, or out when it is a number
  cases held with
  | outside => exact held_enter c rest
  | word nonempty word =>
    simp only [scanStep, List.nil_append]
    split
    next inside =>
      exact ⟨before ++ [c], .word (by simp) (forall_snoc word inside), by simp⟩
    next other =>
      rw [Bool.not_eq_true] at other
      split
      next isSep =>
        exact ⟨before ++ ([c] ++ []),
          .separated nonempty word isSep (fun _ member => nomatch member), by simp⟩
      next noSep =>
        rw [Bool.not_eq_true] at noSep
        refine ⟨[], .outside, ?_⟩
        rw [findAll_word word, findAll_other other, List.nil_append]
        intro d member
        cases member
        exact ⟨other, noSep⟩
  | @separated w nonempty word sep isSep spaces blank =>
    simp only [scanStep, List.nil_append]
    split
    next space =>
      exact ⟨_, .separated nonempty word isSep (forall_snoc blank space), by simp⟩
    next noSpace =>
      rw [Bool.not_eq_true] at noSpace
      split
      next digit =>
        exact ⟨_, .number nonempty word isSep blank (List.cons_ne_nil c [])
          (by simpa using digit), by simp⟩
      next noDigit =>
        rw [Bool.not_eq_true] at noDigit
        obtain ⟨after, kept, same⟩ := held_enter c rest
        refine ⟨after, kept, ?_⟩
        rw [← same, List.append_assoc, List.append_assoc]
        apply findAll_label word isSep blank
        intro d member
        cases member
        exact ⟨noSpace, noDigit⟩
  | @number w nonempty word sep isSep spaces blank digits some_digit number =>
    simp only [scanStep]
    split
    next digit =>
      exact ⟨_, .number nonempty word isSep blank (by simp) (forall_snoc number digit), by simp⟩
    next noDigit =>
      rw [Bool.not_eq_true] at noDigit
      obtain ⟨after, kept, same⟩ := held_enter c rest
      refine ⟨after, kept, ?_⟩
      rw [← same, List.append_assoc, List.append_assoc, List.append_assoc]
      apply findAll_stat nonempty word isSep blank some_digit number
      intro d member
      cases member
      exact noDigit

/-- At the end only a number is a match. -/
private theorem held_end {s : ScanState} {before : List Char} (held : Held s before) :
    findAll statRe before = s.flush := by
  have nothing : ∀ {p : Char → Prop}, ∀ c ∈ ([] : List Char).head?, p c :=
    fun _ member => nomatch member
  cases held with
  | outside => exact Pattern.findAll_nil _
  | word nonempty word =>
    have passed := findAll_word word nothing
    rw [List.append_nil] at passed
    rw [passed]
    exact Pattern.findAll_nil _
  | separated nonempty word isSep blank =>
    have passed := findAll_label word isSep blank nothing
    rw [List.append_nil] at passed
    rw [passed]
    exact Pattern.findAll_nil _
  | number nonempty word isSep blank some_digit number =>
    have found := findAll_stat nonempty word isSep blank some_digit number nothing
    rw [List.append_nil, Pattern.findAll_nil] at found
    exact found

theorem findAll_held {s : ScanState} {before : List Char} (held : Held s before)
    (input : List Char) : findAll statRe (before ++ input) = scan s input := by
  induction input generalizing s before with
  | nil =>
    rw [List.append_nil, held_end held]
    rfl
  | cons c rest ih =>
    obtain ⟨after, kept, same⟩ := held_step held c rest
    rw [same, scan_cons, ih kept]

/-- **One pass.** The search with backtracking and the pass list the same matches. -/
theorem findAll_scan (text : List Char) : findAll statRe text = scan .outside text :=
  findAll_held .outside text

end FanatecWheel.Host
