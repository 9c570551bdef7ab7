import FanatecWheel.App.DiagSvc
import FanatecWheel.Host.StatScan

/-!
# What the soak runner finds on the console

The texts of `rim stats`, `rim input` and `rim health`, read piece by piece in the pass
of `StatScan`. The lemmas say which labels and numbers the search gives out.
-/

namespace FanatecWheel.Host

open Foundation Rimlink App

/-! ### Reading a piece of text -/

/-- The pass goes from one state to the other and gives out these matches. -/
def Reads (s : ScanState) (piece : Text) (t : ScanState) (out : List (List Text)) : Prop :=
  final scanStep s piece = t ∧ (trace scanStep s piece).flatten = out

theorem Reads.append {s t u : ScanState} {first second : Text} {out out' : List (List Text)}
    (here : Reads s first t out) (later : Reads t second u out') :
    Reads s (first ++ second) u (out ++ out') := by
  constructor
  · rw [final_append, here.1, later.1]
  · rw [trace_append, List.flatten_append, here.1, here.2, later.2]

/-- A printed line is read conversion by conversion. -/
theorem Reads.part {s t u : ScanState} {piece : Text} {parts : List Text}
    {out out' : List (List Text)} (here : Reads s piece t out)
    (later : Reads t (shellPrint parts) u out') :
    Reads s (shellPrint (piece :: parts)) u (out ++ out') := by
  have split : shellPrint (piece :: parts) = piece ++ shellPrint parts := by
    simp only [shellPrint, List.flatten_cons, List.append_assoc]
  rw [split]
  exact here.append later

/-- A run of characters that a state takes in. -/
private theorem reads_run {p : Char → Bool} {state : Text → ScanState}
    (takes : ∀ before c, p c = true → scanStep (state before) c = (state (before ++ [c]), []))
    {run : Text} (inside : ∀ c ∈ run, p c = true) (before : Text) :
    Reads (state before) run (state (before ++ run)) [] := by
  induction run generalizing before with
  | nil =>
    rw [List.append_nil]
    exact ⟨rfl, rfl⟩
  | cons c rest ih =>
    obtain ⟨first, later⟩ := List.forall_mem_cons.mp inside
    have stepped : Reads (state before) [c] (state (before ++ [c])) [] := by
      simp only [Reads, final, trace, List.foldl_cons, List.foldl_nil, takes before c first,
        List.flatten_cons, List.flatten_nil, List.append_nil, and_self]
    have read := stepped.append (ih later (before ++ [c]))
    rw [List.append_assoc] at read
    exact read

private theorem reads_digits {digits : Text} (number : ∀ c ∈ digits, c.isDigit = true)
    (w before : Text) : Reads (.number w before) digits (.number w (before ++ digits)) [] :=
  @reads_run Char.isDigit (.number w) (fun _ _ digit => if_pos digit) digits number before

private theorem reads_word {w : Text} (word : ∀ c ∈ w, wordChar c = true) (before : Text) :
    Reads (.word before) w (.word (before ++ w)) [] :=
  reads_run (fun _ _ inside => by rw [scanStep, if_pos inside]) word before

/-- A number behind a label. -/
theorem reads_value (w : Text) (n : ℕ) :
    Reads (.separated w) (fmtU n) (.number w (fmtU n)) [] := by
  have digits := fmtU_digits n
  cases printed : fmtU n with
  | nil => exact absurd printed Nat.toDigits_ne_nil
  | cons c rest =>
    rw [printed] at digits
    obtain ⟨first, later⟩ := List.forall_mem_cons.mp digits
    have started : Reads (.separated w) [c] (.number w [c]) [] := by
      simp [Reads, final, trace, scanStep, first, digit_apart first]
    exact started.append (reads_digits later w [c])

/-- A word that no label precedes. -/
private theorem reads_word_outside {w : Text} (nonempty : w ≠ [])
    (word : ∀ c ∈ w, wordChar c = true) : Reads .outside w (.word w) [] := by
  cases w with
  | nil => exact absurd rfl nonempty
  | cons c rest =>
    obtain ⟨first, later⟩ := List.forall_mem_cons.mp word
    have started : Reads .outside [c] (.word [c]) [] := by
      simp [Reads, final, trace, scanStep, enter, first]
    exact started.append (reads_word later [c])

/-- A number that no label precedes. -/
theorem reads_number (n : ℕ) : Reads .outside (fmtU n) (.word (fmtU n)) [] :=
  reads_word_outside Nat.toDigits_ne_nil fun c member => digit_word (fmtU_digits n c member)

/-- A signed number that no label precedes: the sign is no word character. -/
theorem reads_int (z : ℤ) : Reads .outside (fmtD z) (.word (fmtU z.natAbs)) [] := by
  unfold fmtD
  split
  · have sign : Reads .outside ['-'] .outside [] := ⟨rfl, rfl⟩
    exact sign.append (reads_number z.natAbs)
  · exact reads_number z.natAbs

private theorem hexDigit_word {n : ℕ} (digit : n < 16) :
    wordChar (Nat.digitChar n) = true ∧ wordChar (Nat.digitChar n).toUpper = true := by
  have all : ∀ k < 16, wordChar (Nat.digitChar k) = true ∧
      wordChar (Nat.digitChar k).toUpper = true := by
    decide
  exact all n digit

private theorem fmtHex_word (b : U8) :
    (∀ c ∈ fmtHex b, wordChar c = true) ∧ ∀ c ∈ fmtHexUpper b, wordChar c = true := by
  have high := hexDigit_word (Nat.div_lt_of_lt_mul b.isLt : b.toNat / 16 < 16)
  have low := hexDigit_word (Nat.mod_lt b.toNat (by decide : 0 < 16))
  simp [fmtHex, fmtHexUpper, high, low]

private theorem reads_hex (b : U8) : Reads .outside (fmtHex b) (.word (fmtHex b)) [] :=
  reads_word_outside (List.cons_ne_nil _ _) (fmtHex_word b).1

private theorem reads_blank (v : Text) : Reads (.word v) " ".toList .outside [] := ⟨rfl, rfl⟩

/-- Matches that all have one label. -/
def Labelled (w : Text) (out : List (List Text)) : Prop := ∀ m ∈ out, ∃ v, m = [w, v]

private theorem labelled_nil (w : Text) : Labelled w [] := fun _ member => nomatch member

private theorem labelled_one (w v : Text) : Labelled w [[w, v]] := by
  intro m member
  exact ⟨v, List.mem_singleton.mp member⟩

/-- What stands behind a label up to a blank is a value of the label or nothing. -/
private theorem reads_field {w piece : Text} {out : List (List Text)} (labelled : Labelled w out)
    (read : (∃ v, Reads (.separated w) piece (.word v) out) ∨
      ∃ digits, Reads (.separated w) piece (.number w digits) out) :
    ∃ out, Labelled w out ∧ Reads (.separated w) (piece ++ " ".toList) .outside out := by
  rcases read with ⟨v, read⟩ | ⟨digits, read⟩
  · refine ⟨out ++ [], ?_, read.append (reads_blank v)⟩
    rw [List.append_nil]
    exact labelled
  · have blank : Reads (.number w digits) " ".toList .outside [[w, digits]] := ⟨rfl, rfl⟩
    refine ⟨out ++ [[w, digits]], ?_, read.append blank⟩
    intro m member
    rcases List.mem_append.mp member with earlier | last
    · exact labelled m earlier
    · exact labelled_one w digits m last

/-- A signed number behind a label: a negative one is no value. -/
private theorem reads_int_field (w : Text) (z : ℤ) :
    ∃ out, Labelled w out ∧ Reads (.separated w) (fmtD z ++ " ".toList) .outside out := by
  apply reads_field (labelled_nil w)
  unfold fmtD
  split
  · left
    have sign : Reads (.separated w) ['-'] .outside [] := ⟨rfl, rfl⟩
    exact ⟨_, sign.append (reads_number z.natAbs)⟩
  · right
    exact ⟨_, reads_value w z.natAbs⟩

/-- Two hexadecimal digits behind a label: the leading decimal ones are its value. -/
private theorem reads_hex_field (w : Text) (b : U8) :
    ∃ out, Labelled w out ∧ Reads (.separated w) (fmtHexUpper b ++ " ".toList) .outside out := by
  have word := (fmtHex_word b).2
  have two : ∃ c d, fmtHexUpper b = [c, d] := ⟨_, _, rfl⟩
  obtain ⟨c, d, hex⟩ := two
  rw [hex] at word ⊢
  obtain ⟨first, second⟩ : wordChar c = true ∧ wordChar d = true := by simpa using word
  have no_space : spaceChar c = false := by
    by_contra space
    simp only [Bool.not_eq_false] at space
    rw [(space_apart space).1] at first
    cases first
  -- 4F is read as 4, F4 as nothing and 44 as a number
  cases digit : c.isDigit with
  | false =>
    apply reads_field (labelled_nil w)
    left
    refine ⟨[c, d], ?_⟩
    simp [Reads, final, trace, scanStep, enter, no_space, digit, first, second]
  | true =>
    cases digit' : d.isDigit with
    | false =>
      apply reads_field (labelled_one w [c])
      left
      refine ⟨[d], ?_⟩
      simp [Reads, final, trace, scanStep, enter, no_space, digit, digit', second]
    | true =>
      apply reads_field (labelled_nil w)
      right
      refine ⟨[c, d], ?_⟩
      simp [Reads, final, trace, scanStep, no_space, digit, digit']

/-! ### The commands -/

/-- A label with the number printed behind it. -/
def entry (key : Text) (n : ℕ) : List Text := [key, fmtU n]

/-- A piece that belongs to the label before it and the blank behind it are one part. -/
private theorem reads_field_part {w piece : Text} {parts : List Text} {u : ScanState}
    {out out' : List (List Text)}
    (here : Reads (.separated w) (piece ++ " ".toList) .outside out)
    (later : Reads .outside (shellPrint parts) u out') :
    Reads (.separated w) (shellPrint (piece :: " ".toList :: parts)) u (out ++ out') := by
  have joined : shellPrint (piece :: " ".toList :: parts) =
      shellPrint ((piece ++ " ".toList) :: parts) := by
    simp only [shellPrint, List.flatten_cons, List.append_assoc]
  rw [joined]
  exact here.part later

/-- One label and one number. -/
private theorem reads_line {label key : Text} (labels : Reads .outside label (.separated key) [])
    (n : ℕ) : Reads .outside (shellPrint [label, fmtU n]) .outside [entry key n] := by
  have newline : Reads (.number key (fmtU n)) (shellPrint []) .outside [entry key n] := ⟨rfl, rfl⟩
  exact labels.part ((reads_value key n).part newline)

/-- The changes behind a printed value. -/
private theorem reads_changes (v : Text) (n : ℕ) :
    Reads (.word v) (shellPrint [" (".toList, fmtU n, " changes)".toList]) .outside [] := by
  have bracket : Reads (.word v) " (".toList .outside [] := ⟨rfl, rfl⟩
  have close : Reads (.word (fmtU n)) (shellPrint [" changes)".toList]) .outside [] := ⟨rfl, rfl⟩
  exact bracket.part ((reads_number n).part close)

private theorem reads_rumble (o : OutputStats) :
    ∃ out, Labelled "rumble_last".toList out ∧
      Reads .outside (shellPrint ["rumble_last:  ".toList, fmtHexUpper (o.rumbleLast 0),
        " ".toList, fmtHexUpper (o.rumbleLast 1), " (".toList, fmtU o.rumbleChanges.toNat,
        " changes)".toList]) .outside out := by
  obtain ⟨out, labelled, field⟩ := reads_hex_field "rumble_last".toList (o.rumbleLast 0)
  have label : Reads .outside "rumble_last:  ".toList (.separated "rumble_last".toList) [] :=
    ⟨rfl, rfl⟩
  have second : Reads .outside (fmtHexUpper (o.rumbleLast 1))
      (.word (fmtHexUpper (o.rumbleLast 1))) [] :=
    reads_word_outside (List.cons_ne_nil _ _) (fmtHex_word _).2
  have tail := second.part (reads_changes _ o.rumbleChanges.toNat)
  refine ⟨out, labelled, ?_⟩
  have line := label.part (reads_field_part field tail)
  simpa only [List.append_nil, List.nil_append] using line

private theorem reads_enc (v2 : InputV2State) :
    ∃ out, Labelled "enc".toList out ∧
      Reads .outside (shellPrint ["enc: ".toList, fmtD (v2.encDelta 0).toInt, " ".toList,
        fmtD (v2.encDelta 1).toInt, " ".toList, fmtD (v2.encDelta 2).toInt, " ".toList,
        fmtD (v2.encDelta 3).toInt, " (illegal ".toList, fmtU (v2.encIllegal 0).toNat,
        " ".toList, fmtU (v2.encIllegal 1).toNat, " ".toList, fmtU (v2.encIllegal 2).toNat,
        " ".toList, fmtU (v2.encIllegal 3).toNat, ")".toList]) .outside out := by
  obtain ⟨out, labelled, field⟩ := reads_int_field "enc".toList (v2.encDelta 0).toInt
  have label : Reads .outside "enc: ".toList (.separated "enc".toList) [] := ⟨rfl, rfl⟩
  have bracket : ∀ v, Reads (.word v) " (illegal ".toList .outside [] := fun _ => ⟨rfl, rfl⟩
  have close : ∀ v, Reads (.word v) (shellPrint [")".toList]) .outside [] := fun _ => ⟨rfl, rfl⟩
  have illegal := (reads_number (v2.encIllegal 0).toNat).part ((reads_blank _).part
    ((reads_number (v2.encIllegal 1).toNat).part ((reads_blank _).part
      ((reads_number (v2.encIllegal 2).toNat).part ((reads_blank _).part
        ((reads_number (v2.encIllegal 3).toNat).part (close _)))))))
  have deltas := (reads_int (v2.encDelta 1).toInt).part ((reads_blank _).part
    ((reads_int (v2.encDelta 2).toInt).part ((reads_blank _).part
      ((reads_int (v2.encDelta 3).toInt).part ((bracket _).part illegal)))))
  refine ⟨out, labelled, ?_⟩
  have line := label.part (reads_field_part field deltas)
  simpa only [List.append_nil, List.nil_append] using line

/-- Two numbers that no label precedes. -/
private theorem reads_pair {label : Text} (labels : Reads .outside label .outside []) (m n : ℕ) :
    Reads .outside (shellPrint [label, fmtU m, " max ".toList, fmtU n]) .outside [] := by
  have between : ∀ v, Reads (.word v) " max ".toList .outside [] := fun _ => ⟨rfl, rfl⟩
  have newline : ∀ v, Reads (.word v) (shellPrint []) .outside [] := fun _ => ⟨rfl, rfl⟩
  exact labels.part ((reads_number m).part ((between _).part ((reads_number n).part (newline _))))

/-- The pattern stops at the `x` of a hexadecimal number. -/
private theorem reads_leds (o : OutputStats) :
    Reads .outside (shellPrint ["leds_last:    0x".toList, fmtHexUpper16 o.ledsLast, " (".toList,
      fmtU o.ledsChanges.toNat, " changes)".toList]) .outside [entry "leds_last".toList 0] := by
  have label : Reads .outside "leds_last:    0x".toList (.word ['x'])
      [entry "leds_last".toList 0] := ⟨rfl, rfl⟩
  have hex : ∀ c ∈ fmtHexUpper16 o.ledsLast, wordChar c = true := by
    intro c member
    rcases List.mem_append.mp member with high | low
    · exact (fmtHex_word _).2 c high
    · exact (fmtHex_word _).2 c low
  exact label.part ((reads_word hex ['x']).part (reads_changes _ o.ledsChanges.toNat))

theorem reads_stats (d : DeviceCounters) :
    ∃ rumble, Labelled "rumble_last".toList rumble ∧
      Reads .outside (cmdRimStats d) .outside
        ([entry "txn".toList d.link.txnCount.toNat, entry "crc_err_rx".toList d.link.crcErrRx.toNat,
          entry "short_frame".toList d.link.shortFrame.toNat,
          entry "rearm_miss".toList d.link.rearmMiss.toNat,
          entry "overrun".toList d.link.overrun.toNat,
          entry "stale_clear".toList d.link.staleClear.toNat, entry "leds_last".toList 0] ++
        rumble ++ [entry "disp_changes".toList d.output.dispChanges.toNat]) := by
  obtain ⟨rumble, labelled, line⟩ := reads_rumble d.output
  have txn : Reads .outside "txn:          ".toList (.separated "txn".toList) [] := ⟨rfl, rfl⟩
  have crcErr : Reads .outside "crc_err_rx:   ".toList (.separated "crc_err_rx".toList) [] :=
    ⟨rfl, rfl⟩
  have short : Reads .outside "short_frame:  ".toList (.separated "short_frame".toList) [] :=
    ⟨rfl, rfl⟩
  have rearm : Reads .outside "rearm_miss:   ".toList (.separated "rearm_miss".toList) [] :=
    ⟨rfl, rfl⟩
  have overrun : Reads .outside "overrun:      ".toList (.separated "overrun".toList) [] :=
    ⟨rfl, rfl⟩
  have stale : Reads .outside "stale_clear:  ".toList (.separated "stale_clear".toList) [] :=
    ⟨rfl, rfl⟩
  -- in these two lines a word stands between the separator and the number
  have gap : Reads .outside "cs_gap us:    min ".toList .outside [] := ⟨rfl, rfl⟩
  have latency : Reads .outside "snap lat us:  p99 ".toList .outside [] := ⟨rfl, rfl⟩
  have disp : Reads .outside "disp_changes: ".toList (.separated "disp_changes".toList) [] :=
    ⟨rfl, rfl⟩
  have read := (((((((((reads_line txn d.link.txnCount.toNat).append
    (reads_line crcErr d.link.crcErrRx.toNat)).append
    (reads_line short d.link.shortFrame.toNat)).append
    (reads_line rearm d.link.rearmMiss.toNat)).append
    (reads_line overrun d.link.overrun.toNat)).append
    (reads_line stale d.link.staleClear.toNat)).append
    (reads_pair gap (if d.link.csGapMinUs = BitVec.allOnes 32 then (0 : U32)
      else d.link.csGapMinUs).toNat d.link.csGapMaxUs.toNat)).append
    (reads_pair latency d.p99Us.toNat d.maxUs.toNat)).append
    (reads_leds d.output)).append line
  refine ⟨rumble, labelled, ?_⟩
  have whole := read.append (reads_line disp d.output.dispChanges.toNat)
  simpa only [cmdRimStats, List.append_nil, List.nil_append, List.singleton_append,
    List.cons_append, List.append_assoc] using whole

/-- A number behind a label, up to the next label. -/
private theorem reads_entry {w next key : Text} (n : ℕ) {parts : List Text} {u : ScanState}
    {out : List (List Text)}
    (labels : ∀ v, Reads (.number w v) next (.separated key) [[w, v]])
    (later : Reads (.separated key) (shellPrint parts) u out) :
    Reads (.separated w) (shellPrint (fmtU n :: next :: parts)) u (entry w n :: out) :=
  (reads_value w n).part ((labels (fmtU n)).part later)

private theorem reads_last (w : Text) (n : ℕ) :
    Reads (.separated w) (shellPrint [fmtU n]) .outside [entry w n] := by
  have newline : Reads (.number w (fmtU n)) (shellPrint []) .outside [entry w n] := ⟨rfl, rfl⟩
  exact (reads_value w n).part newline

private theorem reads_funky (v2 : InputV2State) :
    Reads .outside (shellPrint ["funky: dir=".toList, fmtU v2.funkyDir.code, " push=".toList,
        fmtD (if v2.funkyPush then 1 else 0), " faults=".toList, fmtU v2.funkyFaults.toNat])
      .outside [entry "dir".toList v2.funkyDir.code,
        entry "push".toList (if v2.funkyPush then 1 else 0),
        entry "faults".toList v2.funkyFaults.toNat] := by
  have label : Reads .outside "funky: dir=".toList (.separated "dir".toList) [] := ⟨rfl, rfl⟩
  have push : ∀ v, Reads (.number "dir".toList v) " push=".toList (.separated "push".toList)
      [["dir".toList, v]] := fun _ => ⟨rfl, rfl⟩
  have faults : ∀ v, Reads (.number "push".toList v) " faults=".toList
      (.separated "faults".toList) [["push".toList, v]] := fun _ => ⟨rfl, rfl⟩
  have flag : fmtD (if v2.funkyPush then 1 else 0) = fmtU (if v2.funkyPush then 1 else 0) := by
    cases v2.funkyPush <;> rfl
  rw [flag]
  exact label.part (reads_entry _ push (reads_entry _ faults (reads_last _ _)))

private theorem reads_clutch (v2 : InputV2State) :
    Reads .outside (shellPrint ["clutch: ".toList, fmtU (v2.clutch 0).toNat, " ".toList,
        fmtU (v2.clutch 1).toNat, " combined=".toList, fmtU v2.clutchCombined.toNat,
        " diag=[".toList, fmtHex (v2.clutchDiag 0), " ".toList, fmtHex (v2.clutchDiag 1),
        "]".toList])
      .outside [entry "clutch".toList (v2.clutch 0).toNat,
        entry "combined".toList v2.clutchCombined.toNat] := by
  have label : Reads .outside "clutch: ".toList (.separated "clutch".toList) [] := ⟨rfl, rfl⟩
  have second : ∀ v, Reads (.number "clutch".toList v) " ".toList .outside
      [["clutch".toList, v]] := fun _ => ⟨rfl, rfl⟩
  have combined : ∀ v, Reads (.word v) " combined=".toList (.separated "combined".toList) [] :=
    fun _ => ⟨rfl, rfl⟩
  have diag : ∀ v, Reads (.number "combined".toList v) " diag=[".toList .outside
      [["combined".toList, v]] := fun _ => ⟨rfl, rfl⟩
  have close : ∀ v, Reads (.word v) (shellPrint ["]".toList]) .outside [] := fun _ => ⟨rfl, rfl⟩
  have bytes := (reads_hex (v2.clutchDiag 0)).part ((reads_blank _).part
    ((reads_hex (v2.clutchDiag 1)).part (close _)))
  have tail := (reads_value _ v2.clutchCombined.toNat).part ((diag _).part bytes)
  have values := (second (fmtU (v2.clutch 0).toNat)).part
    ((reads_number (v2.clutch 1).toNat).part ((combined _).part tail))
  exact label.part ((reads_value _ (v2.clutch 0).toNat).part values)

theorem reads_input (d : DeviceCounters) :
    ∃ enc, Labelled "enc".toList enc ∧
      Reads .outside (cmdRimInput d) .outside
        (enc ++ [entry "dir".toList d.v2.funkyDir.code,
          entry "push".toList (if d.v2.funkyPush then 1 else 0),
          entry "faults".toList d.v2.funkyFaults.toNat,
          entry "clutch".toList (d.v2.clutch 0).toNat,
          entry "combined".toList d.v2.clutchCombined.toNat]) := by
  obtain ⟨enc, labelled, line⟩ := reads_enc d.v2
  refine ⟨enc, labelled, ?_⟩
  have whole := (line.append (reads_funky d.v2)).append (reads_clutch d.v2)
  simpa only [cmdRimInput, List.append_assoc, List.cons_append, List.nil_append] using whole

theorem reads_health (d : DeviceCounters) :
    let h := (healthGet d.health d.link).2
    Reads .outside (cmdRimHealth d) .outside
      [entry "power_cycles".toList h.powerCycles.toNat, entry "mate".toList h.mateEvents.toNat,
        entry "txn".toList h.txnTotal.toNat, entry "err".toList h.errTotal.toNat,
        entry "wdt_resets".toList h.wdtResets.toNat,
        entry "thermal".toList h.thermalEvents.toNat] := by
  have label : Reads .outside "power_cycles=".toList (.separated "power_cycles".toList) [] :=
    ⟨rfl, rfl⟩
  have mate : ∀ v, Reads (.number "power_cycles".toList v) " mate=".toList
      (.separated "mate".toList) [["power_cycles".toList, v]] := fun _ => ⟨rfl, rfl⟩
  have txn : ∀ v, Reads (.number "mate".toList v) " txn=".toList (.separated "txn".toList)
      [["mate".toList, v]] := fun _ => ⟨rfl, rfl⟩
  have err : ∀ v, Reads (.number "txn".toList v) " err=".toList (.separated "err".toList)
      [["txn".toList, v]] := fun _ => ⟨rfl, rfl⟩
  have wdt : ∀ v, Reads (.number "err".toList v) " wdt_resets=".toList
      (.separated "wdt_resets".toList) [["err".toList, v]] := fun _ => ⟨rfl, rfl⟩
  have thermal : ∀ v, Reads (.number "wdt_resets".toList v) " thermal=".toList
      (.separated "thermal".toList) [["wdt_resets".toList, v]] := fun _ => ⟨rfl, rfl⟩
  exact label.part (reads_entry _ mate (reads_entry _ txn (reads_entry _ err
    (reads_entry _ wdt (reads_entry _ thermal (reads_last _ _))))))

/-! ### The text of a poll -/

/-- The text of one poll of the soak runner. -/
def consoleText (d : DeviceCounters) : Text := cmdRimStats d ++ cmdRimInput d ++ cmdRimHealth d

/-- The matches in the text; `rumble` and `enc` are those of the two lines whose numbers
the pattern cannot read in full. -/
def consoleStats (d : DeviceCounters) (rumble enc : List (List Text)) : List (List Text) :=
  let h := (healthGet d.health d.link).2
  [entry "txn".toList d.link.txnCount.toNat, entry "crc_err_rx".toList d.link.crcErrRx.toNat,
    entry "short_frame".toList d.link.shortFrame.toNat,
    entry "rearm_miss".toList d.link.rearmMiss.toNat,
    entry "overrun".toList d.link.overrun.toNat,
    entry "stale_clear".toList d.link.staleClear.toNat, entry "leds_last".toList 0] ++
  rumble ++ [entry "disp_changes".toList d.output.dispChanges.toNat] ++
  (enc ++ [entry "dir".toList d.v2.funkyDir.code,
    entry "push".toList (if d.v2.funkyPush then 1 else 0),
    entry "faults".toList d.v2.funkyFaults.toNat, entry "clutch".toList (d.v2.clutch 0).toNat,
    entry "combined".toList d.v2.clutchCombined.toNat]) ++
  [entry "power_cycles".toList h.powerCycles.toNat, entry "mate".toList h.mateEvents.toNat,
    entry "txn".toList h.txnTotal.toNat, entry "err".toList h.errTotal.toNat,
    entry "wdt_resets".toList h.wdtResets.toNat, entry "thermal".toList h.thermalEvents.toNat]

/-- **The search on the console text**, for every state of the counters. -/
theorem findAll_console (d : DeviceCounters) :
    ∃ rumble enc, Labelled "rumble_last".toList rumble ∧ Labelled "enc".toList enc ∧
      findAll statRe (consoleText d) = consoleStats d rumble enc := by
  obtain ⟨rumble, rumble_labelled, stats⟩ := reads_stats d
  obtain ⟨enc, enc_labelled, input⟩ := reads_input d
  obtain ⟨ended, found⟩ := (stats.append input).append (reads_health d)
  refine ⟨rumble, enc, rumble_labelled, enc_labelled, ?_⟩
  rw [findAll_scan, scan, consoleText, ended, found]
  exact List.append_nil _

end FanatecWheel.Host
