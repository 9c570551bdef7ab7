import FanatecWheel.Host.ConsoleText
import FanatecWheel.Host.RingDiff

/-!
# The loop of the soak runner

`run_live` and `--replay` of `scripts/soak/soak_runner.py`. The clock and the ports are
parameters: what is read is the echo of the line, what the handler printed, and whatever the
shell puts out before it is read, log lines and the next prompt among them. A character stands
for one byte of ASCII, and `\w`, `\s` and `\d` are read so; the device sends no other.
-/

namespace FanatecWheel.Host

open Foundation App

/-- The statements of `run_live` that talk to a port or look at the clock. -/
inductive SoakPc
  | session | capStart | simStart | loop | stats | input | health | capStatus | passed | failed
deriving DecidableEq

/-- The line behind `rim` that a statement sends to the device. -/
def SoakPc.line : SoakPc → Option (List String)
  | .session => some ["session"]
  | .capStart => some ["cap", "start"]
  | .stats => some ["stats"]
  | .input => some ["input"]
  | .health => some ["health"]
  | .capStatus => some ["cap", "status"]
  | .simStart | .loop | .passed | .failed => none

/-- What `run_live` returns. -/
def SoakPc.exit : SoakPc → Option ℕ
  | .passed => some 0
  | .failed => some 1
  | _ => none

/-- The locals of `run_live`: what the poll has read so far, and the failures of the last one.
`log` is a record of the console: all that the polls have read. -/
structure Soak where
  pc : SoakPc
  text : Text
  failures : List Text
  log : Text

def Soak.start : Soak := ⟨.session, [], [], []⟩

/-- What `port.read` returns after a line. -/
def portText (echo out rest : Text) : Text := echo ++ "\r\n".toList ++ serial out ++ rest

/-- A statement that sent a line goes on with what it read. -/
def Soak.read (s : Soak) (read : Text) : Soak :=
  match s.pc with
  | .session => { s with pc := .capStart }
  | .capStart => { s with pc := .simStart }
  | .stats => { s with pc := .input, text := read, log := s.log ++ read }
  | .input => { s with pc := .health, text := s.text ++ read, log := s.log ++ read }
  | .health =>
    let failures := evaluate (parseStats (s.text ++ read))
    { pc := if failures = [] then .loop else .capStatus
      text := s.text ++ read
      failures := failures
      log := s.log ++ read }
  | .capStatus => { s with pc := .failed }
  | .simStart | .loop | .passed | .failed => s

/-- The test of the loop: whether `t_end` has passed. -/
def Soak.look (s : Soak) (expired : Bool) : Soak :=
  { s with pc := if expired then .passed else .stats }

/-- What `--replay` returns for a recorded console. -/
def replay (file : Text) : ℕ :=
  if evaluate (parseStats (universalNewlines file)) = [] then 0 else 1

/-! ### What stands around a reply -/

/-- No label is being read. -/
def ScanState.Loose : ScanState → Prop
  | .outside | .word _ => True
  | _ => False

instance : DecidablePred ScanState.Loose
  | .outside | .word _ => isTrue trivial
  | .separated _ | .number _ _ => isFalse id

/-- The keys that have a threshold. -/
def thresholdKeys : List Text := thresholds.map Prod.fst

/-- A prompt or a log line, in ASCII: it may hold numbers, but none under a label that has a
threshold. -/
structure Noise (text : Text) : Prop where
  ended : (final scanStep .outside text).Loose
  other : ∀ m ∈ (trace scanStep .outside text).flatten, ∀ key ∈ m.head?, key ∉ thresholdKeys

instance (text : Text) : Decidable (Noise text) :=
  decidable_of_iff ((final scanStep .outside text).Loose ∧
      ∀ m ∈ (trace scanStep .outside text).flatten, ∀ key ∈ m.head?, key ∉ thresholdKeys)
    ⟨fun ⟨ended, other⟩ => ⟨ended, other⟩, fun ⟨ended, other⟩ => ⟨ended, other⟩⟩

/-- The first word of a text is no label, not even with something before it. -/
def freeStart (text : Text) : Bool := ((text.dropWhile wordChar).head?.all fun c => !sepChar c)

/-- An echo, in ASCII; it stands behind a prompt, which may end in a word. -/
structure Echo (text : Text) : Prop where
  free : freeStart text = true
  noise : Noise text

instance (text : Text) : Decidable (Echo text) :=
  decidable_of_iff (freeStart text = true ∧ Noise text)
    ⟨fun ⟨free, noise⟩ => ⟨free, noise⟩, fun ⟨free, noise⟩ => ⟨free, noise⟩⟩

/-- The echo of a line, the prompt of the shell with its colours, and a line of the log. -/
example : Echo "rim stats".toList ∧ Noise "\x1b[1;32muart:~$ \x1b[m".toList ∧
    Noise "[00:00:12.345,000] <inf> power_mgr: out rail ON\r\n".toList := by
  decide +kernel

theorem freeStart_cons {c : Char} {rest : Text} (free : freeStart (c :: rest) = true) :
    if wordChar c then freeStart rest = true else sepChar c = false := by
  unfold freeStart at free
  split
  next word =>
    rw [List.dropWhile_cons_of_pos word] at free
    exact free
  next other =>
    rw [List.dropWhile_cons_of_neg other] at free
    simpa using free

/-- Where no label is being read it does not matter what was read. -/
theorem noise_from {text : Text} (free : freeStart text = true) {s t : ScanState}
    (first : s.Loose) (second : t.Loose) :
    (trace scanStep s text).flatten = (trace scanStep t text).flatten ∧
      ((final scanStep s text).Loose ↔ (final scanStep t text).Loose) := by
  -- up to the first blank both are in a word, from there on in the same state
  induction text generalizing s t with
  | nil => exact ⟨rfl, iff_of_true first second⟩
  | cons c rest ih =>
    have next := freeStart_cons free
    have stepped (u : ScanState) (loose : u.Loose) :
        if wordChar c then ∃ w, scanStep u c = (.word w, [])
        else scanStep u c = (.outside, []) := by
      split at next
      next word =>
        rw [if_pos word]
        cases u with
        | outside => exact ⟨[c], by simp only [scanStep, enter, if_pos word]⟩
        | word w => exact ⟨w ++ [c], by simp only [scanStep, if_pos word]⟩
        | separated _ | number _ _ => exact loose.elim
      next other =>
        rw [if_neg other]
        cases u with
        | outside => simp only [scanStep, enter, if_neg other]
        | word w => simp only [scanStep, if_neg other, next, Bool.false_eq_true, if_false]
        | separated _ | number _ _ => exact loose.elim
    have here := stepped s first
    have there := stepped t second
    simp only [trace, List.flatten_cons]
    split at next
    next word =>
      rw [if_pos word] at here there
      obtain ⟨v, here⟩ := here
      obtain ⟨w, there⟩ := there
      obtain ⟨same, ended⟩ := ih next (s := .word v) (t := .word w) trivial trivial
      simp only [here, there, List.nil_append, same, final, List.foldl_cons] at ended ⊢
      exact ⟨trivial, ended⟩
    next other =>
      rw [if_neg other] at here there
      simp only [here, there, final, List.foldl_cons, and_self]

/-! ### Line ends -/

/-- A carriage return counts as a line end, and a second line end changes nothing. -/
theorem scanStep_newline (s : ScanState) :
    scanStep s '\r' = scanStep s '\n' ∧
      scanStep (scanStep s '\n').1 '\n' = ((scanStep s '\n').1, []) := by
  cases s <;> exact ⟨rfl, rfl⟩

theorem reads_self (s : ScanState) (text : Text) :
    Reads s text (final scanStep s text) (trace scanStep s text).flatten := ⟨rfl, rfl⟩

private theorem reads_newline {s t : ScanState} {rest : Text} {out : List (List Text)}
    (read : Reads s ('\n' :: rest) t out) : Reads s ('\r' :: '\n' :: rest) t out := by
  obtain ⟨same, idle⟩ := scanStep_newline s
  simpa only [Reads, final, trace, List.foldl_cons, List.flatten_cons, same, idle,
    List.nil_append] using read

theorem Reads.cons {s t : ScanState} {c : Char} {rest : Text} {out : List (List Text)}
    (read : Reads (scanStep s c).1 rest t out) :
    Reads s (c :: rest) t ((scanStep s c).2 ++ out) := by
  simpa only [Reads, final, trace, List.foldl_cons, List.flatten_cons, List.append_right_inj]
    using read

/-- The line ends of the serial backend make no difference. -/
theorem reads_serial (s : ScanState) (text : Text) :
    Reads s (serial text) (final scanStep s text) (trace scanStep s text).flatten := by
  induction text generalizing s with
  | nil => exact ⟨rfl, rfl⟩
  | cons c rest ih =>
    have tail := (ih (scanStep s c).1).cons
    rw [serial, List.flatMap_cons]
    split
    next newline =>
      subst newline
      exact reads_newline tail
    next other => exact tail

/-- Nor do those that `open` puts in. -/
theorem reads_universalNewlines (s : ScanState) (text : Text) :
    Reads s (universalNewlines text) (final scanStep s text) (trace scanStep s text).flatten := by
  fun_induction universalNewlines text generalizing s with
  | case1 rest ih =>
    obtain ⟨same, idle⟩ := scanStep_newline s
    have tail := (ih (scanStep s '\n').1).cons
    simpa only [final, trace, List.foldl_cons, List.flatten_cons, same, idle, List.nil_append]
      using tail
  | case2 rest _ ih =>
    obtain ⟨same, -⟩ := scanStep_newline s
    have tail := (ih (scanStep s '\n').1).cons
    simpa only [final, trace, List.foldl_cons, List.flatten_cons, same] using tail
  | case3 c rest _ _ ih => exact (ih (scanStep s c).1).cons
  | case4 => exact ⟨rfl, rfl⟩

end FanatecWheel.Host
