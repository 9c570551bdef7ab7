import FanatecWheel.App.OutputSvc
import FanatecWheel.Foundation.Counter
import FanatecWheel.Foundation.Trace

/-!
# The text of the display

The units of a text (a glyph, a pattern in hex, each with or without a dot) are put in a row
without separators and can still be told apart: only a hex pattern puts an `x` behind its
first character, and only a dot is a dot. The change filter loses neither the last text nor a
count.
-/

namespace FanatecWheel.App

open Foundation Rimlink

/-! ### A text can be read back -/

/-- A text cannot go on a unit that ends before it. -/
def UnitStart (r : Text) : Prop := ∀ c, r.head? = some c → c ≠ 'x' ∧ c ≠ '.'

theorem unitStart_nil : UnitStart [] := fun c first => absurd first (by simp)

theorem unitStart_segText (seg : U8) (r : Text) : UnitStart (segText seg ++ r) := by
  intro c first
  unfold segText glyphText at first
  cases known : seg7ToAscii seg with
  | some glyph =>
    rw [known] at first
    have same : glyph = c := Option.some.inj first
    rw [← same]
    exact (seg7Map_chars _ (seg7ToAscii_mem known)).2
  | none =>
    rw [known] at first
    have same : '0' = c := Option.some.inj first
    rw [← same]
    decide

private theorem hexDigit_injective {i j : ℕ} (first : i < 16) (second : j < 16)
    (same : (Nat.digitChar i).toUpper = (Nat.digitChar j).toUpper) : i = j := by
  have all : ∀ i < 16, ∀ j < 16,
      (Nat.digitChar i).toUpper = (Nat.digitChar j).toUpper → i = j := by
    decide
  exact all i first j second same

theorem fmtHexUpper_injective : Function.Injective fmtHexUpper := by
  intro b b' same
  simp only [fmtHexUpper, fmtHex, List.map_cons, List.map_nil, List.cons.injEq, and_true] at same
  have bound := b.isLt
  have bound' := b'.isLt
  have high := hexDigit_injective (by omega) (by omega) same.1
  have low := hexDigit_injective (by omega) (by omega) same.2
  apply BitVec.eq_of_toNat_eq
  omega

/-- Different patterns have different glyphs. -/
private theorem seg7Map_injective :
    ∀ entry ∈ seg7Map, ∀ entry' ∈ seg7Map, entry.2 = entry'.2 → entry.1 = entry'.1 := by
  decide

/-- The glyph or hex pattern at the head of a text is known from the text. -/
private theorem glyphText_cancel {seg seg' : U8} {r r' : Text} (start : r.head? ≠ some 'x')
    (start' : r'.head? ≠ some 'x') (same : glyphText seg ++ r = glyphText seg' ++ r') :
    seg &&& 0x7F = seg' &&& 0x7F ∧ r = r' := by
  unfold glyphText at same
  cases known : seg7ToAscii seg with
  | some c =>
    cases known' : seg7ToAscii seg' with
    | some c' =>
      rw [known, known'] at same
      obtain ⟨glyph, rest⟩ := List.cons.inj same
      exact ⟨seg7Map_injective _ (seg7ToAscii_mem known) _ (seg7ToAscii_mem known') glyph, rest⟩
    | none =>
      rw [known, known'] at same
      -- a glyph against a hex pattern: the `x` would be the head of the rest
      obtain ⟨-, rest⟩ := List.cons.inj same
      exact absurd (congrArg List.head? rest) start
  | none =>
    cases known' : seg7ToAscii seg' with
    | some c' =>
      rw [known, known'] at same
      obtain ⟨-, rest⟩ := List.cons.inj same
      exact absurd (congrArg List.head? rest).symm start'
    | none =>
      rw [known, known'] at same
      obtain ⟨hex, rest⟩ := List.append_inj same rfl
      exact ⟨fmtHexUpper_injective (List.append_cancel_left hex), rest⟩

/-- So is the dot. -/
private theorem dotText_cancel {seg seg' : U8} {r r' : Text} (start : r.head? ≠ some '.')
    (start' : r'.head? ≠ some '.') (same : dotText seg ++ r = dotText seg' ++ r') :
    (seg &&& 0x80 ≠ 0 ↔ seg' &&& 0x80 ≠ 0) ∧ r = r' := by
  unfold dotText at same
  split at same
  next dot =>
    split at same
    next dot' => exact ⟨iff_of_true dot dot', (List.cons.inj same).2⟩
    next => exact absurd (congrArg List.head? same).symm start'
  next plain =>
    split at same
    next => exact absurd (congrArg List.head? same) start
    next plain' => exact ⟨iff_of_false plain plain', same⟩

private theorem dot_cases : ∀ b : U8, b &&& 0x80 = 0 ∨ b &&& 0x80 = 0x80 := by decide

/-- A display byte is its pattern and its dot. -/
private theorem seg_eq {seg seg' : U8} (pattern : seg &&& 0x7F = seg' &&& 0x7F)
    (dot : seg &&& 0x80 ≠ 0 ↔ seg' &&& 0x80 ≠ 0) : seg = seg' := by
  have whole (b : U8) : b = b &&& 0x7F ||| b &&& 0x80 := by
    rw [← BitVec.and_or_distrib_left]
    exact BitVec.and_allOnes.symm
  have top : seg &&& 0x80 = seg' &&& 0x80 := by
    rcases dot_cases seg with plain | dotted <;> rcases dot_cases seg' with plain' | dotted'
    · rw [plain, plain']
    · exact absurd plain (dot.mpr (by rw [dotted']; decide))
    · exact absurd plain' (dot.mp (by rw [dotted]; decide))
    · rw [dotted, dotted']
  rw [whole seg, whole seg', pattern, top]

theorem segText_cancel {seg seg' : U8} {r r' : Text} (start : UnitStart r) (other : UnitStart r')
    (same : segText seg ++ r = segText seg' ++ r') : seg = seg' ∧ r = r' := by
  have dotStart (b : U8) {t : Text} (next : UnitStart t) : (dotText b ++ t).head? ≠ some 'x' := by
    intro first
    unfold dotText at first
    split at first
    · exact absurd (Option.some.inj first) (show ('.' : Char) ≠ 'x' by decide)
    · exact (next 'x' first).1 rfl
  rw [segText, segText, List.append_assoc, List.append_assoc] at same
  obtain ⟨pattern, rest⟩ := glyphText_cancel (dotStart seg start) (dotStart seg' other) same
  obtain ⟨dot, rest⟩ := dotText_cancel (fun first => (start '.' first).2 rfl)
    (fun first => (other '.' first).2 rfl) rest
  exact ⟨seg_eq pattern dot, rest⟩

/-- Two displays never give the same text. -/
theorem displayText_injective : Function.Injective displayText := by
  intro disp disp' same
  have last (b : U8) : segText b = segText b ++ [] := (List.append_nil _).symm
  rw [displayText, displayText, List.append_assoc, List.append_assoc] at same
  obtain ⟨first, same⟩ := segText_cancel
    (unitStart_segText _ _) (unitStart_segText _ _) same
  rw [last (disp 2), last (disp' 2)] at same
  obtain ⟨second, same⟩ := segText_cancel
    (unitStart_segText _ _) (unitStart_segText _ _) same
  obtain ⟨third, -⟩ := segText_cancel unitStart_nil unitStart_nil same
  funext k
  fin_cases k
  · exact first
  · exact second
  · exact third

/-! ### Runs -/

/-- One frame at its uptime. -/
def outputStep (mirror : Bool) (s : OutputSvc) (frame : ℤ × BaseOutputs) :
    OutputSvc × List OutputCall := outputSvcRx mirror s frame.1 frame.2

def displays (frames : List (ℤ × BaseOutputs)) : List (Bytes 3) := frames.map fun f => f.2.disp

def ledWords (frames : List (ℤ × BaseOutputs)) : List U16 := frames.map fun f => f.2.leds

def rumbles (frames : List (ℤ × BaseOutputs)) : List (Bytes 2) := frames.map fun f => f.2.rumble

def noDisplay : Bytes 3 := fun _ => 0

def noRumble : Bytes 2 := fun _ => 0

/-- What the service holds after some frames, but for the text. -/
structure OutputHistory (frames : List (ℤ × BaseOutputs)) (s : OutputSvc) : Prop where
  prevDisp : s.prevDisp = (displays frames).getLastD noDisplay
  ledsLast : s.stats.ledsLast = (ledWords frames).getLastD 0
  rumbleLast : s.stats.rumbleLast = (rumbles frames).getLastD noRumble
  dispChanges : s.stats.dispChanges = BitVec.ofNat 32 (changes noDisplay (displays frames))
  ledsChanges : s.stats.ledsChanges = BitVec.ofNat 32 (changes 0 (ledWords frames))
  rumbleChanges : s.stats.rumbleChanges = BitVec.ofNat 32 (changes noRumble (rumbles frames))

/-- The state after a frame; the mirror touches the time of the last refresh only. -/
theorem outputSvcRx_state (mirror : Bool) (s : OutputSvc) (now : ℤ) (out : BaseOutputs) :
    let s' := (outputSvcRx mirror s now out).1
    s'.prevDisp = out.disp ∧
      s'.text = (if out.disp ≠ s.prevDisp then decodedText out.disp s.text else s.text) ∧
      s'.stats = { countChanges s.stats out with
        dispChanges := if out.disp ≠ s.prevDisp then s.stats.dispChanges + 1
          else s.stats.dispChanges } := by
  -- the early return is before the text and the mirror, behind the counters
  unfold outputSvcRx
  by_cases same : out.disp = s.prevDisp
  · simp [same, countChanges]
  · simp only [same, ne_eq, not_false_eq_true, decide_true, if_true, Bool.not_true,
      Bool.false_eq_true, if_false]
    split <;> exact ⟨rfl, rfl, rfl⟩

/-- A counter of changes goes on as the number of changes does. -/
private theorem counted_snoc {α : Type*} [DecidableEq α] {first x last : α} {xs : List α}
    {count : U32} (counted : count = BitVec.ofNat 32 (changes first xs))
    (latest : last = xs.getLastD first) :
    (if x ≠ last then count + 1 else count) = BitVec.ofNat 32 (changes first (xs ++ [x])) := by
  rw [changes_snoc, ← latest, counted]
  split
  next => exact (count_succ _).symm
  next => rfl

private theorem outputHistory_step {frames : List (ℤ × BaseOutputs)} {s : OutputSvc}
    (history : OutputHistory frames s) (mirror : Bool) (frame : ℤ × BaseOutputs) :
    OutputHistory (frames ++ [frame]) (outputStep mirror s frame).1 := by
  obtain ⟨prevDisp, -, stats⟩ := outputSvcRx_state mirror s frame.1 frame.2
  change (outputStep mirror s frame).1.prevDisp = _ at prevDisp
  change (outputStep mirror s frame).1.stats = _ at stats
  have disps : displays (frames ++ [frame]) = displays frames ++ [frame.2.disp] := List.map_append
  have leds : ledWords (frames ++ [frame]) = ledWords frames ++ [frame.2.leds] := List.map_append
  have rumble : rumbles (frames ++ [frame]) = rumbles frames ++ [frame.2.rumble] :=
    List.map_append
  constructor
  · rw [prevDisp, disps, List.getLastD_concat]
  · rw [stats, leds, List.getLastD_concat]
    rfl
  · rw [stats, rumble, List.getLastD_concat]
    rfl
  · rw [stats, disps]
    exact counted_snoc history.dispChanges history.prevDisp
  · rw [stats, leds]
    exact counted_snoc history.ledsChanges history.ledsLast
  · rw [stats, rumble]
    exact counted_snoc history.rumbleChanges history.rumbleLast

theorem outputHistory_frames {before : List (ℤ × BaseOutputs)} {s : OutputSvc}
    (history : OutputHistory before s) (mirror : Bool) (frames : List (ℤ × BaseOutputs)) :
    OutputHistory (before ++ frames) (final (outputStep mirror) s frames) := by
  induction frames using List.reverseRecOn with
  | nil =>
    rw [List.append_nil]
    exact history
  | append_singleton frames frame ih =>
    rw [final_snoc, ← List.append_assoc]
    exact outputHistory_step ih mirror frame

theorem outputHistory_boot : OutputHistory [] .boot := ⟨rfl, rfl, rfl, rfl, rfl, rfl⟩

/-- The initialisation blanks the text and touches nothing else. -/
theorem outputSvcInit_eq (mirror : Bool) (ready : ℤ) (s : OutputSvc) :
    (outputSvcInit mirror ready s).1 = { s with text := blankText s.text } := by
  unfold outputSvcInit
  by_cases failed : ready < 0 <;> cases mirror <;> simp [failed]

theorem outputHistory_init {frames : List (ℤ × BaseOutputs)} {s : OutputSvc}
    (history : OutputHistory frames s) (mirror : Bool) (ready : ℤ) :
    OutputHistory frames (outputSvcInit mirror ready s).1 := by
  rw [outputSvcInit_eq]
  exact ⟨history.prevDisp, history.ledsLast, history.rumbleLast, history.dispChanges,
    history.ledsChanges, history.rumbleChanges⟩

theorem cString_blankText (buf : TextBuf) : cString (blankText buf) = [' ', ' ', ' '] := by
  have filled : Filled ([' ', ' ', ' '] ++ [nul]) ⟨4, blankText buf⟩ := by
    refine ⟨rfl, fun ⟨k, bound⟩ before => ?_⟩
    have inside : k < 4 := before
    rcases (by omega : k = 0 ∨ k = 1 ∨ k = 2 ∨ k = 3) with rfl | rfl | rfl | rfl <;> rfl
  have chars : ∀ c ∈ [' ', ' ', ' '], c ≠ nul := by
    rw [List.forall_mem_cons, List.forall_mem_cons, List.forall_mem_singleton]
    exact ⟨by decide, by decide, by decide⟩
  exact cString_filled filled (by decide) chars

/-! ### The text -/

section TextRuns

variable (mirror : Bool) {s : OutputSvc} {frames : List (ℤ × BaseOutputs)}

/-- Frames that repeat the last display leave the text. -/
theorem text_kept (same : ∀ frame ∈ frames, frame.2.disp = s.prevDisp) :
    (final (outputStep mirror) s frames).prevDisp = s.prevDisp ∧
      (final (outputStep mirror) s frames).text = s.text := by
  induction frames using List.reverseRecOn with
  | nil => exact ⟨rfl, rfl⟩
  | append_singleton frames frame ih =>
    obtain ⟨earlier, last⟩ := List.forall_mem_append.mp same
    have repeats := last frame List.mem_cons_self
    obtain ⟨prevDisp, text⟩ := ih earlier
    obtain ⟨prevDisp', text', -⟩ := outputSvcRx_state mirror
      (final (outputStep mirror) s frames) frame.1 frame.2
    rw [final_snoc]
    refine ⟨prevDisp'.trans repeats, text'.trans ?_⟩
    rw [prevDisp, if_neg (not_not.mpr repeats), text]

/-- The text is that of the last display, once it was or the display has changed. -/
theorem text_shown (shown : cString s.text = displayText s.prevDisp ∨
      ∃ frame ∈ frames, frame.2.disp ≠ s.prevDisp) :
    cString (final (outputStep mirror) s frames).text =
      displayText (final (outputStep mirror) s frames).prevDisp := by
  induction frames using List.reverseRecOn with
  | nil => exact shown.resolve_right fun ⟨_, member, _⟩ => nomatch member
  | append_singleton frames frame ih =>
    obtain ⟨prevDisp, text, -⟩ := outputSvcRx_state mirror
      (final (outputStep mirror) s frames) frame.1 frame.2
    rw [final_snoc]
    refine (congrArg cString text).trans (Eq.trans ?_ (congrArg displayText prevDisp.symm))
    split
    next => exact cString_decodedText _ _
    next same =>
      rw [not_not.mp same]
      refine ih (shown.imp_right fun ⟨f, member, other⟩ => ?_)
      -- if only the last frame differed, it would have changed the display
      by_contra none
      push Not at none
      rcases List.mem_append.mp member with earlier | last
      · exact other (none f earlier)
      · rw [List.mem_singleton.mp last, not_not.mp same, (text_kept mirror none).1] at other
        exact other rfl

end TextRuns

/-- The service after its initialisation. -/
def outputStart (mirror : Bool) (ready : ℤ) : OutputSvc := (outputSvcInit mirror ready .boot).1

theorem output_history (mirror : Bool) (ready : ℤ) (frames : List (ℤ × BaseOutputs)) :
    OutputHistory frames (final (outputStep mirror) (outputStart mirror ready) frames) :=
  outputHistory_frames (outputHistory_init outputHistory_boot mirror ready) mirror frames

/-- The blanks of the initialisation are the text of the dark display. -/
theorem output_text (mirror : Bool) (ready : ℤ) (frames : List (ℤ × BaseOutputs)) :
    cString (final (outputStep mirror) (outputStart mirror ready) frames).text =
      displayText ((displays frames).getLastD noDisplay) := by
  rw [← (output_history mirror ready frames).prevDisp]
  refine text_shown mirror (.inl ?_)
  rw [outputStart, outputSvcInit_eq, cString_blankText]
  decide

/-- After every run of frames the text is that of the last display, each counter is the number
of changes modulo its width, and no display overruns the buffer, is cut short or shares its
text with another. -/
theorem display_text (mirror : Bool) (ready : ℤ) (frames : List (ℤ × BaseOutputs)) :
    let s := final (outputStep mirror) (outputStart mirror ready) frames
    (∀ buf, cString s.text = cString (decodedText ((displays frames).getLastD noDisplay) buf)) ∧
    s.stats.dispChanges = BitVec.ofNat 32 (changes noDisplay (displays frames)) ∧
    s.stats.ledsChanges = BitVec.ofNat 32 (changes 0 (ledWords frames)) ∧
    s.stats.rumbleChanges = BitVec.ofNat 32 (changes noRumble (rumbles frames)) ∧
    (∀ disp buf, decodeText disp buf = some (decodedText disp buf) ∧
      cString (decodedText disp buf) = displayText disp ∧ (displayText disp).length + 1 ≤ 16) ∧
    ∀ disp disp' buf buf', cString (decodedText disp buf) = cString (decodedText disp' buf') →
      disp = disp' := by
  intro s
  have history : OutputHistory frames s := output_history mirror ready frames
  refine ⟨fun buf => ?_, history.dispChanges, history.ledsChanges, history.rumbleChanges,
    fun disp buf => ?_, fun disp disp' buf buf' same => ?_⟩
  · rw [cString_decodedText]
    exact output_text mirror ready frames
  · refine ⟨(Option.some_get _).symm, cString_decodedText disp buf, ?_⟩
    exact Nat.succ_le_succ (length_displayText disp)
  · rw [cString_decodedText, cString_decodedText] at same
    exact displayText_injective same

/-! ### The counters wrap -/

/-- The first LED is lit in one frame and dark in the next. -/
def ledBlink : List (ℤ × BaseOutputs) :=
  [(0, ⟨noDisplay, 1, noRumble⟩), (0, ⟨noDisplay, 0, noRumble⟩)]

private theorem changes_blinks (n : ℕ) :
    changes 0 (ledWords (List.replicate n ledBlink).flatten) = 2 * n := by
  induction n with
  | zero => rfl
  | succ n ih =>
    have blink : changes 0 (ledWords ledBlink) = 2 := by decide
    have dark : (ledWords ledBlink).getLastD 0 = 0 := by decide
    rw [List.replicate_succ, List.flatten_cons, ledWords, List.map_append, ← ledWords, ← ledWords,
      changes_append, dark, ih, blink, Nat.mul_succ, Nat.add_comm]

/-- After 2^32 changes of the LEDs the count is back at zero. -/
theorem ledsChanges_wraps :
    let frames := (List.replicate (2 ^ 31) ledBlink).flatten
    (final (outputStep false) (outputStart false 0) frames).stats.ledsChanges.toNat = 0 ∧
      changes 0 (ledWords frames) = 2 ^ 32 := by
  intro frames
  have blinks : changes 0 (ledWords frames) = 2 ^ 32 := by
    rw [changes_blinks, ← Nat.pow_succ']
  refine ⟨?_, blinks⟩
  rw [(output_history false 0 frames).ledsChanges, blinks, BitVec.toNat_ofNat, Nat.mod_self]

end FanatecWheel.App
