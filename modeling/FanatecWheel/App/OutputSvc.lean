import FanatecWheel.App.Printf
import FanatecWheel.App.Seg7
import FanatecWheel.Rimlink.Frame

/-!
# Output service

`app/src/output_svc.c`: the decoder of the display bytes with its writes into the
text buffer, the change counters, and the mirror on a TM1637 with its interval
filter. What the service hands to other modules is a list of calls.
-/

namespace FanatecWheel.App

open Rimlink

/-- `OUTPUT_MIN_REFRESH_MS`. -/
def outputMinRefreshMs : ℤ := 10

structure OutputStats where
  ledsLast : U16
  rumbleLast : Bytes 2
  ledsChanges : U32
  rumbleChanges : U32
  dispChanges : U32

/-! ### The text buffer -/

/-- `'\0'`. -/
def nul : Char := Char.ofNat 0

/-- `char text[16]`. -/
abbrev TextBuf := Fin 16 → Char

/-- The C string at the start of the buffer. -/
def cString (buf : TextBuf) : Text := (List.ofFn buf).takeWhile (· ≠ nul)

/-- The buffer while `decode_text` fills it. -/
structure TextCursor where
  pos : ℕ
  buf : TextBuf

/-- `text[pos++] = c`; there is no state after a write past the buffer. -/
def putChar (cur : TextCursor) (c : Char) : Option TextCursor :=
  if inside : cur.pos < 16 then
    some ⟨cur.pos + 1, Function.update cur.buf ⟨cur.pos, inside⟩ c⟩
  else none

/-- `pos += snprintf(&text[pos], size - pos, ..)`: as much as there is room for is written, with
a null character, and the cursor moves by the whole length. -/
def snprintfAt (cur : TextCursor) (t : Text) : Option TextCursor :=
  if cur.pos ≤ 16 then
    let written := if cur.pos < 16 then t.take (16 - cur.pos - 1) ++ [nul] else []
    some ⟨cur.pos + t.length, fun k =>
      if cur.pos ≤ k.val then (written[k.val - cur.pos]?).getD (cur.buf k) else cur.buf k⟩
  else none

/-- One display byte of `decode_text`: the glyph, or the pattern in hex, then the dot. -/
def decodeUnit (cur : TextCursor) (seg : U8) : Option TextCursor := do
  let cur ←
    match seg7ToAscii seg with
    | some c => putChar cur c
    | none => snprintfAt cur ("0x".toList ++ fmtHexUpper (seg &&& 0x7F))
  if seg &&& 0x80 ≠ 0 then putChar cur '.' else some cur

/-- `decode_text` on the buffer. -/
def decodeText (disp : Bytes 3) (buf : TextBuf) : Option TextBuf := do
  let cur ← decodeUnit ⟨0, buf⟩ (disp 0)
  let cur ← decodeUnit cur (disp 1)
  let cur ← decodeUnit cur (disp 2)
  let cur ← putChar cur nul
  some cur.buf

/-! ### What is written -/

/-- The glyph of a display byte, or its pattern in hex. -/
def glyphText (seg : U8) : Text :=
  match seg7ToAscii seg with
  | some c => [c]
  | none => "0x".toList ++ fmtHexUpper (seg &&& 0x7F)

def dotText (seg : U8) : Text := if seg &&& 0x80 ≠ 0 then ['.'] else []

/-- The text of one display byte, in full. -/
def segText (seg : U8) : Text := glyphText seg ++ dotText seg

/-- The text of the display, in full. -/
def displayText (disp : Bytes 3) : Text :=
  segText (disp 0) ++ segText (disp 1) ++ segText (disp 2)

/-- The buffer up to the cursor holds the text. -/
structure Filled (t : Text) (cur : TextCursor) : Prop where
  pos : cur.pos = t.length
  held : ∀ k : Fin 16, k.val < t.length → t[k.val]? = some (cur.buf k)

theorem length_glyphText (seg : U8) : (glyphText seg).length ≤ 4 := by
  unfold glyphText
  cases seg7ToAscii seg with
  | some c => exact (by decide : 1 ≤ 4)
  | none => exact (by decide : 4 ≤ 4)

theorem length_segText (seg : U8) : (segText seg).length ≤ 5 := by
  have glyph := length_glyphText seg
  have dot : (dotText seg).length ≤ 1 := by
    unfold dotText
    split <;> decide
  rw [segText, List.length_append]
  omega

theorem putChar_filled {t : Text} {cur : TextCursor} (filled : Filled t cur)
    (room : t.length < 16) (c : Char) :
    ∃ cur', putChar cur c = some cur' ∧ Filled (t ++ [c]) cur' := by
  have pos := filled.pos
  have inside : cur.pos < 16 := by omega
  refine ⟨⟨cur.pos + 1, Function.update cur.buf ⟨cur.pos, inside⟩ c⟩, dif_pos inside, ?_, ?_⟩
  · rw [List.length_append, ← pos]
    rfl
  · intro k before
    change _ = some (Function.update cur.buf ⟨cur.pos, inside⟩ c k)
    by_cases last : k = ⟨cur.pos, inside⟩
    · rw [last, Function.update_self, List.getElem?_append_right pos.ge, pos, Nat.sub_self]
      rfl
    · have earlier : k.val < t.length := by
        have other : k.val ≠ cur.pos := Fin.val_ne_of_ne last
        rw [List.length_append, List.length_singleton] at before
        omega
      rw [Function.update_of_ne last, List.getElem?_append_left earlier]
      exact filled.held k earlier

/-- With room for the null character as well nothing is cut. -/
theorem snprintfAt_filled {t : Text} {cur : TextCursor} (filled : Filled t cur) {u : Text}
    (room : t.length + u.length < 16) :
    ∃ cur', snprintfAt cur u = some cur' ∧ Filled (t ++ u) cur' := by
  have pos := filled.pos
  refine ⟨_, if_pos (by omega), ?_, ?_⟩
  · rw [List.length_append, pos]
  · intro k before
    have whole : u.take (16 - cur.pos - 1) = u := List.take_of_length_le (by omega)
    rw [List.length_append] at before
    simp only [if_pos (show cur.pos < 16 by omega), whole]
    rcases Nat.lt_or_ge k.val t.length with earlier | new
    · rw [if_neg (by omega), List.getElem?_append_left earlier]
      exact filled.held k earlier
    · have index : k.val - cur.pos < u.length := by omega
      rw [if_pos (by omega), List.getElem?_append_right new, List.getElem?_append_left index, ← pos,
        List.getElem?_eq_getElem index]
      rfl

theorem decodeUnit_filled {t : Text} {cur : TextCursor} (filled : Filled t cur)
    (room : t.length + 5 < 16) (seg : U8) :
    ∃ cur', decodeUnit cur seg = some cur' ∧ Filled (t ++ segText seg) cur' := by
  have dotted {cur' : TextCursor} (shown : Filled (t ++ glyphText seg) cur') :
      ∃ cur'', (if seg &&& 0x80 ≠ 0 then putChar cur' '.' else some cur') = some cur'' ∧
        Filled (t ++ segText seg) cur'' := by
    have glyph := length_glyphText seg
    rw [segText, ← List.append_assoc, dotText]
    split
    · exact putChar_filled shown (by rw [List.length_append]; omega) '.'
    · exact ⟨cur', rfl, by rwa [List.append_nil]⟩
  unfold decodeUnit
  unfold glyphText at dotted
  cases known : seg7ToAscii seg with
  | some c =>
    simp only [known] at dotted
    obtain ⟨cur', put, shown⟩ := putChar_filled filled (by omega) c
    simp only [put, Option.bind_eq_bind, Option.bind_some]
    exact dotted shown
  | none =>
    simp only [known] at dotted
    obtain ⟨cur', put, shown⟩ := @snprintfAt_filled t cur filled
      ("0x".toList ++ fmtHexUpper (seg &&& 0x7F)) (Nat.lt_of_succ_lt room)
    simp only [put, Option.bind_eq_bind, Option.bind_some]
    exact dotted shown

theorem seg7ToAscii_mem {seg : U8} {c : Char} (known : seg7ToAscii seg = some c) :
    (seg &&& 0x7F, c) ∈ seg7Map := by
  obtain ⟨⟨pattern, glyph⟩, found, rfl⟩ := Option.map_eq_some_iff.mp known
  have same : pattern = seg &&& 0x7F := by simpa using List.find?_some found
  rw [← same]
  exact List.mem_of_find?_eq_some found

/-- No glyph is a null character, and none looks like the marks of a hex pattern or a dot. -/
theorem seg7Map_chars : ∀ entry ∈ seg7Map, entry.2 ≠ nul ∧ entry.2 ≠ 'x' ∧ entry.2 ≠ '.' := by
  decide

private theorem hexDigit_ne_nul {n : ℕ} (digit : n < 16) : (Nat.digitChar n).toUpper ≠ nul := by
  have all : ∀ k < 16, (Nat.digitChar k).toUpper ≠ nul := by decide
  exact all n digit

private theorem fmtHexUpper_ne_nul (b : U8) : ∀ c ∈ fmtHexUpper b, c ≠ nul := by
  have high := hexDigit_ne_nul (Nat.div_lt_of_lt_mul b.isLt : b.toNat / 16 < 16)
  have low := hexDigit_ne_nul (Nat.mod_lt b.toNat (by decide : 0 < 16))
  simp [fmtHexUpper, fmtHex, high, low]

private theorem segText_ne_nul (seg : U8) : ∀ c ∈ segText seg, c ≠ nul := by
  unfold segText
  rw [List.forall_mem_append]
  constructor
  · unfold glyphText
    cases known : seg7ToAscii seg with
    | some c =>
      rw [List.forall_mem_singleton]
      exact (seg7Map_chars _ (seg7ToAscii_mem known)).1
    | none =>
      have marks : ∀ c ∈ ['0', 'x'], c ≠ nul := by
        rw [List.forall_mem_cons, List.forall_mem_singleton]
        exact ⟨by decide, by decide⟩
      rw [List.forall_mem_append]
      exact ⟨marks, fmtHexUpper_ne_nul _⟩
  · unfold dotText
    split
    · rw [List.forall_mem_singleton]
      decide
    · exact fun c none => absurd none List.not_mem_nil

theorem displayText_ne_nul (disp : Bytes 3) : ∀ c ∈ displayText disp, c ≠ nul := by
  unfold displayText
  rw [List.forall_mem_append, List.forall_mem_append]
  exact ⟨⟨segText_ne_nul _, segText_ne_nul _⟩, segText_ne_nul _⟩

/-- The widest display leaves one byte for the null character. -/
theorem length_displayText (disp : Bytes 3) : (displayText disp).length ≤ 15 := by
  have first := length_segText (disp 0)
  have second := length_segText (disp 1)
  have third := length_segText (disp 2)
  rw [displayText, List.length_append, List.length_append]
  omega

theorem cString_filled {t : Text} {cur : TextCursor} (filled : Filled (t ++ [nul]) cur)
    (room : t.length < 16) (chars : ∀ c ∈ t, c ≠ nul) : cString cur.buf = t := by
  have start : t ++ [nul] <+: List.ofFn cur.buf := by
    rw [List.prefix_iff_getElem?]
    intro k before
    have inside : k < 16 := by
      rw [List.length_append, List.length_singleton] at before
      omega
    rw [List.getElem?_ofFn, dif_pos inside, ← filled.held ⟨k, inside⟩ before]
    exact List.getElem?_eq_getElem before
  obtain ⟨rest, whole⟩ := start
  have kept : ∀ c ∈ t, decide (c ≠ nul) = true := fun c member => decide_eq_true (chars c member)
  rw [cString, ← whole, List.append_assoc, List.takeWhile_append_of_pos kept]
  exact List.append_nil t

/-- No write of `decode_text` leaves the buffer, no conversion is cut, and the C string that is
left is the text of the display. -/
theorem decodeText_spec (disp : Bytes 3) (buf : TextBuf) :
    ∃ buf', decodeText disp buf = some buf' ∧ cString buf' = displayText disp := by
  have first := length_segText (disp 0)
  have second := length_segText (disp 1)
  have whole := length_displayText disp
  have empty : Filled [] ⟨0, buf⟩ := ⟨rfl, fun _ before => absurd before (Nat.not_lt_zero _)⟩
  obtain ⟨cur0, unit0, filled0⟩ := decodeUnit_filled empty (by decide) (disp 0)
  obtain ⟨cur1, unit1, filled1⟩ := decodeUnit_filled filled0
    (by rw [List.nil_append]; omega) (disp 1)
  obtain ⟨cur2, unit2, filled2⟩ := decodeUnit_filled filled1
    (by rw [List.nil_append, List.length_append]; omega) (disp 2)
  obtain ⟨cur3, last, filled3⟩ := putChar_filled (t := displayText disp) filled2 (by omega) nul
  refine ⟨cur3.buf, ?_, cString_filled filled3 (by omega) (displayText_ne_nul disp)⟩
  simp only [decodeText, unit0, unit1, unit2, last, Option.bind_eq_bind, Option.bind_some]

/-- The buffer that `decode_text` leaves. -/
def decodedText (disp : Bytes 3) (buf : TextBuf) : TextBuf :=
  (decodeText disp buf).get <| by
    obtain ⟨buf', decoded, _⟩ := decodeText_spec disp buf
    rw [decoded]
    rfl

theorem cString_decodedText (disp : Bytes 3) (buf : TextBuf) :
    cString (decodedText disp buf) = displayText disp := by
  obtain ⟨buf', decoded, shown⟩ := decodeText_spec disp buf
  have same : decodedText disp buf = buf' := Option.get_of_eq_some _ decoded
  rw [same, shown]

/-! ### The service -/

/-- What the service asks of other modules. -/
inductive OutputCall
  | noteValidRx
  | ledSubmit (leds : U16) (disp : Bytes 3)
  | lraRumble (rumble : Bytes 2)
  | tm1637SetSegments (seg : Bytes 4)
deriving DecidableEq

/-- The static `osvc`. -/
structure OutputSvc where
  prevDisp : Bytes 3
  text : TextBuf
  stats : OutputStats
  lastRefresh : ℤ

/-- Zero-initialised statics. -/
def OutputSvc.boot : OutputSvc where
  prevDisp := fun _ => 0
  text := fun _ => nul
  stats := ⟨0, fun _ => 0, 0, 0, 0⟩
  lastRefresh := 0

/-- The counters at the head of `output_svc_rx`. -/
def countChanges (s : OutputStats) (out : BaseOutputs) : OutputStats where
  ledsLast := out.leds
  rumbleLast := out.rumble
  ledsChanges := if out.leds ≠ s.ledsLast then s.ledsChanges + 1 else s.ledsChanges
  rumbleChanges := if out.rumble ≠ s.rumbleLast then s.rumbleChanges + 1 else s.rumbleChanges
  dispChanges := s.dispChanges

/-- The fourth digit is blank. -/
def mirrorSegments (disp : Bytes 3) : Bytes 4 := ![disp 0, disp 1, disp 2, 0]

/-- `output_svc_rx` at uptime `now`, with its calls; `mirror` stands for `CONFIG_RIM_TM1637`. -/
def outputSvcRx (mirror : Bool) (s : OutputSvc) (now : ℤ) (out : BaseOutputs) :
    OutputSvc × List OutputCall :=
  let dispChanged : Bool := out.disp ≠ s.prevDisp
  let s := { s with stats := countChanges s.stats out }
  let s :=
    if dispChanged then
      { s with
        prevDisp := out.disp
        stats.dispChanges := s.stats.dispChanges + 1
        text := decodedText out.disp s.text }
    else s
  let calls := [.noteValidRx, .ledSubmit out.leds out.disp, .lraRumble out.rumble]
  if !dispChanged then (s, calls)
  else if mirror && outputMinRefreshMs ≤ now - s.lastRefresh then
    ({ s with lastRefresh := now },
      calls ++ [.tm1637SetSegments (mirrorSegments out.disp)])
  else (s, calls)

/-- `strcpy(osvc.text, "   ")`. -/
def blankText (buf : TextBuf) : TextBuf :=
  fun k => if k.val < 3 then ' ' else if k.val = 3 then nul else buf k

/-- `output_svc_init` with the result of `tm1637_init`: its own result and its calls. -/
def outputSvcInit (mirror : Bool) (ready : ℤ) (s : OutputSvc) : OutputSvc × ℤ × List OutputCall :=
  let s := { s with text := blankText s.text }
  if mirror then
    if ready < 0 then (s, ready, [])
    -- the boot banner
    else (s, 0, [.tm1637SetSegments ![0x50, 0x77, 0x58, 0x79]])
  else (s, 0, [])

end FanatecWheel.App
