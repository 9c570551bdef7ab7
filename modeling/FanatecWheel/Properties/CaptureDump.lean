import FanatecWheel.App.DiagSvc
import FanatecWheel.Host.RingDiff
import FanatecWheel.Host.StatScan
import FanatecWheel.Properties.CaptureRing

/-!
# The capture dump and its loader

The loader finds in the dump what the dump printed: for every entry of the ring one line, with
no blank in it and no comma but those between the seven fields.
-/

namespace FanatecWheel.Host

open Foundation Rimlink App

/-! ### Characters -/

/-- A text without blanks and line ends. -/
def Solid (text : Text) : Prop := ∀ c ∈ text, spaceChar c = false

theorem solid_of_all {text : Text} (all : text.all (fun c => !spaceChar c) = true) :
    Solid text := by
  intro c member
  simpa using List.all_eq_true.mp all c member

theorem Solid.append {first second : Text} (left : Solid first) (right : Solid second) :
    Solid (first ++ second) :=
  List.forall_mem_append.mpr ⟨left, right⟩

theorem Solid.cons {c : Char} {text : Text} (first : spaceChar c = false) (later : Solid text) :
    Solid (c :: text) :=
  List.forall_mem_cons.mpr ⟨first, later⟩

theorem Solid.no_newline {text : Text} (solid : Solid text) : '\n' ∉ text := by
  intro member
  have white := solid '\n' member
  cases white

theorem Solid.no_return {text : Text} (solid : Solid text) : '\r' ∉ text := by
  intro member
  have white := solid '\r' member
  cases white

theorem solid_fmtU (n : ℕ) : Solid (fmtU n) :=
  fun c member => digit_apart (fmtU_digits n c member)

theorem comma_not_mem_fmtU (n : ℕ) : ',' ∉ fmtU n := by
  intro member
  have digit := fmtU_digits n ',' member
  cases digit

private theorem hexDigit_upper {n : ℕ} (digit : n < 16) :
    spaceChar (Nat.digitChar n).toUpper = false ∧
      (Nat.digitChar n).toUpper.toLower = Nat.digitChar n := by
  have all : ∀ k < 16, spaceChar (Nat.digitChar k).toUpper = false ∧
      (Nat.digitChar k).toUpper.toLower = Nat.digitChar k := by
    decide
  exact all n digit

theorem solid_fmtHexUpper (b : U8) : Solid (fmtHexUpper b) := by
  have high := (hexDigit_upper (Nat.div_lt_of_lt_mul b.isLt : b.toNat / 16 < 16)).1
  have low := (hexDigit_upper (Nat.mod_lt b.toNat (by decide : 0 < 16))).1
  exact (Solid.cons high (Solid.cons low nofun))

/-- Reading the digits in lower case undoes printing them in upper case. -/
theorem fmtHexUpper_lower (b : U8) : (fmtHexUpper b).map Char.toLower = fmtHex b := by
  have high := (hexDigit_upper (Nat.div_lt_of_lt_mul b.isLt : b.toNat / 16 < 16)).2
  have low := (hexDigit_upper (Nat.mod_lt b.toNat (by decide : 0 < 16))).2
  simp only [fmtHexUpper, fmtHex, List.map_cons, List.map_nil, high, low]

theorem fmtU_one (n : ℕ) : fmtU n = "1".toList ↔ n = 1 := by
  constructor
  · intro printed
    have value := congrArg (fun digits => Nat.ofDigitChars 10 digits 0) printed
    simp only [fmtU, Nat.ofDigitChars_ten_toDigits] at value
    rw [value]
    rfl
  · rintro rfl
    rfl

/-! ### A line -/

/-- What the loader makes of an entry. -/
def dutEntry (e : CapEntry) : DutEntry where
  hex := (List.finRange 33).flatMap fun b => fmtHex (e.frame b)
  crcOk := e.crcOk = 1

def dirText (dir : CapDir) : Text := if dir = .tx then "TX".toList else "RX".toList

def hexUpper (frame : Frame) : Text := (List.finRange 33).flatMap fun b => fmtHexUpper (frame b)

/-- A line of the dump without its end. -/
def capBody (i : U32) (e : CapEntry) : Text :=
  "CAP".toList ++ ',' :: (fmtU i.toNat ++ ',' :: (fmtU e.timestamp.toNat ++ ',' ::
    (dirText e.dir ++ ',' :: (fmtU e.crcOk.toNat ++ ',' :: (fmtU e.csGapUs.toNat ++ ',' ::
      hexUpper e.frame)))))

theorem capLine_eq (i : U32) (e : CapEntry) : capLine i e = capBody i e ++ ['\n'] := by
  simp [capLine, capBody, shellFprintf, dirText, hexUpper]

theorem solid_hexUpper (frame : Frame) : Solid (hexUpper frame) := by
  intro c member
  obtain ⟨b, -, printed⟩ := List.mem_flatMap.mp member
  exact solid_fmtHexUpper (frame b) c printed

theorem hexUpper_lower (e : CapEntry) :
    (hexUpper e.frame).map Char.toLower = (dutEntry e).hex := by
  simp only [hexUpper, dutEntry, List.map_flatMap, fmtHexUpper_lower]

theorem solid_dirText (dir : CapDir) : Solid (dirText dir) := by
  cases dir <;> exact solid_of_all rfl

theorem comma_not_mem_dirText (dir : CapDir) : ',' ∉ dirText dir := by
  cases dir with
  | tx => exact show ',' ∉ ['T', 'X'] by decide
  | rx => exact show ',' ∉ ['R', 'X'] by decide

theorem solid_capBody (i : U32) (e : CapEntry) : Solid (capBody i e) := by
  have comma : spaceChar ',' = false := rfl
  have crc := (solid_fmtU e.crcOk.toNat).append (.cons comma ((solid_fmtU e.csGapUs.toNat).append
    (.cons comma (solid_hexUpper e.frame))))
  have dir := (solid_dirText e.dir).append (.cons comma crc)
  have stamp := (solid_fmtU i.toNat).append (.cons comma
    ((solid_fmtU e.timestamp.toNat).append (.cons comma dir)))
  exact Solid.append (solid_of_all rfl) (.cons comma stamp)

/-- A line splits into the seven fields that were printed. -/
theorem splitMax_capBody (i : U32) (e : CapEntry) :
    splitMax ',' 6 (capBody i e) = ["CAP".toList, fmtU i.toNat, fmtU e.timestamp.toNat,
      dirText e.dir, fmtU e.crcOk.toNat, fmtU e.csGapUs.toNat, hexUpper e.frame] := by
  have name : ',' ∉ "CAP".toList := show ',' ∉ ['C', 'A', 'P'] by decide
  rw [capBody, splitMax_field name, splitMax_field (comma_not_mem_fmtU _),
    splitMax_field (comma_not_mem_fmtU _), splitMax_field (comma_not_mem_dirText e.dir),
    splitMax_field (comma_not_mem_fmtU _), splitMax_field (comma_not_mem_fmtU _), splitMax_zero]

/-- The lists with one more entry. -/
def DutCapture.add (d : DutCapture) (e : CapEntry) : DutCapture :=
  match e.dir with
  | .tx => { d with tx := d.tx ++ [dutEntry e] }
  | .rx => { d with rx := d.rx ++ [dutEntry e] }

theorem loadLine_capLine (d : DutCapture) (i : U32) (e : CapEntry) :
    loadLine d (capLine i e) = some (d.add e) := by
  have starts : "CAP,".toList.isPrefixOf (capLine i e) = true := by
    rw [capLine_eq]
    rfl
  have flag : decide (fmtU e.crcOk.toNat = "1".toList) = (dutEntry e).crcOk := by
    rw [dutEntry, decide_eq_decide, fmtU_one, BitVec.toNat_eq]
    rfl
  have entry : (⟨(hexUpper e.frame).map Char.toLower,
      fmtU e.crcOk.toNat = "1".toList⟩ : DutEntry) = dutEntry e := by
    rw [flag, hexUpper_lower]
  rw [loadLine, if_pos starts, capLine_eq, strip_line (solid_capBody i e) rfl, splitMax_capBody]
  simp only [entry, DutCapture.add]
  cases e.dir with
  | tx => rw [if_pos (show dirText .tx = "TX".toList from rfl)]
  | rx =>
    have other : dirText .rx ≠ "TX".toList := show ['R', 'X'] ≠ ['T', 'X'] by decide
    rw [if_neg other]

/-- The last line of the dump without its end. -/
def capEnd (i : U32) : Text := "CAPEND,".toList ++ fmtU i.toNat

theorem solid_capEnd (i : U32) : Solid (capEnd i) :=
  Solid.append (solid_of_all rfl) (solid_fmtU i.toNat)

theorem shellPrint_pair (first second : Text) :
    shellPrint [first, second] = first ++ second ++ ['\n'] := by
  simp only [shellPrint, List.flatten_cons, List.flatten_nil, List.append_nil]

theorem loadLine_capEnd (d : DutCapture) (i : U32) :
    loadLine d (capEnd i ++ ['\n']) = some d := by
  have other : "CAP,".toList.isPrefixOf (capEnd i ++ ['\n']) = false := rfl
  rw [loadLine, if_neg (by rw [other]; exact Bool.false_ne_true)]

/-! ### The dump -/

/-- The text for the entries that are left. -/
def capLines (i : U32) : List CapEntry → Text
  | [] => capEnd i ++ ['\n']
  | e :: rest => capLine i e ++ capLines (i + 1) rest

/-- The loop prints a line for every entry of the ring from its index on. -/
theorem capDumpFrom_eq (c : Capture) (i : U32) :
    capDumpFrom c i = capLines i (c.contents.drop i.toNat) := by
  induction i using capDumpFrom.induct c with
  | case1 i e found ih =>
    obtain ⟨entry, -, next⟩ := capRead_ok c found
    obtain ⟨inside, same⟩ := List.getElem?_eq_some_iff.mp entry
    have left : c.contents.drop i.toNat = e :: c.contents.drop (i + 1).toNat := by
      rw [List.drop_eq_getElem_cons inside, same, next]
    rw [left, capLines, ← ih, capDumpFrom]
    split
    next e' found' =>
      rw [found] at found'
      cases found'
      rfl
    next missing =>
      rw [found] at missing
      cases missing
  | case2 i err missing =>
    have past : c.contents.length ≤ i.toNat := by
      rw [capRead_contents] at missing
      cases entry : c.contents[i.toNat]? with
      | none => exact List.getElem?_eq_none_iff.mp entry
      | some e =>
        rw [entry] at missing
        cases missing
    rw [List.drop_of_length_le past, capLines, capDumpFrom]
    split
    next e found =>
      rw [missing] at found
      cases found
    next => exact shellPrint_pair _ _

/-- The lists of the entries of each direction, in their order. -/
def dutCapture (entries : List CapEntry) : DutCapture where
  tx := (entries.filter fun e => e.dir = .tx).map dutEntry
  rx := (entries.filter fun e => e.dir = .rx).map dutEntry

theorem foldl_add (entries : List CapEntry) (d : DutCapture) :
    entries.foldl DutCapture.add d =
      ⟨d.tx ++ (dutCapture entries).tx, d.rx ++ (dutCapture entries).rx⟩ := by
  induction entries generalizing d with
  | nil => simp [dutCapture]
  | cons e rest ih =>
    rw [List.foldl_cons, ih]
    cases side : e.dir <;> simp [DutCapture.add, dutCapture, side]

/-- The loader's loop over the lines of a dump. -/
theorem load_capLines (entries : List CapEntry) (i : U32) (d : DutCapture) :
    (lines '\n' (capLines i entries)).foldlM loadLine d =
      some (entries.foldl DutCapture.add d) := by
  induction entries generalizing i d with
  | nil =>
    rw [capLines, lines_line (solid_capEnd i).no_newline, lines, List.foldlM_cons,
      loadLine_capEnd]
    rfl
  | cons e rest ih =>
    have printed : capLines i (e :: rest) = capBody i e ++ '\n' :: capLines (i + 1) rest := by
      rw [capLines, capLine_eq, List.append_assoc, List.singleton_append]
    rw [printed, lines_line (solid_capBody i e).no_newline, List.foldlM_cons, ← capLine_eq,
      loadLine_capLine, List.foldl_cons]
    exact ih (i + 1) (d.add e)

/-! ### Line ends -/

theorem universalNewlines_cons {c : Char} (other : c ≠ '\r') (rest : Text) :
    universalNewlines (c :: rest) = c :: universalNewlines rest := by
  rw [universalNewlines]
  · exact fun tail same => absurd same other
  · exact other

theorem universalNewlines_plain {text : Text} (plain : '\r' ∉ text) :
    universalNewlines text = text := by
  induction text with
  | nil => rfl
  | cons c rest ih =>
    obtain ⟨other, plain⟩ := List.ne_and_not_mem_of_not_mem_cons plain
    rw [universalNewlines_cons other.symm, ih plain]

/-- Opening the file takes back what the serial backend added. -/
theorem universalNewlines_serial {text : Text} (plain : '\r' ∉ text) :
    universalNewlines (serial text) = text := by
  induction text with
  | nil => rfl
  | cons c rest ih =>
    obtain ⟨other, plain⟩ := List.ne_and_not_mem_of_not_mem_cons plain
    rw [serial, List.flatMap_cons]
    split
    next newline =>
      rw [newline, List.cons_append, List.singleton_append, universalNewlines]
      exact congrArg _ (ih plain)
    next =>
      rw [List.singleton_append, universalNewlines_cons other.symm]
      exact congrArg _ (ih plain)

theorem capLines_no_return (entries : List CapEntry) (i : U32) : '\r' ∉ capLines i entries := by
  induction entries generalizing i with
  | nil =>
    intro member
    rcases List.mem_append.mp member with inside | last
    · exact (solid_capEnd i).no_return inside
    · cases List.mem_singleton.mp last
  | cons e rest ih =>
    intro member
    rw [capLines, capLine_eq, List.mem_append, List.mem_append] at member
    rcases member with (inside | last) | later
    · exact (solid_capBody i e).no_return inside
    · cases List.mem_singleton.mp last
    · exact ih (i + 1) later

/-! ### The round trip -/

theorem cmdRimCapDump_eq (c : Capture) : cmdRimCapDump c = capLines 0 c.contents :=
  capDumpFrom_eq c 0

/-- Loading a dump gives the entries of the ring, whichever line ends the log has. -/
theorem loadDut_cmdRimCapDump (c : Capture) :
    loadDut (cmdRimCapDump c) = some (dutCapture c.contents) ∧
      loadDut (serial (cmdRimCapDump c)) = some (dutCapture c.contents) := by
  have plain := capLines_no_return c.contents 0
  have loaded := load_capLines c.contents 0 ⟨[], []⟩
  rw [foldl_add] at loaded
  rw [cmdRimCapDump_eq, loadDut, loadDut, universalNewlines_plain plain,
    universalNewlines_serial plain]
  exact ⟨loaded, loaded⟩

/-- Every slot holds a flag. -/
def CrcFlags (c : Capture) : Prop := ∀ slot, (c.ring slot).crcOk = 0 ∨ (c.ring slot).crcOk = 1

theorem capRecord_flags {c : Capture} (flags : CrcFlags c) (dir : CapDir) (frame : Frame)
    (crcOk : Bool) (csGapUs cycle : U32) :
    CrcFlags (capRecord c dir frame crcOk csGapUs cycle) := by
  by_cases ready : c.Open
  · rw [capRecord_open ready]
    intro slot
    simp only [Ring.append]
    by_cases written : slot = Ring.slot capDepth c.wr
    · rw [written, Function.update_self]
      cases crcOk
      · exact Or.inl rfl
      · exact Or.inr rfl
    · rw [Function.update_of_ne written]
      exact flags slot
  · rw [capRecord_shut ready]
    exact flags

theorem capStep_flags {c : Capture} (flags : CrcFlags c) (op : CapOp) :
    CrcFlags (capStep c op).1 := by
  cases op with
  | record dir frame crcOk csGapUs cycle =>
    exact capRecord_flags flags dir frame crcOk csGapUs cycle
  | noteAnomaly =>
    have same : (capStep c .noteAnomaly).1.toRing = c.toRing := capNoteAnomaly_toRing c
    rw [CrcFlags, same]
    exact flags
  | start => exact flags
  | stop => exact flags
  | freeze => exact flags
  | freezeOnAnomaly en => exact flags

theorem mem_contents {c : Capture} {e : CapEntry} (member : e ∈ c.contents) :
    ∃ slot, c.ring slot = e := by
  obtain ⟨k, -, same⟩ := List.mem_map.mp member
  exact ⟨_, same⟩

/-- The loader's flag is the entry's in every ring that was recorded. -/
theorem crcOk_dutEntry (ops : List CapOp) {e : CapEntry}
    (member : e ∈ (final capStep Capture.boot ops).contents) :
    (dutEntry e).crcOk = true ↔ e.crcOk ≠ 0 := by
  have flags : CrcFlags (final capStep Capture.boot ops) :=
    final_invariant capStep (I := CrcFlags) (fun _ => Or.inl rfl)
      (fun c op (_ : True) flags => capStep_flags flags op) ops fun _ _ => trivial
  obtain ⟨slot, rfl⟩ := mem_contents member
  rw [dutEntry, decide_eq_true_iff]
  rcases flags slot with off | on
  · rw [off]
    decide
  · rw [on]
    decide

/-- The loader gives back every ring as it was dumped, and of a recorded ring the newest entries
of the log with the flags they were recorded with. -/
theorem dump_load_inverse :
    (∀ c : Capture, loadDut (cmdRimCapDump c) = some (dutCapture c.contents) ∧
      loadDut (serial (cmdRimCapDump c)) = some (dutCapture c.contents)) ∧
    ∀ ops : List CapOp,
      (∀ e ∈ (final capStep Capture.boot ops).contents,
        (dutEntry e).crcOk = true ↔ e.crcOk ≠ 0) ∧
      (Ring.Telling capDepth 32 (capLog Capture.boot ops).length →
        (final capStep Capture.boot ops).contents = (capLog Capture.boot ops).drop
          ((capLog Capture.boot ops).length - min (capLog Capture.boot ops).length capDepth)) := by
  refine ⟨loadDut_cmdRimCapDump, fun ops => ⟨fun e => crcOk_dutEntry ops, fun telling => ?_⟩⟩
  exact Ring.contents_telling ⟨2 ^ 24, by decide⟩ (by decide) (cap_holds_log ops) telling

/-- Arm the ring and record a sealed and a corrupt frame. -/
def capTwo : List CapOp :=
  [.start, .record .tx (fun _ => 0) true 0 7, .record .rx (fun _ => 0xA5) false 70000 9]

theorem dump_load_inverse_two :
    Ring.Telling capDepth 32 (capLog Capture.boot capTwo).length ∧
      (final capStep Capture.boot capTwo).contents = capLog Capture.boot capTwo := by
  have length : (capLog Capture.boot capTwo).length = 2 := rfl
  have telling : Ring.Telling capDepth 32 (capLog Capture.boot capTwo).length := by
    rw [length]
    exact Or.inl (by decide)
  have newest := (dump_load_inverse.2 capTwo).2 telling
  rw [length] at newest
  exact ⟨telling, newest⟩

end FanatecWheel.Host
