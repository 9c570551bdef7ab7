import FanatecWheel.App.DiagSvc
import FanatecWheel.Properties.SettingsPersistence

/-!
# The shell commands

`app/src/diag_svc.c`: the handlers of `rim`, on the words of a line. They call into the settings,
the adapter and the health counters; what they print of other services comes with the call.
The table says how many words a handler takes, which the shell checks before it calls it.
A character of a word stands for one byte of ASCII; the shell takes no other.
-/

namespace FanatecWheel.App

open Foundation Rimlink

/-! ### Words -/

/-- `isspace`. -/
def isSpace (c : Char) : Bool := c == ' ' || (9 ≤ c.toNat && c.toNat ≤ 13)

def leadingNumber (text : Text) : ℕ := Nat.ofDigitChars 10 (text.takeWhile Char.isDigit) 0

/-- `atoi`; a number beyond `int` wraps. -/
def atoi (word : String) : I32 :=
  match word.toList.dropWhile isSpace with
  | '-' :: rest => BitVec.ofInt 32 (-(leadingNumber rest : ℤ))
  | '+' :: rest => BitVec.ofNat 32 (leadingNumber rest)
  | rest => BitVec.ofNat 32 (leadingNumber rest)

/-- `argv[i]`; the shell has checked that it is there. -/
def word (argv : List String) (i : ℕ) : String := argv[i]?.getD ""

/-- `%x` with leading zeros. -/
def fmtHexPad (width n : ℕ) : Text :=
  List.replicate (width - (Nat.toDigits 16 n).length) '0' ++ Nat.toDigits 16 n

/-- `%d` of a flag. -/
def fmtFlag (b : Bool) : Text := if b then ['1'] else ['0']

/-! ### The services behind the shell -/

/-- What a handler can change: the settings with their store, the adapter, the health counters
and the static `session_base_fw`. -/
structure Console where
  sys : SettingsSys
  link : Adapter
  health : Health
  baseFw : Text

/-- What the getters of the other services return during a line. -/
structure Readings where
  output : OutputStats
  disp : Text
  p99Us : U32
  maxUs : U32
  bootReadyUs : U32

/-- `APP_VERSION_STRING` and `RIM_GIT_HASH`. -/
structure BuildInfo where
  version : Text
  gitHash : Text

/-- What a handler prints and returns. -/
structure Reply where
  out : Text
  ret : I32
deriving DecidableEq

namespace Console

variable (s : Console)

def counters (r : Readings) : DeviceCounters where
  link := statsGet s.link
  output := r.output
  p99Us := r.p99Us
  maxUs := r.maxUs
  v2 := s.sys.svc.v2
  health := s.health

def done (out : Text) : Console × Reply := (s, ⟨out, 0⟩)

def fail (error : Text) (ret : I32) : Console × Reply := (s, ⟨error ++ ['\n'], ret⟩)

/-- The service with its input side replaced. -/
def setInput (svc : InputSvc) : Console := { s with sys.svc := svc }

end Console

def printFrame (tag : Text) (f : Frame) : Text :=
  shellFprintf [tag, ":".toList] ++
    ((List.finRange 33).flatMap fun i =>
      shellFprintf ["0x".toList, fmtHexUpper (f i), " ".toList]) ++
    shellFprintf ["\n".toList]

section Handlers

variable (s : Console) (r : Readings) (argv : List String)

def cmdRimMosi : Console × Reply := s.done (printFrame "MOSI".toList (framesSnapshot s.link).2)

def cmdRimMiso : Console × Reply := s.done (printFrame "MISO".toList (framesSnapshot s.link).1)

def cmdRimDisp : Console × Reply :=
  s.done (shellPrint ["disp: \"".toList, r.disp, "\"".toList])

def printManual (s : Console) : Console × Reply :=
  s.done (shellPrint ["manual bits: 0x".toList,
    (fmtHexPad 6 s.sys.svc.manualBits.toNat).map Char.toUpper])

def cmdRimBtn : Console × Reply :=
  let bit := atoi (word argv 2)
  if bit.slt 1 || (22 : I32).slt bit then s.fail "bit must be 1..22".toList (-einval)
  else
    let bit := bit.setWidth 8
    if word argv 1 = "set" then printManual (s.setInput (inputSvcManualBit s.sys.svc bit true))
    else if word argv 1 = "clr" then
      printManual (s.setInput (inputSvcManualBit s.sys.svc bit false))
    else if word argv 1 = "toggle" then
      printManual (s.setInput (inputSvcManualToggle s.sys.svc bit))
    else s.fail "use: rim btn set|clr|toggle <bit>".toList (-einval)

def printMap (s : Console) : Console × Reply :=
  s.done (shellFprintf ["button map:".toList] ++
    ((List.finRange 6).flatMap fun i =>
      shellFprintf [" ".toList, fmtU (s.sys.svc.settings.buttonMap i).toNat]) ++
    shellFprintf ["\n".toList])

/-- The bit is narrowed to a byte before it is checked. -/
def cmdRimMap : Console × Reply :=
  if argv.length = 3 then
    match inputSvcMapSet s.sys.svc (atoi (word argv 1)) ((atoi (word argv 2)).setWidth 8) with
    | none => s.fail "idx 0..5, bit 1..22".toList (-einval)
    | some svc => printMap (s.setInput svc)
  else printMap s

def printId (s : Console) : Console × Reply :=
  s.done (shellPrint ["rim identity: 0x".toList, fmtHexPad 2 s.link.currentId.toNat])

def cmdRimId : Console × Reply :=
  if argv.length = 2 then
    let id := atoi (word argv 1)
    if id.slt 1 || (4 : I32).slt id then s.fail "id must be 1..4".toList (-einval)
    else printId { s with link := identitySet s.link id }
  else printId s

def printPos (s : Console) : Console × Reply :=
  s.done (shellPrint ["dpad position: ".toList, fmtU s.sys.svc.dpad.cur.val])

def cmdRimDpad : Console × Reply :=
  if argv.length = 9 then
    match inputSvcDpadCal s.sys.svc (fun i => (atoi (word argv (1 + i))).setWidth 16)
        ((atoi (word argv 8)).setWidth 16) with
    | none => s.fail "thresholds must descend".toList (-einval)
    | some svc => printPos (s.setInput svc)
  else printPos s

def cmdRimBoot : Console × Reply :=
  if r.bootReadyUs = 0 then s.done (shellPrint ["link not yet armed".toList])
  else s.done (shellPrint ["boot-to-ready: ".toList, fmtU r.bootReadyUs.toNat,
    " us (base first-poll margin: measurement pending)".toList])

/-- `strncpy` keeps what fits before the terminator. -/
def cmdRimSession (b : BuildInfo) : Console × Reply :=
  let s := if argv.length = 3 && word argv 1 = "base" then
      { s with baseFw := (word argv 2).toList.take 31 }
    else s
  s.done (shellPrint ["session: fw=".toList, b.version, " git=".toList, b.gitHash, " id=0x".toList,
    fmtHexPad 2 s.link.currentId.toNat, " base_fw=".toList, s.baseFw])

def printCap (s : Console) : Console × Reply :=
  let c := s.link.cap
  s.done (shellPrint ["cap: armed=".toList, fmtFlag c.armed, " frozen=".toList, fmtFlag c.frozen,
    " auto-freeze=".toList, fmtFlag c.freezeOnAnomaly, " recorded=".toList, fmtU c.wr.toNat,
    " depth=".toList, fmtU capDepth])

def Console.setCap (s : Console) (cap : Capture) : Console := { s with link.cap := cap }

def cmdRimCap : Console × Reply :=
  let cap := s.link.cap
  if word argv 1 = "start" then printCap (s.setCap (capStart cap))
  else if word argv 1 = "stop" then printCap (s.setCap (capStop cap))
  else if word argv 1 = "freeze" then printCap (s.setCap (capFreeze cap))
  else if word argv 1 = "auto" && argv.length = 3 then
    printCap (s.setCap (capFreezeOnAnomaly cap (word argv 2 = "on")))
  else if word argv 1 = "dump" then s.done (cmdRimCapDump cap)
  else if word argv 1 ≠ "status" then
    s.fail "use: rim cap start|stop|freeze|dump|status|auto on|off".toList (-einval)
  else printCap s

def printClutch (s : Console) : Console × Reply :=
  let st := s.sys.svc.settings
  let v2 := s.sys.svc.v2
  s.done (shellPrint ["mode=".toList, fmtU st.clutchMode.toNat, " bite=".toList,
    fmtU st.bitePoint.toNat, " c0=".toList, fmtU (v2.clutch 0).toNat, " c1=".toList,
    fmtU (v2.clutch 1).toNat, " combined=".toList, fmtU v2.clutchCombined.toNat, " diag=[".toList,
    fmtHex (v2.clutchDiag 0), " ".toList, fmtHex (v2.clutchDiag 1), "]".toList])

def cmdRimClutch : Console × Reply :=
  if argv.length = 3 then
    match inputSvcClutchModeSet s.sys.svc ((atoi (word argv 1)).setWidth 8)
        ((atoi (word argv 2)).setWidth 8) with
    | none => s.fail "mode 0..2 (bite/axes/mapped)".toList (-einval)
    | some svc => printClutch (s.setInput svc)
  else printClutch s

def cmdRimSave (answer : String → I32) : Console × Reply :=
  let committed := rimSettingsCommit s.sys.rs answer s.sys.store (word argv 1)
  let s := { s with sys.store := committed.1 }
  let ret := committed.2
  if ret = -eacces then s.fail "config locked (rim lock off to unlock)".toList ret
  else if ret ≠ 0 then
    s.fail ("commit failed (".toList ++ fmtD ret.toInt ++ ")".toList) ret
  else s.done (shellPrint ["saved rim/".toList, (word argv 1).toList])

def printLock (s : Console) : Console × Reply :=
  s.done (shellPrint ["config lock: ".toList, if s.sys.locked then "ON".toList else "off".toList,
    " (cal/map/mode writes ".toList,
    if s.sys.locked then "rejected".toList else "allowed".toList, ")".toList])

/-- Every word but `on` and `status` unlocks. -/
def cmdRimLock (answer : String → I32) : Console × Reply :=
  if argv.length = 2 && word argv 1 ≠ "status" then
    let s := { s with sys.locked := word argv 1 = "on" }
    let committed := rimSettingsCommit s.sys.rs answer s.sys.store "lock"
    let s := { s with sys.store := committed.1 }
    let ret := committed.2
    if ret ≠ 0 then s.fail ("lock persist failed (".toList ++ fmtD ret.toInt ++ ")".toList) ret
    else printLock s
  else printLock s

/-- The getter folds. -/
def cmdRimHealthLine : Console × Reply :=
  ({ s with health := (healthGet s.health (statsGet s.link)).1 },
    ⟨cmdRimHealth (s.counters r), 0⟩)

def cmdRimStatsReset : Console × Reply :=
  Console.done { s with link := statsReset s.link } (shellPrint ["counters reset".toList])

end Handlers

/-! ### The table -/

/-- The entries of `sub_rim`. -/
inductive RimCmd
  | mosi | miso | disp | btn | map | id | dpad | clutch | input | save | health | lock | boot
  | session | cap | stats | reset
deriving DecidableEq

def rimCmd (name : String) : Option RimCmd :=
  match name with
  | "mosi" => some .mosi
  | "miso" => some .miso
  | "disp" => some .disp
  | "btn" => some .btn
  | "map" => some .map
  | "id" => some .id
  | "dpad" => some .dpad
  | "clutch" => some .clutch
  | "input" => some .input
  | "save" => some .save
  | "health" => some .health
  | "lock" => some .lock
  | "boot" => some .boot
  | "session" => some .session
  | "cap" => some .cap
  | "stats" => some .stats
  | "reset" => some .reset
  | _ => none

/-- The words an entry requires, its own name among them, and those it allows beyond them;
`SHELL_CMD` requires nothing, and then nothing is checked. -/
def RimCmd.words : RimCmd → ℕ × ℕ
  | .btn => (3, 0)
  | .map | .clutch | .session => (1, 2)
  | .id | .lock => (1, 1)
  | .dpad => (1, 8)
  | .save => (2, 0)
  | .cap => (2, 1)
  | _ => (0, 0)

def RimCmd.takes (cmd : RimCmd) (argc : ℕ) : Bool :=
  cmd.words.1 = 0 || (cmd.words.1 ≤ argc && argc ≤ cmd.words.1 + cmd.words.2)

/-- A line behind `rim`, with what the settings backend would answer; `none` when the shell calls
no handler. -/
def rimLine (b : BuildInfo) (s : Console) (r : Readings) (answer : String → I32)
    (argv : List String) : Option (Console × Reply) :=
  match (argv.head?.bind rimCmd).filter fun cmd => cmd.takes argv.length with
  | none => none
  | some cmd => some <| match cmd with
    | .mosi => cmdRimMosi s
    | .miso => cmdRimMiso s
    | .disp => cmdRimDisp s r
    | .btn => cmdRimBtn s argv
    | .map => cmdRimMap s argv
    | .id => cmdRimId s argv
    | .dpad => cmdRimDpad s argv
    | .clutch => cmdRimClutch s argv
    | .input => s.done (cmdRimInput (s.counters r))
    | .save => cmdRimSave s argv answer
    | .health => cmdRimHealthLine s r
    | .lock => cmdRimLock s argv answer
    | .boot => cmdRimBoot s r
    | .session => cmdRimSession s argv b
    | .cap => cmdRimCap s argv
    | .stats => s.done (cmdRimStats (s.counters r))
    | .reset => cmdRimStatsReset s

end FanatecWheel.App
