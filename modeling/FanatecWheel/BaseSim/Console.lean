import FanatecWheel.App.Shell
import FanatecWheel.BaseSim.Main
import FanatecWheel.Foundation.Trace

/-!
# The simulator's console and its thread

`app/sim/src/main.c`: the handlers of `sim` on the words of a line, and `sim_thread`. The thread
runs above the shell, so a handler may stop between any two of its stores, and the thread is
interrupted only where it blocks: in the transfer and in its sleep. What it logs is left out.
As in `App.Shell`, a character of a word stands for one byte of ASCII.
-/

namespace FanatecWheel.BaseSim

open Foundation App
open Rimlink hiding Reply

/-! ### Words -/

/-- The value of a digit of any base. -/
def digitOf (c : Char) : ℕ :=
  if c.isDigit then c.toNat - '0'.toNat
  else if c.isLower then c.toNat - 'a'.toNat + 10
  else if c.isUpper then c.toNat - 'A'.toNat + 10
  else 36

def leadingDigits (base : ℕ) (text : Text) : ℕ :=
  ((text.map digitOf).takeWhile (· < base)).foldl (fun n d => n * base + d) 0

/-- A number with the prefix of its base. -/
def prefixedNumber : Text → ℕ
  | '0' :: 'x' :: rest => leadingDigits 16 rest
  | '0' :: 'X' :: rest => leadingDigits 16 rest
  | '0' :: rest => leadingDigits 8 rest
  | text => leadingDigits 10 text

/-- `strtoul` with base 0; a number beyond `unsigned long` is its largest value. -/
def strtoul (word : String) : U32 :=
  let value (n : ℕ) : U32 := BitVec.ofNat 32 (min n (2 ^ 32 - 1))
  match word.toList.dropWhile isSpace with
  -- a number out of range is not negated
  | '-' :: rest =>
    let n := prefixedNumber rest
    if n < 2 ^ 32 then -value n else value n
  | '+' :: rest => value (prefixedNumber rest)
  | rest => value (prefixedNumber rest)

/-! ### Handlers -/

/-- The static `sim`. -/
structure SimSys where
  sim : Sim
  running : Bool

/-- What else `sim_profile.h` defines. -/
structure SimProfile where
  name : Text
  csSetupUs : ℕ

/-- The number of `enum sim_fault`. -/
def SimFault.code : SimFault → ℕ
  | .none => 0
  | .crc => 1
  | .trunc => 2
  | .extra => 3
  | .jitter => 4

def printed (parts : List Text) : Reply := ⟨shellPrint parts, 0⟩

/-- `shell_error`. -/
def failed (error : Text) : Reply := ⟨error ++ ['\n'], -einval⟩

section Handlers

variable (p : SimProfile) (s : SimSys) (argv : List String)

def simStart : SimSys × Reply := ({ s with running := true }, printed ["running".toList])

def simStop : SimSys × Reply := ({ s with running := false }, printed ["stopped".toList])

def printRate (s : SimSys) : SimSys × Reply :=
  (s, printed ["cadence: ".toList, fmtU s.sim.cadenceUs.toNat, " us".toList])

def simRate : SimSys × Reply :=
  if argv.length = 2 then
    let us := atoi (word argv 1)
    if us.slt 100 then (s, failed "cadence >= 100 us".toList)
    else printRate { s with sim.cadenceUs := us }
  else printRate s

/-- The four arguments, if they are there. -/
def profileArgs : Option (U32 × U32 × U32 × U32) :=
  if argv.length = 5 then
    some (strtoul (word argv 1), strtoul (word argv 2), strtoul (word argv 3),
      strtoul (word argv 4))
  else none

def simProfile : SimSys × Reply :=
  match cmdSimProfile s.sim (profileArgs argv) with
  | .error _ => (s, failed "clock 100k..12M (schema cap)".toList)
  | .ok sim => ({ s with sim }, printed ["profile ".toList, p.name, ": clock=".toList,
      fmtU sim.clockHz.toNat, " Hz cadence=".toList, fmtU sim.cadenceUs.toNat,
      " us jitter=".toList, fmtU sim.jitterUs.toNat, " us cs_setup=".toList, fmtU p.csSetupUs,
      " us flush=".toList, fmtU sim.flushBytes.toNat, " B".toList])

/-- The text behind `disp`, if there is one. -/
def dispText : Option (List Char) :=
  if argv.length = 2 then some (word argv 1).toList else none

def simDisp : SimSys × Reply :=
  ({ s with sim := cmdSimDisp s.sim (dispText argv) },
    printed ["disp set to \"".toList, ((dispText argv).getD []).take 3, "\"".toList])

def simLeds : SimSys × Reply :=
  let v := strtoul (word argv 1)
  ({ s with sim := cmdSimLeds s.sim v },
    printed ["leds = 0x".toList, fmtHexUpper16 (v.setWidth 16)])

def simRumble : SimSys × Reply :=
  let sim := cmdSimRumble s.sim (strtoul (word argv 1)) (strtoul (word argv 2))
  ({ s with sim }, printed ["rumble = ".toList, fmtHexUpper (sim.mosi (at_ offRumble)),
    " ".toList, fmtHexUpper (sim.mosi (at_ (offRumble + 1)))])

/-- The parameter of a fault, if it is there. -/
def faultArg : Option U32 := if argv.length = 3 then some (atoi (word argv 2)) else none

def simFault : SimSys × Reply :=
  match cmdSimFault s.sim (word argv 1) (faultArg argv) with
  | .error _ => (s, failed "none|crc|trunc|extra|jitter [N]".toList)
  | .ok sim => ({ s with sim }, printed ["fault mode ".toList, fmtU sim.fault.code, ", N=".toList,
      fmtU sim.faultN.toNat])

def simStats : SimSys × Reply :=
  (s, ⟨shellPrint ["txn:            ".toList, fmtU s.sim.txn.toNat] ++
    shellPrint ["miso_crc_err:   ".toList, fmtU s.sim.misoCrcErr.toNat] ++
    shellPrint ["first_byte_err: ".toList, fmtU s.sim.firstByteErr.toNat] ++
    shellPrint ["faults_injected:".toList, fmtU s.sim.faultsInjected.toNat], 0⟩)

def simReset : SimSys × Reply :=
  let sim := { s.sim with txn := 0, misoCrcErr := 0, firstByteErr := 0, faultsInjected := 0 }
  ({ s with sim }, printed ["counters reset".toList])

end Handlers

/-! ### The table -/

/-- The entries of `sub_sim`. -/
inductive SimLine
  | start | stop | rate | profile | disp | leds | rumble | fault | stats | reset
deriving DecidableEq

def simLine (name : String) : Option SimLine :=
  match name with
  | "start" => some .start
  | "stop" => some .stop
  | "rate" => some .rate
  | "profile" => some .profile
  | "disp" => some .disp
  | "leds" => some .leds
  | "rumble" => some .rumble
  | "fault" => some .fault
  | "stats" => some .stats
  | "reset" => some .reset
  | _ => none

/-- The words an entry requires and those it allows beyond them, as in the table of `rim`. -/
def SimLine.words : SimLine → ℕ × ℕ
  | .rate | .disp => (1, 1)
  | .profile => (1, 4)
  | .leds => (2, 0)
  | .rumble => (3, 0)
  | .fault => (2, 1)
  | .start | .stop | .stats | .reset => (0, 0)

def SimLine.takes (line : SimLine) (argc : ℕ) : Bool :=
  line.words.1 = 0 || (line.words.1 ≤ argc && argc ≤ line.words.1 + line.words.2)

/-- The handler that the shell calls for a line. -/
def handlerOf (argv : List String) : Option SimLine :=
  (argv.head?.bind simLine).filter fun line => line.takes argv.length

/-- A handler, run without interruption. -/
def handle (p : SimProfile) (s : SimSys) (argv : List String) : SimLine → SimSys × Reply
  | .start => simStart s
  | .stop => simStop s
  | .rate => simRate s argv
  | .profile => simProfile p s argv
  | .disp => simDisp s argv
  | .leds => simLeds s argv
  | .rumble => simRumble s argv
  | .fault => simFault s argv
  | .stats => simStats s
  | .reset => simReset s

/-! ### A handler, store by store -/

inductive SimCounter
  | txn | misoCrcErr | firstByteErr | faultsInjected
deriving DecidableEq

/-- A store of a handler; the frame is changed and sealed under the lock. -/
inductive SimStore
  | running (on : Bool)
  | cadenceUs (us : U32)
  | clockHz (hz : U32)
  | jitterUs (us : U32)
  | flushBytes (n : U32)
  | disp (txt : Option (List Char))
  | leds (v : U32)
  | rumble (b0 b1 : U32)
  | fault (mode : SimFault)
  | faultN (n : U32)
  | zero (c : SimCounter)
deriving DecidableEq

def Sim.zero (s : Sim) : SimCounter → Sim
  | .txn => { s with txn := 0 }
  | .misoCrcErr => { s with misoCrcErr := 0 }
  | .firstByteErr => { s with firstByteErr := 0 }
  | .faultsInjected => { s with faultsInjected := 0 }

def SimSys.store (s : SimSys) : SimStore → SimSys
  | .running on => { s with running := on }
  | .cadenceUs us => { s with sim.cadenceUs := us }
  | .clockHz hz => { s with sim.clockHz := hz }
  | .jitterUs us => { s with sim.jitterUs := us }
  | .flushBytes n => { s with sim.flushBytes := n }
  | .disp txt => { s with sim := cmdSimDisp s.sim txt }
  | .leds v => { s with sim := cmdSimLeds s.sim v }
  | .rumble b0 b1 => { s with sim := cmdSimRumble s.sim b0 b1 }
  | .fault mode => { s with sim.fault := mode }
  | .faultN n => { s with sim.faultN := n }
  | .zero c => { s with sim := s.sim.zero c }

/-- The mode that a word names. -/
def faultMode (mode : String) : Option SimFault :=
  if mode = "none" then some .none
  else if mode = "crc" then some .crc
  else if mode = "trunc" then some .trunc
  else if mode = "extra" then some .extra
  else if mode = "jitter" then some .jitter
  else none

/-- The stores of a handler in their order; none when it refuses or only prints. -/
def storesOf (argv : List String) : SimLine → List SimStore
  | .start => [.running true]
  | .stop => [.running false]
  | .rate =>
    if argv.length = 2 then
      if (atoi (word argv 1)).slt 100 then [] else [.cadenceUs (atoi (word argv 1))]
    else []
  | .profile =>
    match profileArgs argv with
    | none => []
    | some (hz, cadenceUs, jitterUs, flushBytes) =>
      if hz.toNat < 100000 ∨ 12000000 < hz.toNat then []
      else [.clockHz hz, .cadenceUs cadenceUs, .jitterUs jitterUs, .flushBytes flushBytes]
  | .disp => [.disp (dispText argv)]
  | .leds => [.leds (strtoul (word argv 1))]
  | .rumble => [.rumble (strtoul (word argv 1)) (strtoul (word argv 2))]
  | .fault =>
    match faultMode (word argv 1) with
    | none => []
    | some mode => .fault mode :: ((faultArg argv).map SimStore.faultN).toList
  | .stats => []
  -- a chain of assignments stores from right to left
  | .reset => [.zero .faultsInjected, .zero .firstByteErr, .zero .misoCrcErr, .zero .txn]

/-- An uninterrupted handler leaves what its stores leave. -/
theorem handle_stores (p : SimProfile) (s : SimSys) (argv : List String) (line : SimLine) :
    (handle p s argv line).1 = (storesOf argv line).foldl SimSys.store s := by
  cases line with
  -- the handlers that check their words; the others store in any case
  | rate =>
    simp only [handle, simRate, storesOf, printRate]
    split_ifs <;> rfl
  | profile =>
    simp only [handle, simProfile, storesOf]
    rcases profileArgs argv with _ | ⟨hz, cadenceUs, jitterUs, flushBytes⟩
    · rfl
    · by_cases capped : hz.toNat < 100000 ∨ 12000000 < hz.toNat
      · simp only [cmdSimProfile, if_pos capped, List.foldl_nil]
      · simp only [cmdSimProfile, if_neg capped]
        rfl
  | fault =>
    simp only [handle, simFault, storesOf, cmdSimFault, faultMode]
    cases faultArg argv <;> split_ifs <;> rfl
  | _ => rfl

end FanatecWheel.BaseSim
