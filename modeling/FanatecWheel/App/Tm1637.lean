import FanatecWheel.Foundation.TwoWire
import FanatecWheel.Foundation.Words

/-!
# Display driver

`app/src/tm1637.c`: the four-digit display on two pins. A function of the driver is the list of
writes it makes, with a wait for every busy wait of half a clock period.
-/

namespace FanatecWheel.App

open Foundation

/-- `CMD_DATA_AUTO`: data command, auto address increment. -/
def cmdDataAuto : U8 := 0x40

/-- `CMD_ADDR_BASE`: address command, digit 0. -/
def cmdAddrBase : U8 := 0xC0

/-- `CMD_DISP_CTRL`: display control. -/
def cmdDispCtrl : U8 := 0x80

def tmStart : List WireOp := [.dio true, .clk true, .wait, .dio false, .wait, .clk false]

def tmStop : List WireOp :=
  [.clk false, .dio false, .wait, .clk true, .wait, .dio true, .wait]

def tmWriteByte (b : U8) : List WireOp :=
  -- lowest bit first
  (List.range 8).flatMap (fun i =>
    [.clk false, .dio ((b >>> i) &&& 1 ≠ 0), .wait, .clk true, .wait]) ++
  -- the acknowledge: the data wire is released for one clock
  [.clk false, .dio true, .wait, .clk true, .wait, .clk false]

def tm1637Brightness (level : U8) (on : Bool) : List WireOp :=
  tmStart ++ tmWriteByte (cmdDispCtrl ||| (if on then 0x08 else 0x00) ||| (level &&& 7)) ++ tmStop

def tm1637SetSegments (seg : Bytes 4) : List WireOp :=
  tmStart ++ tmWriteByte cmdDataAuto ++ tmStop ++
    (tmStart ++ tmWriteByte cmdAddrBase ++
      (List.finRange 4).flatMap (fun i => tmWriteByte (seg i)) ++ tmStop)

/-- `tm1637_init`: its result, and the writes. Both pins are configured high. -/
def tm1637Init (gpioReady configured : Bool) : ℤ × List WireOp :=
  if !gpioReady then (-19, [])
  else if !configured then (-5, [])
  else (0, tm1637Brightness 5 true)

/-! ### The driver on the bus -/

theorem bit_eq (b : U8) (i : ℕ) : decide ((b >>> i) &&& 1 ≠ 0) = b.getLsbD i := by
  have low : (b >>> i) &&& 1 = (BitVec.ofBool (b.getLsbD i)).setWidth 8 := by
    apply BitVec.eq_of_getLsbD_eq
    intro k inside
    rcases Nat.eq_zero_or_pos k with rfl | high
    · simp
    · have above : k ≠ 0 := by omega
      simp [above]
  rw [low]
  cases b.getLsbD i <;> decide

theorem tmStart_eq : tmStart = Listener.startOps := rfl

theorem tmStop_eq : tmStop = Listener.stopOps := rfl

/-- A byte is a word of the bus. -/
theorem tmWriteByte_eq (b : U8) : tmWriteByte b = Listener.sendWord b := by
  simp only [tmWriteByte, bit_eq, Listener.sendWord, Listener.bitsOf]
  rfl

/-- The brightness is one message of one byte. -/
theorem tm1637Brightness_eq (level : U8) (on : Bool) :
    tm1637Brightness level on = Listener.sendMessage
      [cmdDispCtrl ||| (if on then 0x08 else 0x00) ||| (level &&& 7)] := by
  simp only [tm1637Brightness, tmWriteByte_eq, Listener.sendMessage, tmStart_eq, tmStop_eq,
    List.flatMap_cons, List.flatMap_nil, List.append_nil]

/-- The messages of a write of all four digits. -/
def segmentMessages (seg : Bytes 4) : List (List U8) :=
  [[cmdDataAuto], [cmdAddrBase, seg 0, seg 1, seg 2, seg 3]]

theorem tm1637SetSegments_eq (seg : Bytes 4) :
    tm1637SetSegments seg = (segmentMessages seg).flatMap Listener.sendMessage := by
  have digits : (List.finRange 4).flatMap (fun i => Listener.sendWord (seg i)) =
      [seg 0, seg 1, seg 2, seg 3].flatMap Listener.sendWord := rfl
  simp only [tm1637SetSegments, tmWriteByte_eq, digits, segmentMessages, Listener.sendMessage,
    tmStart_eq, tmStop_eq, List.flatMap_cons, List.flatMap_nil, List.append_nil, List.append_assoc]

end FanatecWheel.App
