import FanatecWheel.App.Printf
import FanatecWheel.Foundation.Fields
import FanatecWheel.Host.SoakRunner

/-!
# Ring reconciliation

`scripts/capture/ring_diff.py`: the entries of a capture dump, and their comparison with the
frames a logic analyser saw. Files are lists of ASCII characters and `none` is an exception.
-/

namespace FanatecWheel.Host

open Foundation App

/-! ### Loading the dump -/

/-- A dictionary of `load_dut`. -/
structure DutEntry where
  hex : Text
  crcOk : Bool
deriving DecidableEq

structure DutCapture where
  tx : List DutEntry
  rx : List DutEntry
deriving DecidableEq

/-- What `open` makes of the line ends of a text file. -/
def universalNewlines : Text → Text
  | '\r' :: '\n' :: rest => '\n' :: universalNewlines rest
  | '\r' :: rest => '\n' :: universalNewlines rest
  | c :: rest => c :: universalNewlines rest
  | [] => []

/-- A turn of the loop of `load_dut`; a line that does not unpack raises `ValueError`. -/
def loadLine (d : DutCapture) (line : Text) : Option DutCapture :=
  if "CAP,".toList.isPrefixOf line then
    match splitMax ',' 6 (strip spaceChar line) with
    | [_, _, _, dir, crcOk, _, hexs] =>
      let e : DutEntry := { hex := hexs.map Char.toLower, crcOk := crcOk = "1".toList }
      if dir = "TX".toList then some { d with tx := d.tx ++ [e] }
      else some { d with rx := d.rx ++ [e] }
    | _ => none
  else some d

def loadDut (file : Text) : Option DutCapture :=
  (lines '\n' (universalNewlines file)).foldlM loadLine ⟨[], []⟩

/-! ### Comparing -/

section Walk

variable {α : Type*} [DecidableEq α]

/-- The matches of the loop of `seq_diff` on what is left of the two sequences. -/
def matchCount : List α → List α → ℕ
  | d :: dset, l :: lset =>
    if d = l then matchCount dset lset + 1
    -- extra in DUT
    else if (l :: lset).length < (d :: dset).length then matchCount dset (l :: lset)
    -- missing from DUT
    else matchCount (d :: dset) lset
  | _, _ => 0
termination_by dset lset => dset.length + lset.length

end Walk

/-- The numbers of the printed line. -/
structure SeqDiff where
  dut : ℕ
  la : ℕ
  matched : ℕ
  dutExtra : ℤ
  laUnmatched : ℤ
deriving DecidableEq

def seqDiff (dut : List DutEntry) (la : List Text) : SeqDiff :=
  let dset := dut.map DutEntry.hex
  let matched := matchCount dset la
  { dut := dset.length
    la := la.length
    matched
    dutExtra := dset.length - matched
    laUnmatched := la.length - matched }

/-- The reports of `main`, RX first, on a loaded log of the analyser. -/
def ringDiff (file : Text) (miso mosi : List Text) : Option (SeqDiff × SeqDiff) := do
  let dut ← loadDut file
  some (seqDiff dut.rx mosi, seqDiff dut.tx miso)

end FanatecWheel.Host
