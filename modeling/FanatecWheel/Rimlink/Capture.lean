import FanatecWheel.Foundation.RingLog
import FanatecWheel.Foundation.Trace
import FanatecWheel.Rimlink.Frame

/-!
# Capture ring

`lib/rimlink/rimlink_capture.c`: a ring of 256 transactions with three gates,
`armed`, `frozen` and `freeze_on_anomaly`, and a 32-bit count of the entries
written. Names drop the prefix `rimlink_`.
-/

namespace FanatecWheel.Rimlink

open Foundation

abbrev capDepth : ℕ := 256

inductive CapDir
  | tx | rx
deriving DecidableEq

structure CapEntry where
  timestamp : U32
  dir : CapDir
  crcOk : U8
  csGapUs : U16
  frame : Frame
deriving DecidableEq

/-- The negative error numbers the firmware returns. -/
inductive Errno
  | erange | einval | ebusy | enodev | eacces
deriving DecidableEq

/-- The statics of `rimlink_capture.c`: the ring, its write counter and the
gates, which only ever hold 0 or 1. -/
structure Capture extends Ring CapEntry capDepth 32 where
  armed : Bool
  frozen : Bool
  freezeOnAnomaly : Bool

/-- Zero-initialised statics, `freeze_on_anomaly` set. -/
def Capture.boot : Capture where
  ring := fun _ => ⟨0, .tx, 0, 0, fun _ => 0⟩
  wr := 0
  armed := false
  frozen := false
  freezeOnAnomaly := true

variable (c : Capture)

def capStart : Capture := { c with frozen := false, armed := true }

def capStop : Capture := { c with armed := false }

def capFreeze : Capture := { c with frozen := true }

def capFreezeOnAnomaly (en : Bool) : Capture := { c with freezeOnAnomaly := en }

def capNoteAnomaly : Capture :=
  if c.armed && c.freezeOnAnomaly then { c with frozen := true } else c

/-- What `rimlink_cap_record` stores: the gap saturates at `UINT16_MAX`. -/
def capEntry (dir : CapDir) (frame : Frame) (crcOk : Bool) (csGapUs cycle : U32) : CapEntry where
  timestamp := cycle
  dir := dir
  crcOk := if crcOk then 1 else 0
  csGapUs := if 65535 < csGapUs.toNat then 65535 else csGapUs.setWidth 16
  frame := frame

/-- `rimlink_cap_record` at cycle count `cycle`. -/
def capRecord (dir : CapDir) (frame : Frame) (crcOk : Bool) (csGapUs cycle : U32) : Capture :=
  if !c.armed || c.frozen then c
  else { c with toRing := c.toRing.append (capEntry dir frame crcOk csGapUs cycle) }

/-- An entry that was found, or `-ERANGE`. -/
def capResult : Option CapEntry → Except Errno CapEntry
  | none => .error .erange
  | some e => .ok e

def capRead (idx : U32) : Except Errno CapEntry := capResult (c.toRing.read idx)

/-- The ring takes entries: armed and not frozen. -/
def Capture.Open : Prop := c.armed = true ∧ c.frozen = false

instance : Decidable c.Open := inferInstanceAs (Decidable (_ ∧ _))

theorem capRead_contents (idx : U32) :
    capRead c idx = capResult c.contents[idx.toNat]? := by
  rw [capRead, Ring.read_contents]

theorem capAvail_le : c.avail.toNat ≤ capDepth := Ring.avail_le (by decide) c.toRing

/-- An index that was read is in the ring, and so is no last 32-bit number. -/
theorem capRead_ok {idx : U32} {e : CapEntry} (found : capRead c idx = .ok e) :
    c.contents[idx.toNat]? = some e ∧ idx.toNat < c.avail.toNat ∧
      (idx + 1).toNat = idx.toNat + 1 := by
  rw [capRead_contents] at found
  have entry : c.contents[idx.toNat]? = some e := by
    cases here : c.contents[idx.toNat]? with
    | none =>
      rw [here] at found
      cases found
    | some e' =>
      rw [here] at found
      cases found
      rfl
  have inside := (List.getElem?_eq_some_iff.mp entry).1
  rw [Ring.length_contents] at inside
  refine ⟨entry, inside, ?_⟩
  have bound := capAvail_le c
  exact BitVec.toNat_add_of_lt (show idx.toNat + 1 < 2 ^ 32 by omega)

theorem capResult_inj {a b : Option CapEntry} : capResult a = capResult b ↔ a = b := by
  cases a <;> cases b <;> simp [capResult]

variable {c}

theorem capRecord_open (ready : c.Open) (dir : CapDir) (frame : Frame) (crcOk : Bool)
    (csGapUs cycle : U32) :
    capRecord c dir frame crcOk csGapUs cycle =
      { c with toRing := c.toRing.append (capEntry dir frame crcOk csGapUs cycle) } := by
  simp [capRecord, ready.1, ready.2]

theorem capRecord_shut (shut : ¬ c.Open) (dir : CapDir) (frame : Frame) (crcOk : Bool)
    (csGapUs cycle : U32) : capRecord c dir frame crcOk csGapUs cycle = c := by
  have gate : (!c.armed || c.frozen) = true := by
    unfold Capture.Open at shut
    cases armed : c.armed <;> cases frozen : c.frozen <;> simp_all
  simp only [capRecord, gate, if_true]

section Gates

variable (c : Capture) (dir : CapDir) (frame : Frame) (crcOk : Bool) (csGapUs cycle : U32)

@[simp] theorem capRecord_armed : (capRecord c dir frame crcOk csGapUs cycle).armed = c.armed := by
  unfold capRecord
  split <;> rfl

@[simp] theorem capRecord_frozen :
    (capRecord c dir frame crcOk csGapUs cycle).frozen = c.frozen := by
  unfold capRecord
  split <;> rfl

@[simp] theorem capRecord_freezeOnAnomaly :
    (capRecord c dir frame crcOk csGapUs cycle).freezeOnAnomaly = c.freezeOnAnomaly := by
  unfold capRecord
  split <;> rfl

@[simp] theorem capNoteAnomaly_toRing : (capNoteAnomaly c).toRing = c.toRing := by
  unfold capNoteAnomaly
  split <;> rfl

end Gates

/-! ### The ring as a component of its own -/

/-- The entry points of the capture ring. -/
inductive CapOp
  | start | stop | freeze
  | freezeOnAnomaly (en : Bool)
  | noteAnomaly
  | record (dir : CapDir) (frame : Frame) (crcOk : Bool) (csGapUs cycle : U32)

/-- One call, and the entry it wrote if it wrote one. -/
def capStep (c : Capture) : CapOp → Capture × Option CapEntry
  | .start => (capStart c, none)
  | .stop => (capStop c, none)
  | .freeze => (capFreeze c, none)
  | .freezeOnAnomaly en => (capFreezeOnAnomaly c en, none)
  | .noteAnomaly => (capNoteAnomaly c, none)
  | .record dir frame crcOk csGapUs cycle =>
    (capRecord c dir frame crcOk csGapUs cycle,
      if c.Open then some (capEntry dir frame crcOk csGapUs cycle) else none)

/-- The entries of the calls made while armed and not frozen, oldest first. -/
def capLog (c : Capture) (ops : List CapOp) : List CapEntry :=
  (trace capStep c ops).filterMap id

end FanatecWheel.Rimlink
