import FanatecWheel.Host.LaDecode

/-!
# The field activity report

`scripts/capture/field_activity.py`: which output fields of the base move, from the records of
the decoder. Frames with a bad CRC are counted and not looked at. A set is a list without
repetitions, and `none` is an exception. How the report is printed is left out.
-/

namespace FanatecWheel.Host

open Foundation App

/-- One hexadecimal digit. -/
def hexDigitValue (c : Char) : Option ℕ := (digitValue c).filter (· < 16)

/-- `bytes.fromhex`: blanks between the bytes are skipped. -/
def fromHex : Text → Option (List U8)
  | [] => some []
  | [c] => if spaceChar c then some [] else none
  | c :: d :: rest =>
    if spaceChar c then fromHex (d :: rest)
    else do
      let high ← hexDigitValue c
      let low ← hexDigitValue d
      let data ← fromHex rest
      return BitVec.ofNat 8 (high * 16 + low) :: data

/-- The locals of `main`. -/
structure Activity where
  dispVals : List (List ℕ)
  ledBits : ℕ
  rumbleSeen : List (List ℕ)
  total : ℕ
  valid : ℕ
deriving DecidableEq

def Activity.start : Activity := ⟨[], 0, [], 0, 0⟩

variable {F : Type}

/-- The loop for one record. -/
def activityStep (a : Activity) (r : LaRec F) : Option Activity := do
  let a := { a with total := a.total + 1 }
  if !r.mosiCrcOk then return a
  let f ← parseFrame (← fromHex r.mosiHex)
  return { a with
    valid := a.valid + 1
    dispVals := a.dispVals.insert f.disp
    ledBits := a.ledBits ||| f.leds
    rumbleSeen := if f.rumble.any (· ≠ 0) then a.rumbleSeen.insert f.rumble else a.rumbleSeen }

def fieldActivity (recs : List (LaRec F)) : Option Activity := recs.foldlM activityStep .start

/-! ### The verdicts of the report -/

/-- More than one text was seen. -/
def Activity.dispActive (a : Activity) : Bool := 1 < a.dispVals.length

/-- A bit of the LED word was set. -/
def Activity.ledsActive (a : Activity) : Bool := a.ledBits ≠ 0

/-- A rumble byte was not zero. -/
def Activity.rumbleActive (a : Activity) : Bool := a.rumbleSeen ≠ []

/-! ### Reading the hexadecimal text back -/

private theorem hexDigit_read {n : ℕ} (digit : n < 16) :
    hexDigitValue (Nat.digitChar n) = some n ∧ spaceChar (Nat.digitChar n) = false := by
  have all : ∀ k < 16, hexDigitValue (Nat.digitChar k) = some k ∧
      spaceChar (Nat.digitChar k) = false := by decide
  exact all n digit

theorem fromHex_hexText (data : List U8) : fromHex (hexText data) = some data := by
  induction data with
  | nil => rfl
  | cons b rest ih =>
    obtain ⟨high, solid⟩ := hexDigit_read (Nat.div_lt_of_lt_mul b.isLt : b.toNat / 16 < 16)
    obtain ⟨low, -⟩ := hexDigit_read (Nat.mod_lt b.toNat (by decide : 0 < 16))
    have whole : BitVec.ofNat 8 (b.toNat / 16 * 16 + b.toNat % 16) = b := by
      rw [Nat.div_add_mod', BitVec.ofNat_toNat, BitVec.setWidth_eq]
    have text : hexText (b :: rest) =
        Nat.digitChar (b.toNat / 16) :: Nat.digitChar (b.toNat % 16) :: hexText rest := rfl
    rw [text, fromHex, solid, high, low, ih]
    simp only [Bool.false_eq_true, if_false, Option.bind_eq_bind, Option.bind_some, Option.pure_def,
      whole]

end FanatecWheel.Host
