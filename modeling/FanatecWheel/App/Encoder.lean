import FanatecWheel.Foundation.Words

/-!
# Quadrature decoder

`app/src/encoder.c`: a transition table over the previous and the current A/B
level, an accumulator of quarter steps, and the detents since the last consume,
which saturate at the range of `int8_t`.
-/

namespace FanatecWheel.App

/-- `struct encoder`. `encoder_init` never sets a zero divider, so that the
loops of `encoder_feed` end. -/
structure Encoder where
  prevAb : U8
  accum : I16
  delta : I16
  illegal : U32
  detentDiv : U8
  divides : detentDiv ≠ 0

/-- `ILLEGAL`: both lines changed in one sample. -/
def illegalStep : I8 := 2

/-- `transition`, indexed by the previous level and the current one. -/
def transition : Fin 16 → I8 :=
  ![0, 1, -1, illegalStep,
    -1, 0, illegalStep, 1,
    1, illegalStep, 0, -1,
    illegalStep, -1, 1, 0]

def encoderInit (ab : U8) (detentDiv : U8) : Encoder where
  prevAb := ab &&& 3
  accum := 0
  delta := 0
  illegal := 0
  detentDiv := if detentDiv = 0 then 4 else detentDiv
  divides := by
    split
    · decide
    · assumption

/-- The loop of `encoder_feed` that turns quarter steps into positive detents.
Every turn takes at least one from the accumulator, so its value bounds the
turns. -/
def detentsUp : ℕ → Encoder → Encoder
  | 0, e => e
  | turns + 1, e =>
    if (e.detentDiv.toNat : ℤ) ≤ e.accum.toInt then
      detentsUp turns { e with
        accum := e.accum - e.detentDiv.setWidth 16
        delta := if e.delta.toInt < 127 then e.delta + 1 else e.delta }
    else e

/-- The same for negative detents. -/
def detentsDown : ℕ → Encoder → Encoder
  | 0, e => e
  | turns + 1, e =>
    if e.accum.toInt ≤ -(e.detentDiv.toNat : ℤ) then
      detentsDown turns { e with
        accum := e.accum + e.detentDiv.setWidth 16
        delta := if -128 < e.delta.toInt then e.delta - 1 else e.delta }
    else e

def encoderFeed (e : Encoder) (ab : U8) : Encoder :=
  let index := (e.prevAb &&& 3) <<< 2 ||| (ab &&& 3)
  let step := transition (Fin.ofNat 16 index.toNat)
  let e := { e with prevAb := ab &&& 3 }
  if step = illegalStep then { e with illegal := e.illegal + 1 }
  else
    let e := { e with accum := e.accum + step.signExtend 16 }
    -- one of the two loops does nothing
    let e := detentsUp e.accum.toInt.toNat e
    detentsDown (-e.accum.toInt).toNat e

/-- `encoder_consume`, with the delta it returns. -/
def encoderConsume (e : Encoder) : Encoder × I8 := ({ e with delta := 0 }, e.delta.setWidth 8)

/-! ### The loops run to their end -/

theorem detentDiv_bounds (e : Encoder) :
    0 < e.detentDiv.toNat ∧ e.detentDiv.toNat < 256 := by
  refine ⟨?_, e.detentDiv.isLt⟩
  have nonzero := e.divides
  bv_omega

theorem toInt_detentDiv (e : Encoder) :
    (e.detentDiv.setWidth 16).toInt = e.detentDiv.toNat := by
  have small := (detentDiv_bounds e).2
  rw [BitVec.toInt_setWidth]
  simp only [Int.bmod]
  omega

/-- The first loop ends below one detent. -/
theorem detentsUp_done (turns : ℕ) (e : Encoder) (enough : e.accum.toInt ≤ turns) :
    (detentsUp turns e).accum.toInt < e.detentDiv.toNat := by
  induction turns generalizing e with
  | zero =>
    have positive := (detentDiv_bounds e).1
    simp only [detentsUp]
    omega
  | succ turns ih =>
    have positive := (detentDiv_bounds e).1
    unfold detentsUp
    split
    next full =>
      -- a full detent is left, so the subtraction cannot wrap
      have left : (e.accum - e.detentDiv.setWidth 16).toInt =
          e.accum.toInt - e.detentDiv.toNat := by
        have high := e.accum.toInt_lt
        rw [BitVec.toInt_sub, toInt_detentDiv, Int.bmod_eq_of_le] <;> omega
      apply ih
      simp only [left]
      omega
    next rest => omega

/-- The second loop ends above minus one detent. -/
theorem detentsDown_done (turns : ℕ) (e : Encoder) (enough : -e.accum.toInt ≤ turns) :
    -(e.detentDiv.toNat : ℤ) < (detentsDown turns e).accum.toInt := by
  induction turns generalizing e with
  | zero =>
    have positive := (detentDiv_bounds e).1
    simp only [detentsDown]
    omega
  | succ turns ih =>
    have positive := (detentDiv_bounds e).1
    unfold detentsDown
    split
    next full =>
      -- nor the addition, below minus one detent
      have left : (e.accum + e.detentDiv.setWidth 16).toInt =
          e.accum.toInt + e.detentDiv.toNat := by
        have low := e.accum.le_toInt
        rw [BitVec.toInt_add, toInt_detentDiv, Int.bmod_eq_of_le] <;> omega
      apply ih
      simp only [left]
      omega
    next rest => omega

end FanatecWheel.App
