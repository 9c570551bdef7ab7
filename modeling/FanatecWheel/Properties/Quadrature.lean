import Mathlib.Algebra.BigOperators.Group.List.Basic
import Mathlib.Data.Int.ModEq
import Mathlib.Tactic.LinearCombination
import FanatecWheel.App.Encoder
import FanatecWheel.Foundation.Trace

/-!
# Quadrature decoding conserves movement

The two lines of an encoder walk round the Gray sequence. Every quarter step is in the
accumulator, in the pending delta or in a delta consumed before, whichever way the walk
turns and whenever the delta is taken.
-/

namespace FanatecWheel.App

open Foundation

/-! ### Walks of the two lines -/

/-- A sample, or a consume. -/
inductive EncoderAct
  | feed (ab : U8)
  | consume

def encoderStep (e : Encoder) : EncoderAct → Encoder × Option I8
  | .feed ab => (encoderFeed e ab, none)
  | .consume => ((encoderConsume e).1, some (encoderConsume e).2)

/-- The place of the level in the order 00, 01, 11, 10. -/
def grayPhase (ab : U8) : Fin 4 := ![0, 1, 3, 2] (Fin.ofNat 4 (ab &&& 3).toNat)

/-- One line changed, in the order of the phases. -/
def forward (t : U8 × U8) : Bool := grayPhase t.2 = grayPhase t.1 + 1

/-- One line changed, against the order of the phases. -/
def backward (t : U8 × U8) : Bool := grayPhase t.1 = grayPhase t.2 + 1

def bothChanged (t : U8 × U8) : Bool := (t.1 &&& 3) ^^^ (t.2 &&& 3) = 3

/-- Every sample with the level before it. -/
def walk : U8 → List EncoderAct → List (U8 × U8)
  | _, [] => []
  | prev, .feed ab :: rest => (prev, ab) :: walk ab rest
  | prev, .consume :: rest => walk prev rest

/-- The steps forward less the steps back. -/
def movement (walked : List (U8 × U8)) : ℤ :=
  (walked.countP forward : ℤ) - walked.countP backward

/-- The sum of the consumed deltas. -/
def consumedSum (outs : List (Option I8)) : ℤ := (outs.map fun out => (out.getD 0).toInt).sum

/-- What one sample adds to the movement. -/
def quarter (t : U8 × U8) : ℤ := if forward t then 1 else if backward t then -1 else 0

/-- No detent arrives at the limit of the delta. -/
def Unsaturated (e : Encoder) : EncoderAct → Prop
  | .feed ab =>
    ¬ (e.delta.toInt = 127 ∧ e.accum.toInt + quarter (e.prevAb, ab) = e.detentDiv.toNat) ∧
    ¬ (e.delta.toInt = -128 ∧ e.accum.toInt + quarter (e.prevAb, ab) = -e.detentDiv.toNat)
  | .consume => True

instance (e : Encoder) (act : EncoderAct) : Decidable (Unsaturated e act) :=
  match act with
  | .feed _ => inferInstanceAs (Decidable (¬ _ ∧ ¬ _))
  | .consume => isTrue trivial

/-! ### One sample -/

private theorem level_cases (ab : U8) :
    ab &&& 3 = 0 ∨ ab &&& 3 = 1 ∨ ab &&& 3 = 2 ∨ ab &&& 3 = 3 := by
  revert ab
  decide

/-- The table, entry by entry. -/
theorem transition_eq (prev ab : U8) :
    transition (Fin.ofNat 16 ((prev &&& 3) <<< 2 ||| (ab &&& 3)).toNat) =
      if bothChanged (prev, ab) then illegalStep else BitVec.ofInt 8 (quarter (prev, ab)) := by
  rcases level_cases prev with before | before | before | before <;>
    rcases level_cases ab with now | now | now | now <;>
      simp only [bothChanged, quarter, forward, backward, grayPhase, before, now] <;> rfl

theorem quarter_bounds (t : U8 × U8) : -1 ≤ quarter t ∧ quarter t ≤ 1 := by
  unfold quarter
  split
  · decide
  · split <;> decide

theorem quarter_illegal {t : U8 × U8} (both : bothChanged t = true) : quarter t = 0 := by
  obtain ⟨prev, ab⟩ := t
  revert both
  rcases level_cases prev with before | before | before | before <;>
    rcases level_cases ab with now | now | now | now <;>
      simp only [bothChanged, quarter, forward, backward, grayPhase, before, now] <;> decide

theorem quarter_phase {t : U8 × U8} (single : bothChanged t = false) :
    quarter t ≡ (grayPhase t.2).val - (grayPhase t.1).val [ZMOD 4] := by
  obtain ⟨prev, ab⟩ := t
  revert single
  rcases level_cases prev with before | before | before | before <;>
    rcases level_cases ab with now | now | now | now <;>
      simp only [bothChanged, quarter, forward, backward, grayPhase, before, now] <;> decide

/-- What holds of an encoder between two calls. -/
structure Encoder.Settled (e : Encoder) : Prop where
  rest : |e.accum.toInt| < e.detentDiv.toNat
  low : -128 ≤ e.delta.toInt
  high : e.delta.toInt ≤ 127

private theorem detentsUp_below {e : Encoder} (turns : ℕ)
    (below : e.accum.toInt < e.detentDiv.toNat) : detentsUp turns e = e := by
  cases turns with
  | zero => rfl
  | succ turns => rw [detentsUp, if_neg (not_le.mpr below)]

private theorem detentsDown_above {e : Encoder} (turns : ℕ)
    (above : -(e.detentDiv.toNat : ℤ) < e.accum.toInt) : detentsDown turns e = e := by
  cases turns with
  | zero => rfl
  | succ turns => rw [detentsDown, if_neg (not_le.mpr above)]

/-- A full detent leaves the accumulator empty. -/
private theorem detentsUp_full {e : Encoder} (full : e.accum.toInt = e.detentDiv.toNat) :
    detentsUp e.accum.toInt.toNat e = { e with
      accum := 0
      delta := if e.delta.toInt < 127 then e.delta + 1 else e.delta } := by
  have positive := (detentDiv_bounds e).1
  obtain ⟨turns, count⟩ : ∃ turns, e.accum.toInt.toNat = turns + 1 := by
    exact ⟨e.accum.toInt.toNat - 1, by omega⟩
  have empty : e.accum - e.detentDiv.setWidth 16 = 0 := by
    rw [BitVec.eq_of_toInt_eq (full.trans (toInt_detentDiv e).symm), BitVec.sub_self]
    rfl
  rw [count, detentsUp, if_pos full.ge, empty]
  apply detentsUp_below
  simp only [BitVec.ofNat_eq_ofNat, BitVec.toInt_zero]
  omega

private theorem detentsDown_full {e : Encoder} (full : e.accum.toInt = -(e.detentDiv.toNat : ℤ)) :
    detentsDown (-e.accum.toInt).toNat e = { e with
      accum := 0
      delta := if -128 < e.delta.toInt then e.delta - 1 else e.delta } := by
  have positive := (detentDiv_bounds e).1
  obtain ⟨turns, count⟩ : ∃ turns, (-e.accum.toInt).toNat = turns + 1 := by
    exact ⟨(-e.accum.toInt).toNat - 1, by omega⟩
  have empty : e.accum + e.detentDiv.setWidth 16 = 0 := by
    apply BitVec.eq_of_toInt_eq
    rw [BitVec.toInt_add, full, toInt_detentDiv, neg_add_cancel]
    rfl
  rw [count, detentsDown, if_pos full.le, empty]
  apply detentsDown_above
  simp only [BitVec.ofNat_eq_ofNat, BitVec.toInt_zero]
  omega

/-- One sample: an illegal step, a detent up or down, or a part of one. -/
theorem encoderFeed_cases {e : Encoder} (settled : e.Settled) (ab : U8) :
    let t := (e.prevAb, ab)
    let e' := { e with prevAb := ab &&& 3 }
    (bothChanged t = true ∧ encoderFeed e ab = { e' with illegal := e.illegal + 1 }) ∨
    (bothChanged t = false ∧ e.accum.toInt + quarter t = e.detentDiv.toNat ∧
      encoderFeed e ab = { e' with
        accum := 0
        delta := if e.delta.toInt < 127 then e.delta + 1 else e.delta }) ∨
    (bothChanged t = false ∧ e.accum.toInt + quarter t = -e.detentDiv.toNat ∧
      encoderFeed e ab = { e' with
        accum := 0
        delta := if -128 < e.delta.toInt then e.delta - 1 else e.delta }) ∨
    (bothChanged t = false ∧ |e.accum.toInt + quarter t| < e.detentDiv.toNat ∧
      ∃ accum : I16, accum.toInt = e.accum.toInt + quarter t ∧
        encoderFeed e ab = { e' with accum }) := by
  intro t e'
  have bounds := detentDiv_bounds e
  have rest := abs_lt.mp settled.rest
  have part := quarter_bounds t
  have table := transition_eq e.prevAb ab
  cases both : bothChanged t with
  | true =>
    left
    rw [if_pos both] at table
    refine ⟨rfl, ?_⟩
    simp only [encoderFeed, table, if_true, e']
  | false =>
    right
    rw [if_neg (Bool.eq_false_iff.mp both)] at table
    have legal : BitVec.ofInt 8 (quarter t) ≠ illegalStep := by
      unfold quarter
      split
      · decide
      · split <;> decide
    have fed : encoderFeed e ab =
        let e := { e' with accum := e.accum + (BitVec.ofInt 8 (quarter t)).signExtend 16 }
        let e := detentsUp e.accum.toInt.toNat e
        detentsDown (-e.accum.toInt).toNat e := by
      simp only [encoderFeed, table, t, e', if_neg legal]
    have value : (e.accum + (BitVec.ofInt 8 (quarter t)).signExtend 16).toInt =
        e.accum.toInt + quarter t := by
      have step : (BitVec.ofInt 8 (quarter t)).toInt = quarter t := by
        rw [BitVec.toInt_ofInt, Int.bmod_eq_of_le] <;> omega
      rw [BitVec.toInt_add, BitVec.toInt_signExtend_of_le (by decide), step, Int.bmod_eq_of_le] <;>
        omega
    -- the accumulator was below a detent, so the two loops take one turn between them or none
    generalize e.accum + (BitVec.ofInt 8 (quarter t)).signExtend 16 = accum at fed value
    simp only at fed
    rcases lt_trichotomy accum.toInt e.detentDiv.toNat with below | full | above
    · rw [detentsUp_below _ below] at fed
      rcases lt_trichotomy (-(e.detentDiv.toNat : ℤ)) accum.toInt with inside | full | under
      · right
        right
        rw [detentsDown_above _ inside] at fed
        exact ⟨rfl, abs_lt.mpr ⟨by omega, by omega⟩, accum, value, fed⟩
      · right
        left
        rw [detentsDown_full full.symm] at fed
        exact ⟨rfl, by omega, fed⟩
      · omega
    · left
      have up := @detentsUp_full { e' with accum } full
      simp only at up
      rw [up, detentsDown_above] at fed
      · exact ⟨rfl, by omega, fed⟩
      · exact neg_lt_zero.mpr (Int.natCast_pos.mpr bounds.1)
    · omega

/-! ### One step -/

private theorem delta_up {delta : I16} (low : -128 ≤ delta.toInt) :
    (if delta.toInt < 127 then delta + 1 else delta).toInt =
      if delta.toInt < 127 then delta.toInt + 1 else delta.toInt := by
  split
  · rw [BitVec.toInt_add, Int.bmod_eq_of_le] <;> simp <;> omega
  · rfl

private theorem delta_down {delta : I16} (high : delta.toInt ≤ 127) :
    (if -128 < delta.toInt then delta - 1 else delta).toInt =
      if -128 < delta.toInt then delta.toInt - 1 else delta.toInt := by
  split
  · rw [BitVec.toInt_sub, Int.bmod_eq_of_le] <;> simp <;> omega
  · rfl

private theorem empty_settled (e : Encoder) : |(0 : I16).toInt| < (e.detentDiv.toNat : ℤ) := by
  rw [BitVec.ofNat_eq_ofNat, BitVec.toInt_zero, abs_zero]
  exact Int.natCast_pos.mpr (detentDiv_bounds e).1

theorem encoderFeed_settled {e : Encoder} (settled : e.Settled) (ab : U8) :
    (encoderFeed e ab).Settled := by
  obtain ⟨rest, low, high⟩ := settled
  rcases encoderFeed_cases ⟨rest, low, high⟩ ab with ⟨-, fed⟩ | ⟨-, -, fed⟩ | ⟨-, -, fed⟩ |
    ⟨-, inside, accum, value, fed⟩ <;> rw [fed]
  · exact ⟨rest, low, high⟩
  · refine ⟨empty_settled e, ?_, ?_⟩ <;> rw [delta_up low] <;> split <;> omega
  · refine ⟨empty_settled e, ?_, ?_⟩ <;> rw [delta_down high] <;> split <;> omega
  · exact ⟨by rw [value]; exact inside, low, high⟩

/-- What a sample leaves alone. -/
theorem encoderFeed_frame {e : Encoder} (settled : e.Settled) (ab : U8) :
    (encoderFeed e ab).detentDiv = e.detentDiv ∧ (encoderFeed e ab).prevAb = ab &&& 3 ∧
      (encoderFeed e ab).illegal =
        if bothChanged (e.prevAb, ab) then e.illegal + 1 else e.illegal := by
  rcases encoderFeed_cases settled ab with ⟨both, fed⟩ | ⟨both, -, fed⟩ | ⟨both, -, fed⟩ |
    ⟨both, -, accum, -, fed⟩ <;> rw [fed, both] <;> exact ⟨rfl, rfl, rfl⟩

/-- A sample that loses no detent adds its quarter step. -/
theorem encoderFeed_conserves {e : Encoder} (settled : e.Settled) {ab : U8}
    (unsaturated : Unsaturated e (.feed ab)) :
    (e.detentDiv.toNat : ℤ) * (encoderFeed e ab).delta.toInt + (encoderFeed e ab).accum.toInt =
      e.detentDiv.toNat * e.delta.toInt + e.accum.toInt + quarter (e.prevAb, ab) := by
  have empty : (0 : I16).toInt = 0 := rfl
  rcases encoderFeed_cases settled ab with ⟨both, fed⟩ | ⟨-, full, fed⟩ | ⟨-, full, fed⟩ |
    ⟨-, -, accum, value, fed⟩ <;> rw [fed]
  · rw [quarter_illegal both, add_zero]
  · have room : e.delta.toInt < 127 := lt_of_le_of_ne settled.high fun limit =>
      unsaturated.1 ⟨limit, full⟩
    dsimp only
    rw [delta_up settled.low, if_pos room, empty]
    linear_combination -full
  · have room : -128 < e.delta.toInt := lt_of_le_of_ne settled.low fun limit =>
      unsaturated.2 ⟨limit.symm, full⟩
    dsimp only
    rw [delta_down settled.high, if_pos room, empty]
    linear_combination -full
  · simp only [value, add_assoc]

theorem encoderConsume_exact {e : Encoder} (settled : e.Settled) :
    (encoderConsume e).2.toInt = e.delta.toInt := by
  obtain ⟨-, low, high⟩ := settled
  calc (encoderConsume e).2.toInt
      = (e.delta.toNat : ℤ).bmod (2 ^ 8) := BitVec.toInt_setWidth e.delta
    _ = ((e.delta.toNat : ℤ).bmod (2 ^ 16)).bmod (2 ^ 8) :=
        (Int.bmod_bmod_of_dvd (by decide)).symm
    _ = e.delta.toInt.bmod (2 ^ 8) := by rw [BitVec.toInt_eq_toNat_bmod]
    _ = e.delta.toInt := Int.bmod_eq_of_le (by omega) (by omega)

theorem encoderConsume_settled {e : Encoder} (settled : e.Settled) :
    (encoderConsume e).1.Settled :=
  ⟨settled.rest, (by decide : -128 ≤ (0 : I16).toInt), (by decide : (0 : I16).toInt ≤ 127)⟩

/-! ### Whole runs -/

variable {e : Encoder}

private theorem encoderStep_settled (settled : e.Settled) (act : EncoderAct) :
    (encoderStep e act).1.Settled := by
  cases act with
  | feed ab => exact encoderFeed_settled settled ab
  | consume => exact encoderConsume_settled settled

theorem final_settled (settled : e.Settled) (acts : List EncoderAct) :
    (final encoderStep e acts).Settled :=
  final_invariant encoderStep settled
    (fun _ act (_ : True) settled => encoderStep_settled settled act) acts fun _ _ => trivial

private theorem final_detentDiv (settled : e.Settled) (acts : List EncoderAct) :
    (final encoderStep e acts).detentDiv = e.detentDiv := by
  induction acts generalizing e with
  | nil => rfl
  | cons act rest ih =>
    have tail := ih (encoderStep_settled settled act)
    cases act with
    | feed ab => exact tail.trans (encoderFeed_frame settled ab).1
    | consume => exact tail

private theorem level_mask (ab : U8) : ab &&& 3 &&& 3 = ab &&& 3 := by
  rw [BitVec.and_assoc]
  rfl

private theorem grayPhase_mask (ab : U8) : grayPhase (ab &&& 3) = grayPhase ab := by
  unfold grayPhase
  rw [level_mask]

/-- The walk does not depend on more than the level that the encoder keeps. -/
private theorem level_walk (prev ab : U8) :
    quarter (prev &&& 3, ab) = quarter (prev, ab) ∧
      bothChanged (prev &&& 3, ab) = bothChanged (prev, ab) := by
  constructor
  · unfold quarter forward backward
    rw [grayPhase_mask]
  · unfold bothChanged
    rw [level_mask]

private theorem movement_cons (t : U8 × U8) (walked : List (U8 × U8)) :
    movement (t :: walked) = quarter t + movement walked := by
  -- no transition goes both ways round
  have apart : ¬ (forward t = true ∧ backward t = true) := by
    simp only [forward, backward, decide_eq_true_eq]
    generalize grayPhase t.1 = p
    generalize grayPhase t.2 = q
    revert p q
    decide
  simp only [movement, quarter, List.countP_cons]
  split <;> split <;> simp_all <;> omega

/-- The sum of what has been consumed and what a consume would still take. -/
private theorem consumedSum_cons (out : Option I8) (outs : List (Option I8)) :
    consumedSum (out :: outs) = (out.getD 0).toInt + consumedSum outs := by
  rw [consumedSum, List.map_cons, List.sum_cons]
  rfl

/-- No step is lost without saturation. -/
private theorem run_conserves (settled : e.Settled) {prev : U8} (level : e.prevAb = prev &&& 3)
    (acts : List EncoderAct) (unsaturated : Along encoderStep Unsaturated e acts) :
    (e.detentDiv.toNat : ℤ) * (consumedSum (trace encoderStep e acts) +
        (final encoderStep e acts).delta.toInt) + (final encoderStep e acts).accum.toInt =
      e.detentDiv.toNat * e.delta.toInt + e.accum.toInt + movement (walk prev acts) := by
  -- a sample adds its quarter step; a consume moves the delta into the sum
  induction acts generalizing e prev with
  | nil => simp [consumedSum, trace, final, walk, movement]
  | cons act rest ih =>
    obtain ⟨here, later⟩ := unsaturated
    have next := encoderStep_settled settled act
    cases act with
    | feed ab =>
      obtain ⟨divider, level', -⟩ := encoderFeed_frame settled ab
      have tail := ih next level' later
      have step := encoderFeed_conserves settled here
      rw [level, (level_walk prev ab).1] at step
      rw [trace, consumedSum_cons, walk, movement_cons]
      simp only [encoderStep, divider] at tail
      simp only [final, List.foldl_cons, encoderStep, Option.getD_none] at tail ⊢
      rw [BitVec.ofNat_eq_ofNat, BitVec.toInt_zero, zero_add]
      linear_combination tail + step
    | consume =>
      have tail := ih next level later
      have taken := encoderConsume_exact settled
      rw [trace, consumedSum_cons, walk]
      simp only [final, List.foldl_cons, encoderStep, Option.getD_some, taken] at tail ⊢
      have empty : (encoderConsume e).1.delta.toInt = 0 := rfl
      rw [empty] at tail
      have kept : (encoderConsume e).1.detentDiv = e.detentDiv := rfl
      have kept' : (encoderConsume e).1.accum = e.accum := rfl
      rw [kept, kept'] at tail
      linear_combination tail

/-- Samples with both lines changed are counted. -/
private theorem run_illegal (settled : e.Settled) {prev : U8} (level : e.prevAb = prev &&& 3)
    (acts : List EncoderAct) : (final encoderStep e acts).illegal =
      e.illegal + BitVec.ofNat 32 ((walk prev acts).countP bothChanged) := by
  induction acts generalizing e prev with
  | nil => exact (BitVec.add_zero e.illegal).symm
  | cons act rest ih =>
    have next := encoderStep_settled settled act
    cases act with
    | feed ab =>
      obtain ⟨-, level', counted⟩ := encoderFeed_frame settled ab
      rw [level, (level_walk prev ab).2] at counted
      have tail := ih next level'
      simp only [final, List.foldl_cons, encoderStep, counted] at tail ⊢
      rw [tail, walk, List.countP_cons, BitVec.ofNat_add]
      split
      · rw [BitVec.add_assoc, BitVec.add_comm 1]
        rfl
      · rw [BitVec.add_zero]
    | consume => exact ih next level

/-- The phase follows the movement as long as no sample changes both lines. -/
private theorem run_phase (settled : e.Settled) {prev : U8} (level : e.prevAb = prev &&& 3)
    (acts : List EncoderAct) (single : ∀ t ∈ walk prev acts, bothChanged t = false) :
    movement (walk prev acts) ≡
      (grayPhase (final encoderStep e acts).prevAb).val - (grayPhase prev).val [ZMOD 4] := by
  -- a quarter step is the difference of two phases, and the differences telescope
  induction acts generalizing e prev with
  | nil =>
    simp only [final, List.foldl_nil, level, grayPhase_mask, sub_self]
    rfl
  | cons act rest ih =>
    have next := encoderStep_settled settled act
    cases act with
    | feed ab =>
      obtain ⟨-, level', -⟩ := encoderFeed_frame settled ab
      obtain ⟨first, later⟩ := List.forall_mem_cons.mp single
      have tail := ih next level' later
      have sum := (quarter_phase first).add tail
      rw [sub_add_sub_cancel'] at sum
      rw [walk, movement_cons]
      exact sum
    | consume => exact ih next level single

/-- **Movement is conserved.** For every level at the start, divider and order of samples and
consumes: what was consumed, what is pending and what is left below a detent add up to the
movement of the lines, if no detent met the limit; both lines changing is counted; without it
the phases tell the movement; and what is consumed is the delta itself. -/
theorem movement_conserved (ab detentDiv : U8) (acts : List EncoderAct) :
    let start := encoderInit ab detentDiv
    let e := final encoderStep start acts
    let divider : ℕ := if detentDiv = 0 then 4 else detentDiv.toNat
    let walked := walk ab acts
    (Along encoderStep Unsaturated start acts →
      (divider : ℤ) * (consumedSum (trace encoderStep start acts) + e.delta.toInt) +
        e.accum.toInt = movement walked) ∧
    |e.accum.toInt| < divider ∧
    e.illegal = BitVec.ofNat 32 (walked.countP bothChanged) ∧
    ((∀ t ∈ walked, bothChanged t = false) →
      movement walked ≡ (grayPhase e.prevAb).val - (grayPhase ab).val [ZMOD 4]) ∧
    -128 ≤ e.delta.toInt ∧ e.delta.toInt ≤ 127 ∧ (encoderConsume e).2.toInt = e.delta.toInt := by
  intro start e divider walked
  have divides : (start.detentDiv.toNat : ℤ) = divider := by
    simp only [start, encoderInit, divider]
    split <;> rfl
  have begun : start.Settled := by
    refine ⟨?_, (by decide : -128 ≤ (0 : I16).toInt), (by decide : (0 : I16).toInt ≤ 127)⟩
    exact empty_settled start
  have level : start.prevAb = ab &&& 3 := rfl
  have settled : e.Settled := final_settled begun acts
  refine ⟨fun unsaturated => ?_, ?_, ?_, run_phase begun level acts, settled.low, settled.high,
    encoderConsume_exact settled⟩
  · have conserved := run_conserves begun level acts unsaturated
    have empty : start.delta.toInt = 0 ∧ start.accum.toInt = 0 := ⟨rfl, rfl⟩
    rw [divides, empty.1, empty.2, mul_zero, zero_add, zero_add] at conserved
    exact conserved
  · have kept : e.detentDiv = start.detentDiv := final_detentDiv begun acts
    rw [← divides, ← kept]
    exact settled.rest
  · rw [run_illegal begun level acts]
    exact BitVec.zero_add _

end FanatecWheel.App
