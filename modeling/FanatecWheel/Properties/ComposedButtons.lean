import Mathlib.Data.List.FinRange
import FanatecWheel.App.InputShell

/-!
# Which bits a composed snapshot has set

Buttons, ladder, funky switch and the manual word all write one word. The ladder
and the switch only set bits and the manual word is or-ed in, but a button that is
not pressed clears the bit it is mapped to. So the last of the buttons that share a
bit decides it, and a pressed one before it is dropped.
-/

namespace FanatecWheel.App

open Rimlink

/-! ### One change of one bit -/

/-- Bits count from 1. -/
def bitSet (buttons : U32) (b : ℕ) : Bool := buttons.getLsbD (b - 1)

theorem bitSet_or (x y : U32) (b : ℕ) : bitSet (x ||| y) b = (bitSet x b || bitSet y b) :=
  BitVec.getLsbD_or

/-- `1 << (bit - 1)`. -/
theorem bitSet_single (bit : U8) (low : 1 ≤ bit) (b : ℕ) (counted : 1 ≤ b) :
    bitSet (1#32 <<< (bit - 1).toNat) b = decide (bit.toNat = b ∧ b ≤ 32) := by
  have one : (1 : U8).toNat = 1 := rfl
  have below := BitVec.le_def.mp low
  have place : (bit - 1).toNat = bit.toNat - 1 := by
    rw [BitVec.toNat_sub_of_le low, one]
  rw [bitSet, place, BitVec.getLsbD_shiftLeft, BitVec.getLsbD_one]
  rw [one] at below
  simp only [← decide_not, ← Bool.decide_and]
  congr 1
  apply propext
  constructor
  · rintro ⟨⟨inside, above⟩, same⟩
    omega
  · rintro ⟨same, inside⟩
    omega

/-- `rimlink_button_bit_change` decides its own bit and no other. -/
theorem bitSet_change (buttons : U32) (bit : U8) (known : 1 ≤ bit ∧ bit ≤ 24) (on : Bool) (b : ℕ)
    (counted : 1 ≤ b) :
    bitSet (buttonBitChange buttons bit on) b = if bit.toNat = b then on else bitSet buttons b := by
  have high : bit.toNat ≤ 24 := BitVec.le_def.mp known.2
  have valid : ¬ (bit < 1 ∨ 24 < bit) := by
    simp only [not_or, BitVec.not_lt]
    exact known
  have single := bitSet_single bit known.1 b counted
  simp only [buttonBitChange, if_neg valid]
  -- the mask is one at the bit itself and zero at every other
  by_cases own : bit.toNat = b
  · have inside : b ≤ 32 := by omega
    have within : b - 1 < 32 := by omega
    simp only [own, inside, and_self, decide_true] at single
    cases on with
    | true => simp only [if_true, bitSet_or, single, Bool.or_true, own]
    | false =>
      simp only [bitSet] at single
      simp only [Bool.false_eq_true, if_false, bitSet, BitVec.getLsbD_and, BitVec.getLsbD_not, single,
        Bool.not_true, Bool.and_false, own, if_true]
  · simp only [own, false_and, decide_false] at single
    cases on with
    | true => simp only [if_true, bitSet_or, single, Bool.or_false, own, if_false]
    | false =>
      simp only [bitSet] at single
      simp only [Bool.false_eq_true, if_false, bitSet, BitVec.getLsbD_and, BitVec.getLsbD_not, single,
        Bool.not_false, Bool.and_true, own]
      by_cases within : b - 1 < 32
      · simp [within]
      · simp [within, BitVec.getLsbD_of_ge buttons (b - 1) (by omega)]

/-- The top bit is out of reach of `rimlink_button_bit_change`. -/
theorem bitSet_change_top {buttons : U32} (clear : bitSet buttons 32 = false) (bit : U8)
    (on : Bool) : bitSet (buttonBitChange buttons bit on) 32 = false := by
  by_cases ignored : bit < 1 ∨ 24 < bit
  · simp only [buttonBitChange, if_pos ignored, clear]
  · simp only [not_or, BitVec.not_lt] at ignored
    have small : bit.toNat ≤ 24 := BitVec.le_def.mp ignored.2
    have other : bit.toNat ≠ 32 := by omega
    rw [bitSet_change buttons bit ignored on 32 (by decide), if_neg other]
    exact clear

/-! ### The buttons -/

/-- The debounced state of a button in the tick. -/
def pressed (s : InputSvc) (x : Samples) (i : Fin 6) : Bool :=
  (debounceFeed (s.btnDb i) (x.buttons i)).2

/-- The button is the last one mapped to its bit. -/
def LastMapped (s : InputSvc) (j : Fin 6) : Prop :=
  ∀ k, s.settings.buttonMap k = s.settings.buttonMap j → k ≤ j

/-- Down a sorted list, the last hit decides. -/
private theorem foldl_lastHit {l : List (Fin 6)} (sorted : l.Pairwise (· < ·))
    (hit : Fin 6 → Prop) [DecidablePred hit] (val : Fin 6 → Bool) :
    l.foldl (fun on i => if hit i then val i else on) false = true ↔
      ∃ j ∈ l, hit j ∧ val j = true ∧ ∀ k ∈ l, hit k → k ≤ j := by
  induction l using List.reverseRecOn with
  | nil => simp
  | append_singleton before i ih =>
    obtain ⟨earlier, -, below⟩ := List.pairwise_append.mp sorted
    rw [List.foldl_append, List.foldl_cons, List.foldl_nil]
    split
    next hits =>
      constructor
      · intro on
        refine ⟨i, by simp, hits, on, fun k member _ => ?_⟩
        rcases List.mem_append.mp member with inside | last
        · exact le_of_lt (below k inside i (List.mem_singleton_self i))
        · exact le_of_eq (List.mem_singleton.mp last)
      · rintro ⟨j, member, -, on, latest⟩
        -- nothing in the list comes after `i`
        have after := latest i (by simp) hits
        rcases List.mem_append.mp member with inside | last
        · exact absurd after (not_le_of_gt (below j inside i (List.mem_singleton_self i)))
        · rw [List.mem_singleton.mp last] at on
          exact on
    next misses =>
      rw [ih earlier]
      constructor
      · rintro ⟨j, member, hits, on, latest⟩
        refine ⟨j, List.mem_append_left _ member, hits, on, fun k inside hit => ?_⟩
        rcases List.mem_append.mp inside with inside | last
        · exact latest k inside hit
        · rw [List.mem_singleton.mp last] at hit
          exact absurd hit misses
      · rintro ⟨j, member, hits, on, latest⟩
        rcases List.mem_append.mp member with inside | last
        · exact ⟨j, inside, hits, on, fun k earlier => latest k (List.mem_append_left _ earlier)⟩
        · rw [List.mem_singleton.mp last] at hits
          exact absurd hits misses

private theorem bitSet_buttons (s : InputSvc) (x : Samples)
    (mapped : ∀ i, 1 ≤ s.settings.buttonMap i ∧ s.settings.buttonMap i ≤ buttonBits) (b : ℕ)
    (counted : 1 ≤ b) (l : List (Fin 6)) (buttons : U32) :
    bitSet (l.foldl (fun buttons i =>
        buttonBitChange buttons (s.settings.buttonMap i) (pressed s x i)) buttons) b =
      l.foldl (fun on i => if (s.settings.buttonMap i).toNat = b then pressed s x i else on)
        (bitSet buttons b) := by
  have known : ∀ i, 1 ≤ s.settings.buttonMap i ∧ s.settings.buttonMap i ≤ 24 :=
    fun i => ⟨(mapped i).1, BitVec.le_trans (mapped i).2 (by decide)⟩
  induction l generalizing buttons with
  | nil => rfl
  | cons i rest ih =>
    rw [List.foldl_cons, List.foldl_cons, ih, bitSet_change buttons _ (known i) _ b counted]

/-- After the buttons a bit is set if the last button mapped to it is pressed. -/
theorem buttonsStage_bits (s : InputSvc) (x : Samples)
    (mapped : ∀ i, 1 ≤ s.settings.buttonMap i ∧ s.settings.buttonMap i ≤ buttonBits) (b : ℕ)
    (counted : 1 ≤ b) :
    bitSet (buttonsStage s x).2 b = true ↔
      ∃ j, (s.settings.buttonMap j).toNat = b ∧ pressed s x j = true ∧ LastMapped s j := by
  have folded := bitSet_buttons s x mapped b counted (List.finRange 6) 0
  have empty : bitSet 0 b = false := BitVec.getLsbD_zero
  rw [empty] at folded
  have word : (buttonsStage s x).2 = (List.finRange 6).foldl (fun buttons i =>
      buttonBitChange buttons (s.settings.buttonMap i) (pressed s x i)) 0 := rfl
  rw [word, folded, foldl_lastHit (List.pairwise_lt_finRange 6)]
  simp only [List.mem_finRange, true_and, LastMapped, forall_const]
  refine exists_congr fun j => and_congr_right fun own => and_congr_right fun _ => ?_
  simp only [← own, BitVec.toNat_inj]

/-! ### Ladder, funky switch and manual word -/

/-- The bits of a position of the ladder. -/
def dpadBits : DpadPos → List RimButtonBit
  | 0 => []
  | 1 => [.dpadRight]
  | 2 => [.dpadLeft]
  | 3 => [.dpadButton, .joystickButton]
  | 4 => [.dpadDown]
  | 5 => [.dpadUp]
  | 6 => [.menu]
  | 7 => [.dpadButton]

def funkyDirBits : FunkyDir → List RimButtonBit
  | .idle => []
  | .up => [.dpadUp]
  | .down => [.dpadDown]
  | .left => [.dpadLeft]
  | .right => [.dpadRight]

/-- The bits of the funky switch, direction and push. -/
def funkyBits (f : Funky) : List RimButtonBit :=
  funkyDirBits (funkyDirGet f) ++ if funkyPushGet f then [.dpadButton] else []

def Maps (controls : List RimButtonBit) (b : ℕ) : Prop := ∃ c ∈ controls, c.bit.toNat = b

instance decidableMaps (controls : List RimButtonBit) (b : ℕ) : Decidable (Maps controls b) :=
  inferInstanceAs (Decidable (∃ c ∈ controls, c.bit.toNat = b))

private def setControls (controls : List RimButtonBit) (buttons : U32) : U32 :=
  controls.foldl (fun buttons c => buttonBitChange buttons c.bit true) buttons

private theorem dpadApplyBits_controls (buttons : U32) (pos : DpadPos) :
    dpadApplyBits buttons pos true = setControls (dpadBits pos) buttons := by
  fin_cases pos <;> rfl

private theorem funkyApply_controls (f : Funky) (buttons : U32) :
    funkyApply f buttons = setControls (funkyBits f) buttons := by
  unfold funkyApply funkyBits
  cases funkyDirGet f <;> cases funkyPushGet f <;> rfl

private theorem controls_known (c : RimButtonBit) : 1 ≤ c.bit ∧ c.bit ≤ 24 := by
  cases c <;> decide

/-- Setting controls clears nothing. -/
private theorem bitSet_setControls (controls : List RimButtonBit) (buttons : U32) (b : ℕ)
    (counted : 1 ≤ b) :
    bitSet (setControls controls buttons) b = true ↔
      bitSet buttons b = true ∨ Maps controls b := by
  induction controls generalizing buttons with
  | nil => simp [setControls, Maps]
  | cons c rest ih =>
    have later := ih (buttonBitChange buttons c.bit true)
    rw [bitSet_change buttons _ (controls_known c) true b counted] at later
    have stepped : setControls (c :: rest) buttons =
        setControls rest (buttonBitChange buttons c.bit true) := rfl
    rw [stepped, later]
    simp only [Maps, List.exists_mem_cons_iff]
    split
    next own => simp only [own, true_or, or_true]
    next other => simp only [other, false_or]

/-! ### The composed word -/

/-- The bit comes from the ladder, the funky switch or the manual word. -/
def Elsewhere (s : InputSvc) (x : Samples) (b : ℕ) : Prop :=
  Maps (dpadBits (dpadStage s x).dpadPrevPos) b ∨ Maps (funkyBits (funkyStage s x).funky) b ∨
    bitSet s.manualBits b = true

/-- Some control of the rim asks for the bit. -/
def Asked (s : InputSvc) (x : Samples) (b : ℕ) : Prop :=
  (∃ i, pressed s x i = true ∧ (s.settings.buttonMap i).toNat = b) ∨ Elsewhere s x b

/-- Of the buttons that share a bit with a pressed one, the last is pressed too, or the
bit comes from elsewhere. -/
def LastPressed (s : InputSvc) (x : Samples) : Prop :=
  ∀ i, pressed s x i = true →
    (∃ j, s.settings.buttonMap j = s.settings.buttonMap i ∧ pressed s x j = true ∧
      LastMapped s j) ∨ Elsewhere s x (s.settings.buttonMap i).toNat

theorem dpadStage_manualBits (s : InputSvc) (x : Samples) :
    (dpadStage s x).manualBits = s.manualBits := by
  unfold dpadStage
  split <;> rfl

private theorem dpadStage_funky (s : InputSvc) (x : Samples) :
    (dpadStage s x).funky = s.funky := by
  unfold dpadStage
  split <;> rfl

private theorem dpadStage_position (s : InputSvc) (x : Samples) :
    (dpadStage (buttonsStage s x).1 x).dpadPrevPos = (dpadStage s x).dpadPrevPos := by
  unfold dpadStage
  split <;> rfl

private theorem inputCompose_buttons (s : InputSvc) (x : Samples) :
    (inputCompose s x).2.buttons =
      setControls (funkyBits (funkyStage s x).funky)
        (setControls (dpadBits (dpadStage s x).dpadPrevPos) (buttonsStage s x).2) |||
          s.manualBits := by
  rw [← funkyApply_controls, ← dpadApplyBits_controls, ← dpadStage_position]
  simp only [inputCompose, snapStage, consumeStage, clutchStage, funkyStage, encoderStage,
    dpadStage_manualBits, dpadStage_funky, buttonsStage]

theorem composed_bits (s : InputSvc) (x : Samples)
    (mapped : ∀ i, 1 ≤ s.settings.buttonMap i ∧ s.settings.buttonMap i ≤ buttonBits) (b : ℕ)
    (counted : 1 ≤ b) :
    bitSet (inputCompose s x).2.buttons b = true ↔
      (∃ j, (s.settings.buttonMap j).toNat = b ∧ pressed s x j = true ∧ LastMapped s j) ∨
        Elsewhere s x b := by
  rw [inputCompose_buttons, bitSet_or, Bool.or_eq_true, bitSet_setControls _ _ b counted,
    bitSet_setControls _ _ b counted, buttonsStage_bits s x mapped b counted]
  simp only [Elsewhere, or_assoc]

private theorem buttons_top_clear (s : InputSvc) (x : Samples) (l : List (Fin 6)) {buttons : U32}
    (clear : bitSet buttons 32 = false) :
    bitSet (l.foldl (fun buttons i =>
      buttonBitChange buttons (s.settings.buttonMap i) (pressed s x i)) buttons) 32 = false := by
  induction l generalizing buttons with
  | nil => exact clear
  | cons i rest ih => exact ih (bitSet_change_top clear _ _)

/-- No control and no call of `input_svc_manual_bit` reaches the top bit of the word. -/
theorem composed_top_clear {s : InputSvc} (clear : bitSet s.manualBits 32 = false)
    (x : Samples) : bitSet (inputCompose s x).2.buttons 32 = false := by
  have buttons : bitSet (buttonsStage s x).2 32 = false :=
    buttons_top_clear s x (List.finRange 6) BitVec.getLsbD_zero
  have ladder : ∀ pos, ¬ Maps (dpadBits pos) 32 := by decide
  have switch : ¬ Maps (funkyBits (funkyStage s x).funky) 32 := by
    unfold funkyBits
    cases funkyDirGet (funkyStage s x).funky <;>
      cases funkyPushGet (funkyStage s x).funky <;> decide
  rw [inputCompose_buttons, bitSet_or, clear, Bool.or_false, ← Bool.not_eq_true,
    bitSet_setControls _ _ 32 (by decide), bitSet_setControls _ _ 32 (by decide), buttons]
  simp only [Bool.false_eq_true, ladder, switch, or_self, not_false_eq_true]

/-- **No pressed control is dropped**, exactly while the last of the buttons that share a
bit is pressed whenever one of them is. -/
theorem asked_bits_composed (s : InputSvc) (x : Samples)
    (mapped : ∀ i, 1 ≤ s.settings.buttonMap i ∧ s.settings.buttonMap i ≤ buttonBits) :
    (∀ b, 1 ≤ b → (bitSet (inputCompose s x).2.buttons b = true ↔ Asked s x b)) ↔
      LastPressed s x := by
  constructor
  · intro kept i down
    have low := BitVec.le_def.mp (mapped i).1
    have asked : Asked s x (s.settings.buttonMap i).toNat := .inl ⟨i, down, rfl⟩
    have set := (composed_bits s x mapped _ low).mp ((kept _ low).mpr asked)
    rcases set with ⟨j, own, on, last⟩ | elsewhere
    · exact .inl ⟨j, BitVec.eq_of_toNat_eq own, on, last⟩
    · exact .inr elsewhere
  · intro lasts b counted
    rw [composed_bits s x mapped b counted]
    constructor
    · rintro (⟨j, own, on, -⟩ | elsewhere)
      · exact .inl ⟨j, on, own⟩
      · exact .inr elsewhere
    · rintro (⟨i, down, rfl⟩ | elsewhere)
      · rcases lasts i down with ⟨j, own, on, last⟩ | elsewhere
        · exact .inl ⟨j, congrArg BitVec.toNat own, on, last⟩
        · exact .inr elsewhere
      · exact .inr elsewhere

instance (s : InputSvc) (j : Fin 6) : Decidable (LastMapped s j) :=
  inferInstanceAs (Decidable (∀ k, _ → k ≤ j))

instance (s : InputSvc) (x : Samples) (b : ℕ) : Decidable (Elsewhere s x b) :=
  inferInstanceAs (Decidable (_ ∨ _ ∨ _))

instance (s : InputSvc) (x : Samples) : Decidable (LastPressed s x) :=
  inferInstanceAs (Decidable (∀ _, _ → (∃ j, _ ∧ _ ∧ LastMapped s j) ∨ Elsewhere s x _))

/-- A tick in which one button is held. -/
def buttonOnly (i : Fin 6) : Samples where
  buttons := fun k => k == i
  dpadAdc := none
  encAb := fun _ => ⟨false, false⟩
  fk := fun _ => false
  clutchAdc := fun _ => none
  t0 := 0
  t1 := 0

/-- The second button shares the bit of the first one, 8, and one of the two has been held for
a tick. -/
def sharedBit (held : Fin 6) : InputSvc :=
  (inputTick (inputCall (inputSvcInit .default fun _ => ⟨false, false⟩) (.mapSet 1 8))
    (buttonOnly held)).1

/-- The later button reaches its bit. -/
theorem asked_bits_composed_later :
    let s := sharedBit 1
    ∀ b, 1 ≤ b → (bitSet (inputCompose s (buttonOnly 1)).2.buttons b = true ↔
      Asked s (buttonOnly 1) b) :=
  (asked_bits_composed (sharedBit 1) (buttonOnly 1) (by decide +kernel)).mpr (by decide +kernel)

/-- The earlier one does not: the released button after it clears the bit. -/
theorem asked_bit_dropped :
    let s := sharedBit 0
    Asked s (buttonOnly 0) 8 ∧ bitSet (inputCompose s (buttonOnly 0)).2.buttons 8 = false :=
  ⟨.inl ⟨0, by decide +kernel, by decide +kernel⟩, by decide +kernel⟩

end FanatecWheel.App
