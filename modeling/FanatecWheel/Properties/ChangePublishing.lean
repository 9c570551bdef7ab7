import FanatecWheel.Foundation.Trace
import FanatecWheel.Properties.ComposedButtons

/-!
# Publishing on change

A tick compares its snapshot with the last published one through the buttons, one
byte that is the XOR of axes and encoder, and the encoder. Two snapshots of one
signature pass for equal, so that a change can wait for the keepalive.
-/

namespace FanatecWheel.App

open Foundation Rimlink

/-! ### What a tick remembers of its publishes -/

/-- The words that decide whether a tick publishes. -/
structure PublishMemory where
  prevButtons : U32
  prevAxisSig : U8
  hold : U32

def InputSvc.memory (s : InputSvc) : PublishMemory := ⟨s.prevButtons, s.prevAxisSig, s.hold⟩

/-- What composing a snapshot leaves alone: the memory and the manual word. -/
private def carried (s : InputSvc) : PublishMemory × U32 := (s.memory, s.manualBits)

private theorem dpadStage_carried (s : InputSvc) (x : Samples) :
    carried (dpadStage s x) = carried s := by
  unfold dpadStage
  split <;> rfl

private theorem clutchModeSet_carried {s t : InputSvc} {mode bite : U8}
    (set : inputSvcClutchModeSet s mode bite = some t) : carried t = carried s := by
  unfold inputSvcClutchModeSet at set
  split at set
  · cases set
  · cases set
    rfl

private theorem clutchChordCheck_carried (s : InputSvc) (buttons : U32) :
    carried (clutchChordCheck s buttons) = carried s := by
  obtain ⟨chord, same | ⟨next, t, set, same⟩⟩ := clutchChordCheck_cases s buttons
  · rw [same]
    rfl
  · have kept := clutchModeSet_carried set
    rw [same]
    exact kept

private theorem buttonsStage_carried (s : InputSvc) (x : Samples) :
    carried (buttonsStage s x).1 = carried s := rfl

private theorem encoderStage_carried (s : InputSvc) (x : Samples) :
    carried (encoderStage s x) = carried s := rfl

private theorem funkyStage_carried (s : InputSvc) (x : Samples) :
    carried (funkyStage s x) = carried s := rfl

private theorem clutchStage_carried (s : InputSvc) (x : Samples) :
    carried (clutchStage s x) = carried s := rfl

private theorem consumeStage_carried (s : InputSvc) :
    carried (consumeStage s) = carried s := rfl

private theorem inputCompose_carried (s : InputSvc) (x : Samples) :
    carried (inputCompose s x).1 = carried s := by
  simp only [inputCompose, clutchChordCheck_carried, consumeStage_carried, clutchStage_carried,
    funkyStage_carried, encoderStage_carried, dpadStage_carried, buttonsStage_carried]

theorem inputCompose_memory (s : InputSvc) (x : Samples) :
    (inputCompose s x).1.memory = s.memory := congrArg Prod.fst (inputCompose_carried s x)

theorem inputTick_manualBits (s : InputSvc) (x : Samples) :
    (inputTick s x).1.manualBits = s.manualBits := by
  have composed : (inputCompose s x).1.manualBits = s.manualBits :=
    congrArg Prod.snd (inputCompose_carried s x)
  rw [← composed]
  simp only [inputTick]
  rcases publishStage_cases (inputCompose s x).1 (inputCompose s x).2 with
    ⟨-, same⟩ | ⟨-, -, same⟩ | ⟨-, -, same⟩ <;> rw [same]

/-- `changed`, as a test on the memory. -/
def PublishMemory.Changed (m : PublishMemory) (snap : RimInputs) : Prop :=
  snap.buttons ≠ m.prevButtons ∨ axisSig snap ≠ m.prevAxisSig ∨ snap.encoder ≠ 0

instance (m : PublishMemory) (snap : RimInputs) : Decidable (m.Changed snap) :=
  inferInstanceAs (Decidable (_ ∨ _ ∨ _))

theorem PublishMemory.not_changed (m : PublishMemory) (snap : RimInputs) : ¬ m.Changed snap ↔
    snap.buttons = m.prevButtons ∧ axisSig snap = m.prevAxisSig ∧ snap.encoder = 0 := by
  simp only [Changed, not_or, ne_eq, not_not]

private theorem snapChanged_memory (s : InputSvc) (snap : RimInputs) :
    snapChanged s snap = decide (s.memory.Changed snap) := rfl

/-- A tick publishes its snapshot on a change and on the twentieth tick without one. -/
theorem inputTick_cases (s : InputSvc) (x : Samples) :
    (s.memory.Changed (inputCompose s x).2 ∧
      (inputTick s x).2 = some (inputCompose s x).2 ∧
      (inputTick s x).1.memory =
        ⟨(inputCompose s x).2.buttons, axisSig (inputCompose s x).2, s.hold⟩) ∨
    (¬ s.memory.Changed (inputCompose s x).2 ∧ 20 ≤ s.hold + 1 ∧
      (inputTick s x).2 = some (inputCompose s x).2 ∧
      (inputTick s x).1.memory = { s.memory with hold := 0 }) ∨
    (¬ s.memory.Changed (inputCompose s x).2 ∧ s.hold + 1 < 20 ∧
      (inputTick s x).2 = none ∧
      (inputTick s x).1.memory = { s.memory with hold := s.hold + 1 }) := by
  have memory := inputCompose_memory s x
  have hold : (inputCompose s x).1.hold = s.hold := congrArg PublishMemory.hold memory
  have cases := publishStage_cases (inputCompose s x).1 (inputCompose s x).2
  simp only [snapChanged_memory, memory, hold, decide_eq_true_eq, decide_eq_false_iff_not] at cases
  rcases cases with ⟨changed, same⟩ | ⟨quiet, full, same⟩ | ⟨quiet, open_, same⟩
  · refine .inl ⟨changed, ?_, ?_⟩
    · simp only [inputTick, same]
    · simp only [inputTick, same, InputSvc.memory]
  · refine .inr (.inl ⟨quiet, full, ?_, ?_⟩)
    · simp only [inputTick, same]
    · rw [← memory]
      simp only [inputTick, same, InputSvc.memory]
  · refine .inr (.inr ⟨quiet, open_, ?_, ?_⟩)
    · simp only [inputTick, same]
    · rw [← memory]
      simp only [inputTick, same, InputSvc.memory]

/-! ### The service with its last published snapshot -/

/-- A tick, or a call of another thread. -/
inductive InputAct
  | tick (x : Samples)
  | shell (c : InputCall)

/-- The input service with the snapshot it published last, which it does not keep itself. -/
structure PublishLog where
  input : InputSvc
  last : Option RimInputs

def PublishLog.boot (settings : RimSettings) (levels : Fin 4 → AbLevel) : PublishLog :=
  ⟨inputSvcInit settings levels, none⟩

/-- A step, with the snapshot it publishes. -/
def publishStep (s : PublishLog) : InputAct → PublishLog × Option RimInputs
  | .tick x =>
    let ticked := inputTick s.input x
    (⟨ticked.1, ticked.2.or s.last⟩, ticked.2)
  | .shell c => (⟨inputCall s.input c, s.last⟩, none)

/-- Snapshots that differ in nothing but the time stamp. -/
def SameInputs (a b : RimInputs) : Prop :=
  a.buttons = b.buttons ∧ a.axisX = b.axisX ∧ a.axisY = b.axisY ∧ a.encoder = b.encoder

instance (a b : RimInputs) : Decidable (SameInputs a b) :=
  inferInstanceAs (Decidable (_ ∧ _ ∧ _ ∧ _))

/-- A tick whose snapshot differs from the last published one publishes it. -/
def MissesNothing (s : PublishLog) : InputAct → Prop
  | .tick x => (∀ last ∈ s.last, ¬ SameInputs (inputCompose s.input x).2 last) →
      (inputTick s.input x).2 = some (inputCompose s.input x).2
  | .shell _ => True

/-- Buttons and signature are those of the last published snapshot, the encoder rests, but the
axes differ, and it is not the turn of the keepalive. -/
def Collides (s : PublishLog) : InputAct → Prop
  | .tick x =>
    let snap := (inputCompose s.input x).2
    s.input.hold + 1 < 20 ∧ ∃ last ∈ s.last, snap.buttons = last.buttons ∧
      axisSig snap = axisSig last ∧ snap.encoder = 0 ∧
      (snap.axisX ≠ last.axisX ∨ snap.axisY ≠ last.axisY)
  | .shell _ => False

/-! ### The memory is that of the last publish -/

/-- Before the first publish the remembered buttons are none that a tick can compose; after
it the memory is that of the last published snapshot. -/
structure PublishLog.Faithful (s : PublishLog) : Prop where
  clear : bitSet s.input.manualBits 32 = false
  unpublished : s.last = none → s.input.prevButtons = BitVec.allOnes 32
  published : ∀ last ∈ s.last,
    s.input.prevButtons = last.buttons ∧ s.input.prevAxisSig = axisSig last

theorem PublishLog.boot_faithful (settings : RimSettings) (levels : Fin 4 → AbLevel) :
    (PublishLog.boot settings levels).Faithful where
  clear := BitVec.getLsbD_zero
  unpublished := fun _ => rfl
  published := fun _ member => nomatch member

theorem manualBit_word (s : InputSvc) (bit : U8) (on : Bool) :
    inputSvcManualBit s bit on =
      { s with manualBits := buttonBitChange s.manualBits bit on } := by
  unfold inputSvcManualBit buttonBitChange
  split
  · rfl
  · cases on <;> rfl

private theorem manualToggle_clear {s : InputSvc} (clear : bitSet s.manualBits 32 = false)
    (bit : U8) : bitSet (inputSvcManualToggle s bit).manualBits 32 = false := by
  unfold inputSvcManualToggle
  split
  · exact clear
  next known =>
    simp only [not_or, BitVec.not_lt] at known
    have small : bit.toNat ≤ 24 := BitVec.le_def.mp known.2
    have other : bit.toNat ≠ 32 := by omega
    have single := bitSet_single bit known.1 32 (by decide)
    simp only [other, false_and, decide_false] at single
    simp only [bitSet] at clear single ⊢
    simp only [BitVec.getLsbD_xor, clear, single, Bool.xor_false]

/-- No call of another thread touches the memory or the top bit of the manual word. -/
theorem inputCall_frame (s : InputSvc) (c : InputCall) :
    (inputCall s c).memory = s.memory ∧
      (bitSet s.manualBits 32 = false → bitSet (inputCall s c).manualBits 32 = false) := by
  cases c with
  | mapSet idx bit =>
    simp only [inputCall, inputSvcMapSet]
    split
    · split <;> exact ⟨rfl, id⟩
    · exact ⟨rfl, id⟩
  | dpadCal thr hyst =>
    simp only [inputCall, inputSvcDpadCal]
    split <;> exact ⟨rfl, id⟩
  | clutchModeSet mode bite =>
    simp only [inputCall, inputSvcClutchModeSet]
    split <;> exact ⟨rfl, id⟩
  | manualBit bit on =>
    rw [inputCall, manualBit_word]
    exact ⟨rfl, fun clear => bitSet_change_top clear bit on⟩
  | manualToggle bit =>
    refine ⟨?_, fun clear => manualToggle_clear clear bit⟩
    simp only [inputCall, inputSvcManualToggle]
    split <;> rfl

/-- The first tick finds a change. -/
theorem PublishLog.Faithful.first_changes {s : PublishLog} (faithful : s.Faithful)
    (first : s.last = none) (x : Samples) :
    s.input.memory.Changed (inputCompose s.input x).2 := by
  left
  intro same
  have top := composed_top_clear faithful.clear x
  rw [same] at top
  simp only [InputSvc.memory, faithful.unpublished first] at top
  exact absurd top (by decide)

theorem publishStep_faithful {s : PublishLog} (faithful : s.Faithful) (act : InputAct) :
    (publishStep s act).1.Faithful := by
  cases act with
  | shell c =>
    obtain ⟨memory, clear⟩ := inputCall_frame s.input c
    simp only [InputSvc.memory, PublishMemory.mk.injEq] at memory
    obtain ⟨buttons, sig, -⟩ := memory
    refine ⟨clear faithful.clear, fun silent => ?_, fun last member => ?_⟩
    · exact buttons.trans (faithful.unpublished silent)
    · have kept := faithful.published last member
      exact ⟨buttons.trans kept.1, sig.trans kept.2⟩
  | tick x =>
    have clear : bitSet (inputTick s.input x).1.manualBits 32 = false := by
      rw [inputTick_manualBits]
      exact faithful.clear
    have after : ∀ last ∈ (inputTick s.input x).2.or s.last,
        (inputTick s.input x).1.memory.prevButtons = last.buttons ∧
          (inputTick s.input x).1.memory.prevAxisSig = axisSig last := by
      intro last member
      rcases inputTick_cases s.input x with ⟨-, published, memory⟩ |
        ⟨quiet, -, published, memory⟩ | ⟨-, -, silent, memory⟩
      · rw [published, Option.some_or, Option.mem_some_iff] at member
        rw [memory, ← member]
        exact ⟨rfl, rfl⟩
      · -- the keepalive publishes what is remembered
        obtain ⟨buttons, sig, -⟩ := (s.input.memory.not_changed _).mp quiet
        rw [published, Option.some_or, Option.mem_some_iff] at member
        rw [memory, ← member]
        exact ⟨buttons.symm, sig.symm⟩
      · rw [silent, Option.none_or] at member
        rw [memory]
        exact faithful.published last member
    refine ⟨clear, fun silent => ?_, after⟩
    -- the first tick publishes, so no tick leaves the record empty
    have first : s.last = none := (Option.or_eq_none_iff.mp silent).2
    rcases inputTick_cases s.input x with ⟨-, published, -⟩ | ⟨quiet, -⟩ | ⟨quiet, -⟩
    · rw [publishStep, published] at silent
      cases silent
    · exact absurd (faithful.first_changes first x) quiet
    · exact absurd (faithful.first_changes first x) quiet

/-! ### What a tick misses -/

private theorem missesNothing_iff {s : PublishLog} (faithful : s.Faithful) (act : InputAct) :
    MissesNothing s act ↔ ¬ Collides s act := by
  cases act with
  | shell c => exact iff_of_true trivial not_false
  | tick x =>
    constructor
    · rintro kept ⟨early, last, member, buttons, sig, rests, axes⟩
      have remembered := faithful.published last member
      have quiet := (s.input.memory.not_changed (inputCompose s.input x).2).mpr
        ⟨buttons.trans remembered.1.symm, sig.trans remembered.2.symm, rests⟩
      have differs : ∀ last ∈ s.last, ¬ SameInputs (inputCompose s.input x).2 last := by
        rintro other same ⟨-, sameX, sameY, -⟩
        cases Option.mem_unique member same
        rcases axes with moved | moved
        · exact moved sameX
        · exact moved sameY
      have published := kept differs
      rcases inputTick_cases s.input x with ⟨changed, -⟩ | ⟨-, full, -⟩ | ⟨-, -, silent, -⟩
      · exact quiet changed
      · exact BitVec.not_lt.mpr full early
      · rw [silent] at published
        cases published
    · intro apart differs
      rcases inputTick_cases s.input x with ⟨-, published, -⟩ | ⟨-, -, published, -⟩ |
        ⟨quiet, early, -⟩
      · exact published
      · exact published
      · -- a silent tick: not the first one, and its snapshot collides with the last published
        exfalso
        cases first : s.last with
        | none => exact quiet (faithful.first_changes first x)
        | some last =>
          have remembered := faithful.published last first
          obtain ⟨buttons, sig, rests⟩ := (s.input.memory.not_changed _).mp quiet
          have sameButtons := buttons.trans remembered.1
          have sameSig := sig.trans remembered.2
          refine apart ⟨early, last, first, sameButtons, sameSig, rests, ?_⟩
          by_contra still
          simp only [not_or, ne_eq, not_not] at still
          refine differs last first ⟨sameButtons, still.1, still.2, ?_⟩
          -- equal axes leave the signature no choice
          simp only [axisSig, still.1, still.2] at sameSig
          exact (BitVec.xor_right_inj _).mp sameSig

/-- **No change is missed**, exactly in the runs without a collision of signatures. -/
theorem changes_published (settings : RimSettings) (levels : Fin 4 → AbLevel)
    (acts : List InputAct) :
    Along publishStep MissesNothing (.boot settings levels) acts ↔
      Along publishStep (fun s act => ¬ Collides s act) (.boot settings levels) acts :=
  along_congr publishStep
    (fun (s : PublishLog) act (faithful : s.Faithful) => missesNothing_iff faithful act)
    (fun _ act faithful => publishStep_faithful faithful act)
    (PublishLog.boot_faithful settings levels) acts

instance (s : PublishLog) (act : InputAct) : Decidable (MissesNothing s act) :=
  match act with
  | .tick _ => inferInstanceAs (Decidable (_ → _))
  | .shell _ => isTrue trivial

/-- A tick in which both clutches read the same. -/
def bothClutches (raw : I16) : Samples where
  buttons := fun _ => false
  dpadAdc := none
  encAb := fun _ => ⟨false, false⟩
  fk := fun _ => false
  clutchAdc := fun _ => some raw
  t0 := 0
  t1 := 0

/-- Both clutches pulled evenly: the axes leave zero together, the signature stays. -/
theorem even_pull_missed :
    ¬ Along publishStep MissesNothing (.boot .default fun _ => ⟨false, false⟩)
      [.tick (bothClutches 3000), .tick (bothClutches 3000)] := by
  decide +kernel

end FanatecWheel.App
