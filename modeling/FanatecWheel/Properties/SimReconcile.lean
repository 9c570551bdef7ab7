import FanatecWheel.BaseSim.IdealLink

/-!
# Simulator and rim counters reconcile

Over an ideal link the rim counts every transaction of the simulator, the
truncated ones as short frames and the corrupted ones as CRC errors, the
simulator never blames the rim, and what was entered last is what the rim decodes.
-/

namespace FanatecWheel.BaseSim

open Foundation Rimlink App

/-! ### The frame the simulator sends -/

/-- The output fields of a base-to-rim frame. -/
def outputsOf (frame : Frame) : BaseOutputs where
  disp := ![frame (offDisp + 0), frame (offDisp + 1), frame (offDisp + 2)]
  leds := (frame offLeds).setWidth 16 ||| ((frame (offLeds + 1)).setWidth 16 <<< 8)
  rumble := ![frame (offRumble + 0), frame (offRumble + 1)]

theorem frameValidate_sealed {frame : Frame} (sealed : Sealed frame) :
    frameValidate frame = some (outputsOf frame) := by
  unfold Sealed at sealed
  rw [frameValidate, if_neg (not_not.mpr sealed)]
  rfl

/-- The outputs after a command: what it enters, the rest kept. -/
def enter (out : BaseOutputs) : SimCmd → BaseOutputs
  | .disp txt => { out with disp := fun i => ((txt.getD [])[i.val]?.map seg7FromAscii).getD 0 }
  | .leds v => { out with leds := v.setWidth 16 }
  | .rumble b0 b1 => { out with rumble := ![b0.setWidth 8, b1.setWidth 8] }
  | .fault _ _ | .profile _ => out

/-- The outputs last entered, zero before any. -/
def lastEntered (events : List LinkEvent) : BaseOutputs :=
  events.foldl (fun out e => match e with
    | .entered cmd => enter out cmd
    | _ => out) ⟨fun _ => 0, 0, fun _ => 0⟩

private theorem frameOf_update (b : Bytes 41) (i : Fin 33) (v : U8) :
    frameOf (Function.update b (at_ i) v) = Function.update (frameOf b) i v :=
  Function.update_comp_eq_of_injective b (Fin.castLE_injective _) i v

private theorem leds_bytes (v : U16) :
    (v.setWidth 8).setWidth 16 ||| (((v >>> 8).setWidth 8).setWidth 16 <<< 8) = v := by
  apply BitVec.eq_of_getLsbD_eq
  intro i inside
  by_cases low : i < 8
  · simp [low, inside]
  · have high : i - 8 < 8 := by omega
    have back : 8 + (i - 8) = i := by omega
    simp [low, inside, high, back]

/-- The frame held for sending passes its CRC and carries the outputs. -/
structure Sends (s : Sim) (out : BaseOutputs) : Prop where
  sealed : Sealed (frameOf s.mosi)
  carries : outputsOf (frameOf s.mosi) = out

theorem sends_seal {s : Sim} {out : BaseOutputs} (carries : outputsOf (frameOf s.mosi) = out) :
    Sends (sealMosi s) out := by
  constructor
  · simp only [sealMosi, frameOf_update]
    exact sealed_update _
  · rw [← carries]
    simp only [sealMosi, frameOf_update]
    rfl

/-- Every command keeps the frame sealed and enters what it was given. -/
theorem sends_command {s : Sim} {out : BaseOutputs} (sends : Sends s out) (cmd : SimCmd) :
    Sends (s.command cmd) (enter out cmd) := by
  have carries := sends.carries
  subst carries
  cases cmd with
  | disp txt =>
    apply sends_seal
    simp only [frameOf_update, outputsOf, enter, BaseOutputs.mk.injEq]
    refine ⟨?_, rfl, rfl⟩
    funext i
    fin_cases i <;> rfl
  | leds v =>
    apply sends_seal
    simp only [frameOf_update, outputsOf, enter, BaseOutputs.mk.injEq]
    exact ⟨rfl, leds_bytes (v.setWidth 16), rfl⟩
  | rumble b0 b1 =>
    apply sends_seal
    simp only [frameOf_update, outputsOf, enter, BaseOutputs.mk.injEq]
    exact ⟨rfl, rfl, rfl⟩
  -- the fault and the profile change how a frame is sent, not the frame
  | fault mode n =>
    have same : (s.command (.fault mode n)).mosi = s.mosi := by
      simp only [Sim.command, cmdSimFault]
      split_ifs <;> rfl
    exact ⟨by rw [same]; exact sends.sealed, by rw [same]; rfl⟩
  | profile args =>
    have same : (s.command (.profile args)).mosi = s.mosi := by
      simp only [Sim.command, cmdSimProfile]
      split
      · rfl
      · split_ifs <;> rfl
    exact ⟨by rw [same]; exact sends.sealed, by rw [same]; rfl⟩

/-! ### One transaction, by the fault injected -/

section Transaction

variable (s : Sim)

/-- A truncated transaction is never empty and never whole. -/
theorem txnLen_trunc (injected : s.injected = .trunc) : 1 ≤ s.txnLen ∧ s.txnLen < 33 := by
  have len : s.faultLen = min (max 1 (min (s.faultN % 33).toNat 32)) 32 := by
    unfold Sim.injected at injected
    split at injected
    next inject => simp only [Sim.faultLen, inject, injected, if_true]
    · cases injected
  rw [Sim.txnLen, if_neg (by omega)]
  omega

/-- Every other transaction clocks the whole frame and at most eight bytes more. -/
theorem txnLen_whole (injected : s.injected ≠ .trunc) : 33 ≤ s.txnLen ∧ s.txnLen ≤ 41 := by
  have len : s.faultLen = 33 ∨ s.faultLen = 34 := by
    unfold Sim.injected at injected
    unfold Sim.faultLen
    split at injected
    next inject => cases fault : s.fault <;> simp [inject, fault] at injected ⊢
    next idle => simp [idle]
  unfold Sim.txnLen
  split <;> omega

theorem mosiTxn_intact (injected : s.injected ≠ .crc) : s.mosiTxn = s.mosi := by
  unfold Sim.injected at injected
  unfold Sim.mosiTxn
  split at injected
  next inject => simp [injected]
  next idle => simp [idle]

/-- A flipped CRC byte is found. -/
theorem mosiTxn_corrupt (injected : s.injected = .crc) (sealed : Sealed (frameOf s.mosi)) :
    ¬ Sealed (frameOf s.mosiTxn) := by
  have flipped : frameOf s.mosiTxn =
      Function.update (frameOf s.mosi) offCrc (frameOf s.mosi offCrc ^^^ 0xFF) := by
    unfold Sim.injected at injected
    split at injected
    next inject => simp only [Sim.mosiTxn, inject, injected, decide_true, Bool.and_self, if_true,
      frameOf_update]; rfl
    · cases injected
  intro same
  rw [flipped, Sealed, crcRegion_update_crc, Function.update_self, sealed] at same
  revert same
  -- what is left is that no byte equals its complement
  generalize frameOf s.mosi offCrc = c
  revert c
  decide

end Transaction

/-- A sealed frame with the right header gives the rim no bad mark. -/
theorem runTransaction_good {s : Sim} {miso : Bytes 41} (first : miso (at_ offHeader) = header)
    (sealed : Sealed (frameOf miso)) :
    (runTransaction s (some miso)).txn = s.txn + 1 ∧
      (runTransaction s (some miso)).misoCrcErr = s.misoCrcErr ∧
      (runTransaction s (some miso)).firstByteErr = s.firstByteErr ∧
      (runTransaction s (some miso)).mosi = s.mosi := by
  have agrees : crc8 (crcRegion (frameOf miso)) = miso (at_ offCrc) := sealed
  unfold runTransaction
  simp only [first, agrees, ne_eq, not_true_eq_false, if_false]
  split <;> split <;> exact ⟨rfl, rfl, rfl, rfl⟩

/-! ### The rim's frames -/

/-- Both buffers hold frames built by the adapter. -/
def Built (a : Adapter) : Prop := ∀ i, ∃ inp id, a.lnk.buf i = frameBuildId inp id

private theorem built_update {buf : Fin 2 → Frame}
    (built : ∀ i, ∃ inp id, buf i = frameBuildId inp id) (k : Fin 2) (inp : RimInputs)
    (id : RimId) :
    ∀ i, ∃ inp' id', Function.update buf k (frameBuildId inp id) i = frameBuildId inp' id' := by
  intro i
  by_cases same : i = k
  · exact ⟨inp, id, by rw [same, Function.update_self]⟩
  · rw [Function.update_of_ne same]
    exact built i

theorem built_init (a : Adapter) (cfg : Option Bool) (now : ℤ) : Built (init a cfg now) := by
  intro i
  refine ⟨.neutral, a.currentId, ?_⟩
  fin_cases i <;> rfl

theorem built_txAcquire {a : Adapter} (built : Built a) (now : ℤ) (cycle : U32) :
    Built (txAcquire a now cycle).1 := by
  have rearmed : Built (rearm a now) := by
    unfold rearm
    split
    · exact built
    · split
      · exact built_update built _ _ _
      · exact built
  exact rearmed

theorem built_rxSubmit {a : Adapter} (built : Built a) (frame : Frame) (len : ℕ) (cycle : U32) :
    Built (rxSubmit a frame len cycle) := by
  obtain ⟨stats, lastRx, cap, msgq, workq, same, -⟩ := rxSubmit_frame a cycle frame len
  rw [same]
  exact built

private theorem built_rxWork (turns : ℕ) {a : Adapter} (built : Built a) :
    Built (rxWorkLoop turns a).1 := by
  obtain ⟨q, same⟩ := rxWorkLoop_frame turns a
  rw [same]
  exact built

theorem built_step {a : Adapter} (built : Built a) (c : Call) : Built (Rimlink.step a c).1 := by
  unfold Rimlink.step
  cases c.op with
  | snapshotPublish inp => exact built_update built _ _ _
  | txAcquire => exact built_txAcquire built c.now c.cycle
  | rxSubmit frame len => exact built_rxSubmit built frame len c.cycle
  | rxWork => exact built_rxWork 5 built
  | _ => exact built

/-! ### The run -/

def truncations (events : List LinkEvent) : ℕ :=
  events.countP fun
    | .transacted _ injected _ => injected = .trunc
    | _ => false

def corruptions (events : List LinkEvent) : ℕ :=
  events.countP fun
    | .transacted _ injected _ => injected = .crc
    | _ => false

/-- A transaction clocks between 1 and 41 bytes, and one that was not damaged on
purpose is decoded to what was entered last. -/
def Faithful (before : List LinkEvent) : LinkEvent → Prop
  | .transacted len injected decoded => 1 ≤ len ∧ len ≤ 41 ∧
      (injected ≠ .crc → injected ≠ .trunc → decoded = some (lastEntered before))
  | _ => True

/-- The invariant of the ideal link. -/
structure Reconciled (events : List LinkEvent) (s : IdealLink) : Prop where
  txn : s.sim.txn = s.rim.lnk.stats.txnCount + s.rim.lnk.stats.shortFrame
  short : s.rim.lnk.stats.shortFrame = BitVec.ofNat 32 (truncations events)
  corrupt : s.rim.lnk.stats.crcErrRx = BitVec.ofNat 32 (corruptions events)
  miso : s.sim.misoCrcErr = 0 ∧ s.sim.firstByteErr = 0
  built : Built s.rim
  sends : Sends s.sim (lastEntered events)
  faithful : Guarded Faithful events

section Steps

variable {events : List LinkEvent} {s : IdealLink}

private theorem truncations_snoc (e : LinkEvent) :
    truncations (events ++ [e]) = truncations events + truncations [e] := by
  simp only [truncations, List.countP_append]

private theorem corruptions_snoc (e : LinkEvent) :
    corruptions (events ++ [e]) = corruptions events + corruptions [e] := by
  simp only [corruptions, List.countP_append]

private theorem lastEntered_snoc (e : LinkEvent) :
    lastEntered (events ++ [e]) = match e with
      | .entered cmd => enter (lastEntered events) cmd
      | _ => lastEntered events := by
  simp only [lastEntered, List.foldl_append, List.foldl_cons, List.foldl_nil]

/-- A step of the rim that leaves its receive counters alone. -/
private theorem reconciled_rim (held : Reconciled events s) {t : IdealLink} (sim : t.sim = s.sim)
    (txn : t.rim.lnk.stats.txnCount = s.rim.lnk.stats.txnCount)
    (short : t.rim.lnk.stats.shortFrame = s.rim.lnk.stats.shortFrame)
    (corrupt : t.rim.lnk.stats.crcErrRx = s.rim.lnk.stats.crcErrRx) (built : Built t.rim) :
    Reconciled (events ++ [.silent]) t := by
  refine ⟨?_, ?_, ?_, ?_, built, ?_, guarded_snoc held.faithful trivial⟩
  · rw [sim, txn, short]
    exact held.txn
  · rw [short, truncations_snoc]
    exact held.short
  · rw [corrupt, corruptions_snoc]
    exact held.corrupt
  · rw [sim]
    exact held.miso
  · rw [sim, lastEntered_snoc]
    exact held.sends

private theorem frameOf_clockedIn (index : Fin 2) (fill : Bytes 41) :
    frameOf (s.clockedIn index fill) = s.rim.lnk.buf index := by
  funext i
  simp [frameOf, IdealLink.clockedIn]

/-- A whole transfer leaves the sent frame in the receive buffer. -/
private theorem received_whole (sent : Bytes 41) : s.received 33 sent = frameOf sent := by
  funext i
  simp [IdealLink.received]

/-- What the simulator does with its own counters. -/
private theorem transact_sim (held : Reconciled events s) (index : Fin 2) (fill : Bytes 41)
    (cycle : U32) :
    (s.transact index fill cycle).sim.txn = s.sim.txn + 1 ∧
      (s.transact index fill cycle).sim.misoCrcErr = s.sim.misoCrcErr ∧
      (s.transact index fill cycle).sim.firstByteErr = s.sim.firstByteErr ∧
      (s.transact index fill cycle).sim.mosi = s.sim.mosi := by
  obtain ⟨inp, id, frame⟩ := held.built index
  have bytes := frameOf_clockedIn (s := s) index fill
  apply runTransaction_good
  · rw [show s.clockedIn index fill (at_ offHeader) =
      frameOf (s.clockedIn index fill) offHeader from rfl, bytes, frame]
    exact frameBuildId_header inp id
  · rw [bytes, frame]
    exact frameBuildId_sealed inp id

/-- What the rim counts for a transaction, by the fault injected. -/
private theorem transact_rim (held : Reconciled events s) (index : Fin 2) (fill : Bytes 41)
    (cycle : U32) :
    let before := s.rim.lnk.stats
    let after := (s.transact index fill cycle).rim.lnk.stats
    if s.sim.injected = .trunc then
      after.txnCount = before.txnCount ∧ after.shortFrame = before.shortFrame + 1 ∧
        after.crcErrRx = before.crcErrRx
    else
      after.txnCount = before.txnCount + 1 ∧ after.shortFrame = before.shortFrame ∧
        after.crcErrRx = before.crcErrRx + (if s.sim.injected = .crc then 1 else 0) ∧
        (s.sim.injected ≠ .crc → s.decoded cycle = some (lastEntered events)) := by
  intro before after
  have counted := rxSubmit_counters s.rim cycle
    (s.received (min s.sim.txnLen 33) s.sim.mosiTxn) (min s.sim.txnLen 33)
  split
  next truncated =>
    have few : min s.sim.txnLen 33 < 33 := by
      have bound := (txnLen_trunc s.sim truncated).2
      omega
    rw [rxReceive_short s.rim cycle few] at counted
    exact counted
  next untruncated =>
    have whole : min s.sim.txnLen 33 = 33 := by
      have bound := (txnLen_whole s.sim untruncated).1
      omega
    have arrived : (s.transact index fill cycle).rim =
        rxSubmit s.rim (frameOf s.sim.mosiTxn) 33 cycle := by
      simp only [IdealLink.transact, whole, received_whole]
    simp only [after, arrived]
    rw [whole, received_whole] at counted
    by_cases damaged : s.sim.injected = .crc
    · -- the flipped byte is found: a transaction and a CRC error
      have unsealed := mosiTxn_corrupt s.sim damaged held.sends.sealed
      rw [rxReceive_corrupt s.rim cycle (Nat.le_refl 33) unsealed] at counted
      obtain ⟨txn, short, corrupt⟩ := counted
      exact ⟨txn, short, by rw [if_pos damaged]; exact corrupt, fun intact => absurd damaged intact⟩
    · -- the frame arrives as it is held for sending
      have sealed : Sealed (frameOf s.sim.mosiTxn) := by
        rw [mosiTxn_intact s.sim damaged]
        exact held.sends.sealed
      have valid := frameValidate_sealed sealed
      have received := rxReceive_valid s.rim cycle (Nat.le_refl 33) valid
      rw [received] at counted
      obtain ⟨txn, short, corrupt⟩ := counted
      refine ⟨txn, short, by simpa [damaged, before] using corrupt, fun _ => ?_⟩
      rw [IdealLink.decoded, whole, received_whole, received, mosiTxn_intact s.sim damaged,
        held.sends.carries]

/-- A transaction damaged on purpose decodes to nothing. -/
theorem decoded_damaged (held : Reconciled events s) (cycle : U32)
    (damaged : s.sim.injected = .crc ∨ s.sim.injected = .trunc) : s.decoded cycle = none := by
  rw [IdealLink.decoded, rxReceive_out]
  rcases damaged with corrupted | truncated
  · have whole : min s.sim.txnLen 33 = 33 := by
      have bound := (txnLen_whole s.sim (by rw [corrupted]; decide)).1
      omega
    rw [whole, received_whole, if_neg (by decide)]
    exact (frameValidate_none _).mpr (mosiTxn_corrupt s.sim corrupted held.sends.sealed)
  · have few := (txnLen_trunc s.sim truncated).2
    rw [if_pos (by omega)]

private theorem reconciled_transact (held : Reconciled events s) (index : Fin 2) (fill : Bytes 41)
    (cycle : U32) :
    Reconciled
      (events ++ [.transacted s.sim.txnLen s.sim.injected (s.decoded cycle)])
      (s.transact index fill cycle) := by
  obtain ⟨simTxn, simCrc, simFirst, simMosi⟩ := transact_sim held index fill cycle
  have rim := transact_rim held index fill cycle
  have built : Built (s.transact index fill cycle).rim := built_rxSubmit held.built _ _ cycle
  have sends : Sends (s.transact index fill cycle).sim (lastEntered events) :=
    ⟨by rw [simMosi]; exact held.sends.sealed, by rw [simMosi]; exact held.sends.carries⟩
  have miso : (s.transact index fill cycle).sim.misoCrcErr = 0 ∧
      (s.transact index fill cycle).sim.firstByteErr = 0 := by
    rw [simCrc, simFirst]
    exact held.miso
  -- a truncated transaction is one short frame, any other is one full frame
  by_cases truncated : s.sim.injected = .trunc
  · rw [if_pos truncated] at rim
    obtain ⟨txn, short, corrupt⟩ := rim
    refine ⟨?_, ?_, ?_, miso, built, ?_, guarded_snoc held.faithful ?_⟩
    · rw [simTxn, txn, short, held.txn, BitVec.add_assoc]
    · rw [short, held.short, truncations_snoc, BitVec.ofNat_add]
      simp [truncations, truncated]
    · rw [corrupt, held.corrupt, corruptions_snoc]
      simp [corruptions, truncated]
    · rw [lastEntered_snoc]
      exact sends
    · have len := txnLen_trunc s.sim truncated
      exact ⟨len.1, by omega, fun _ whole => absurd truncated whole⟩
  · rw [if_neg truncated] at rim
    obtain ⟨txn, short, corrupt, decoded⟩ := rim
    refine ⟨?_, ?_, ?_, miso, built, ?_, guarded_snoc held.faithful ?_⟩
    · rw [simTxn, txn, short, held.txn]
      ac_rfl
    · rw [short, held.short, truncations_snoc]
      simp [truncations, truncated]
    · rw [corrupt, held.corrupt, corruptions_snoc, BitVec.ofNat_add]
      by_cases damaged : s.sim.injected = .crc <;> simp [corruptions, damaged]
    · rw [lastEntered_snoc]
      exact sends
    · have len := txnLen_whole s.sim truncated
      exact ⟨by omega, len.2, fun intact _ => decoded intact⟩

/-- A command leaves the counters of the simulator alone. -/
private theorem command_counters (sim : Sim) (cmd : SimCmd) :
    (sim.command cmd).txn = sim.txn ∧ (sim.command cmd).misoCrcErr = sim.misoCrcErr ∧
      (sim.command cmd).firstByteErr = sim.firstByteErr := by
  cases cmd with
  | fault mode n =>
    simp only [Sim.command, cmdSimFault]
    split_ifs <;> exact ⟨rfl, rfl, rfl⟩
  | profile args =>
    simp only [Sim.command, cmdSimProfile]
    split
    · exact ⟨rfl, rfl, rfl⟩
    · split_ifs <;> exact ⟨rfl, rfl, rfl⟩
  | _ => exact ⟨rfl, rfl, rfl⟩

private theorem reconciled_command (held : Reconciled events s) (cmd : SimCmd) :
    Reconciled (events ++ [.entered cmd]) { s with sim := s.sim.command cmd } := by
  obtain ⟨txn, crc, first⟩ := command_counters s.sim cmd
  refine ⟨?_, ?_, ?_, ?_, held.built, ?_, guarded_snoc held.faithful trivial⟩
  · simp only [txn]
    exact held.txn
  · rw [truncations_snoc]
    exact held.short
  · rw [corruptions_snoc]
    exact held.corrupt
  · simp only [crc, first]
    exact held.miso
  · rw [lastEntered_snoc]
    exact sends_command held.sends cmd

private theorem reconciled_call (held : Reconciled events s) (c : Call)
    (receive : ∀ frame len, c.op ≠ .rxSubmit frame len) (reset : c.op ≠ .statsReset) :
    Reconciled (events ++ [.silent]) { s with rim := (Rimlink.step s.rim c).1 } := by
  have built := built_step held.built c
  by_cases work : c.op = .rxWork
  -- the handler empties the queue and touches no counter
  · obtain ⟨q, same⟩ := rxWorkLoop_frame 5 s.rim
    have moved : (Rimlink.step s.rim c).1 = { s.rim with msgq := q } := by
      simp only [Rimlink.step, work, rxWorkHandler, same]
    rw [moved] at built ⊢
    exact reconciled_rim held rfl rfl rfl rfl built
  · have side := step_rxSide s.rim c receive work reset
    exact reconciled_rim held rfl (congrArg RxSide.txnCount side) (congrArg RxSide.shortFrame side)
      (congrArg RxSide.crcErrRx side) built

private theorem reconciled_step (held : Reconciled events s) {act : LinkAct} {t : IdealLink}
    {e : LinkEvent} (stepped : s.step act = some (t, e)) : Reconciled (events ++ [e]) t := by
  cases act with
  | arm now cycle =>
    simp only [IdealLink.step] at stepped
    split at stepped <;> cases stepped
    have side := txAcquire_rxSide s.rim now cycle
    exact reconciled_rim held rfl (congrArg RxSide.txnCount side) (congrArg RxSide.shortFrame side)
      (congrArg RxSide.crcErrRx side) (built_txAcquire held.built now cycle)
  | transact fill cycle =>
    simp only [IdealLink.step] at stepped
    split at stepped
    · cases stepped
    next _ index _ =>
      cases stepped
      exact reconciled_transact held index fill cycle
  | command cmd =>
    cases stepped
    exact reconciled_command held cmd
  | rim c =>
    simp only [IdealLink.step] at stepped
    split at stepped
    · cases stepped
    · cases stepped
    · cases stepped
    next acquire receive reset =>
      cases stepped
      exact reconciled_call held c receive reset

end Steps

theorem reconciled_run {id : RimId} {now : ℤ} {clockHz cadenceUs jitterUs flushBytes : U32}
    {events : List LinkEvent} {s : IdealLink}
    (reached : (linkMachine id now clockHz cadenceUs jitterUs flushBytes).Reaches events s) :
    Reconciled events s := by
  refine Machine.ReachesBy.induct (P := Reconciled) ?_
    (fun _ _ _ _ _ held _ stepped => reconciled_step held stepped) reached
  refine ⟨rfl, rfl, rfl, ⟨rfl, rfl⟩, built_init _ _ _, sends_seal ?_, guarded_nil _⟩
  simp only [outputsOf, lastEntered, List.foldl_nil, BaseOutputs.mk.injEq]
  refine ⟨?_, by simp [frameOf, Sim.boot], ?_⟩ <;> funext i <;> fin_cases i <;> rfl

/-- **Reconciliation.** In every run over the ideal link, modulo `2 ^ 32`: the rim counts
every transaction, its short frames are the truncations and its CRC errors the
corruptions; the simulator finds no bad frame; every transaction clocks between 1 and
41 bytes; and one that was not damaged on purpose decodes to what was entered last. -/
theorem sim_rim_reconcile {id : RimId} {now : ℤ} {clockHz cadenceUs jitterUs flushBytes : U32}
    {events : List LinkEvent} {s : IdealLink}
    (reached : (linkMachine id now clockHz cadenceUs jitterUs flushBytes).Reaches events s) :
    s.sim.txn = s.rim.lnk.stats.txnCount + s.rim.lnk.stats.shortFrame ∧
    s.rim.lnk.stats.shortFrame = BitVec.ofNat 32 (truncations events) ∧
    s.rim.lnk.stats.crcErrRx = BitVec.ofNat 32 (corruptions events) ∧
    s.sim.misoCrcErr = 0 ∧ s.sim.firstByteErr = 0 ∧
    Guarded Faithful events := by
  have held := reconciled_run reached
  exact ⟨held.txn, held.short, held.corrupt, held.miso.1, held.miso.2, held.faithful⟩

/-- Every transaction is truncated, then every second one corrupted, with flush bytes. -/
def faultRun : List LinkAct :=
  [.command (.disp (some ['8', '1'])), .command (.fault "trunc" (some 1)), .arm 0 0,
    .transact (fun _ => 0) 0, .command (.fault "crc" (some 3)), .arm 1 0, .transact (fun _ => 0) 0,
    .rim ⟨.snapshotPublish ⟨1, 0, 0, 0, 0⟩, 1, 0⟩, .arm 2 0, .transact (fun _ => 0) 0]

theorem sim_rim_reconcile_run : ∃ events s,
    (linkMachine 3 0 500000 2000 0 9).run (linkMachine 3 0 500000 2000 0 9).start faultRun =
      some (s, events) ∧
    s.sim.txn = s.rim.lnk.stats.txnCount + s.rim.lnk.stats.shortFrame := by
  have enabled : ((linkMachine 3 0 500000 2000 0 9).run
      (linkMachine 3 0 500000 2000 0 9).start faultRun).isSome := by
    decide +kernel
  obtain ⟨⟨s, events⟩, ran⟩ := Option.isSome_iff_exists.mp enabled
  exact ⟨events, s, ran, (sim_rim_reconcile (Machine.reaches_of_run ran)).1⟩

end FanatecWheel.BaseSim
