import FanatecWheel.BaseSim.SimThread
import FanatecWheel.Foundation.Counter
import FanatecWheel.Properties.SimReconcile

/-!
# The simulator under its console

Lines typed at any time, and the thread between any two stores of their handlers: what is clocked
is always a whole frame of what was entered, sealed but for an injected CRC fault, at a clock the
rim takes, and only while the simulator is switched on. When no handler is in progress the settings
are those of the accepted lines, as if they had run one after the other without the thread.
-/

namespace FanatecWheel.BaseSim

open Foundation App
open Rimlink hiding Reply

/-! ### The settings -/

/-- What the console sets. -/
structure SimConfig where
  running : Bool
  cadenceUs : U32
  jitterUs : U32
  clockHz : U32
  flushBytes : U32
  fault : SimFault
  faultN : U32
  mosi : Bytes 41

def Sim.config (s : Sim) (running : Bool) : SimConfig :=
  ⟨running, s.cadenceUs, s.jitterUs, s.clockHz, s.flushBytes, s.fault, s.faultN, s.mosi⟩

def SimSys.config (s : SimSys) : SimConfig := s.sim.config s.running

/-- A store sets what it sets, whatever the thread has counted. -/
theorem store_config {s t : SimSys} (same : s.config = t.config) (w : SimStore) :
    (s.store w).config = (t.store w).config := by
  obtain ⟨sim, on⟩ := s
  obtain ⟨sim', on'⟩ := t
  simp only [SimSys.config, Sim.config, SimConfig.mk.injEq] at same
  obtain ⟨running, cadence, jitter, clock, flush, fault, faultN, mosi⟩ := same
  cases w with
  -- the counters are no part of the settings
  | zero c => cases c <;> simp only [SimSys.config, Sim.config, SimSys.store, Sim.zero, *]
  | _ => simp only [SimSys.config, Sim.config, SimSys.store, cmdSimDisp, cmdSimLeds, cmdSimRumble,
      sealMosi, *]

theorem stores_config {s t : SimSys} (same : s.config = t.config) (todo : List SimStore) :
    (todo.foldl SimSys.store s).config = (todo.foldl SimSys.store t).config := by
  induction todo generalizing s t with
  | nil => exact same
  | cons w rest ih => exact ih (store_config same w)

/-- The thread sets nothing. -/
theorem beginTxn_config (s : Sim) (on : Bool) : s.beginTxn.1.config on = s.config on := by
  unfold Sim.beginTxn
  split <;> rfl

theorem endTxn_config (s : Sim) (len : ℕ) (miso : Option (Bytes 41)) (on : Bool) :
    (s.endTxn len miso).config on = s.config on := by
  cases miso with
  | none => rfl
  | some miso =>
    simp only [Sim.endTxn]
    split_ifs <;> rfl

theorem pause_config (s : Sim) (rand1 rand2 : U32) (on : Bool) :
    (s.pause rand1 rand2).1.config on = s.config on := by
  simp only [Sim.pause]
  split_ifs <;> rfl

/-- A line, run without interruption. -/
def runLine (p : SimProfile) (s : SimSys) (argv : List String) : SimSys :=
  match handlerOf argv with
  | none => s
  | some line => (handle p s argv line).1

/-- A line that is refused stores nothing. -/
theorem refused_stores (p : SimProfile) (s : SimSys) (argv : List String) (line : SimLine)
    (refused : (handle p s argv line).2.ret ≠ 0) : storesOf argv line = [] := by
  cases line with
  -- three handlers check their words, and check them before the first store
  | rate =>
    simp only [handle, simRate, printRate, storesOf] at refused ⊢
    split_ifs at refused ⊢
    · rfl
    · exact absurd rfl refused
    · rfl
  | profile =>
    simp only [handle, simProfile, storesOf] at refused ⊢
    rcases args : profileArgs argv with _ | ⟨hz, cadenceUs, jitterUs, flushBytes⟩
    · rfl
    · by_cases capped : hz.toNat < 100000 ∨ 12000000 < hz.toNat
      · simp only [if_pos capped]
      · simp only [args, cmdSimProfile, if_neg capped] at refused
        exact absurd rfl refused
  | fault =>
    simp only [handle, simFault, cmdSimFault, storesOf, faultMode] at refused ⊢
    split_ifs at refused ⊢ <;> first | rfl | exact absurd rfl refused
  | _ => exact absurd rfl refused

/-! ### What is seen of a run -/

/-- Whether the simulator is switched on, and the outputs entered. -/
structure SimAccount where
  on : Bool
  out : BaseOutputs

def SimAccount.start : SimAccount := ⟨true, ⟨fun _ => 0, 0, fun _ => 0⟩⟩

def SimAccount.store (a : SimAccount) : SimStore → SimAccount
  | .running on => { a with on }
  | .disp txt => { a with out := enter a.out (.disp txt) }
  | .leds v => { a with out := enter a.out (.leds v) }
  | .rumble b0 b1 => { a with out := enter a.out (.rumble b0 b1) }
  | _ => a

def SimAccount.after (a : SimAccount) : SimEvent → SimAccount
  | .stored w => a.store w
  | _ => a

def simAccount (events : List SimEvent) : SimAccount := events.foldl SimAccount.after .start

/-- The lines that no handler refused. -/
def accepted (events : List SimEvent) : List (List String) :=
  events.filterMap fun
    | .called argv ret => if ret = 0 then some argv else none
    | _ => none

namespace SimEvent

/-- What an event adds to a counter. -/
def counts : SimEvent → SimCounter → ℕ
  | .clocked t, .faultsInjected => if t.injected = .none then 0 else 1
  | .ended _ miso _ _, .txn => if miso.isSome then 1 else 0
  | .ended len (some miso) _ _, .firstByteErr =>
    if 33 ≤ len ∧ miso (at_ offHeader) ≠ header then 1 else 0
  | .ended len (some miso) _ _, .misoCrcErr =>
    if 33 ≤ len ∧ crc8 (crcRegion (frameOf miso)) ≠ miso (at_ offCrc) then 1 else 0
  | .ended _ _ _ jittered, .faultsInjected => if jittered then 1 else 0
  | _, _ => 0

/-- Which counter an event zeroes. -/
def zeroes : SimEvent → Option SimCounter
  | .stored (.zero c) => some c
  | _ => none

end SimEvent

/-- What was counted since the counter was last zeroed. -/
def counted (c : SimCounter) (events : List SimEvent) : ℕ :=
  events.foldl (fun n e => if e.zeroes = some c then 0 else n + e.counts c) 0

def Sim.counter (s : Sim) : SimCounter → U32
  | .txn => s.txn
  | .misoCrcErr => s.misoCrcErr
  | .firstByteErr => s.firstByteErr
  | .faultsInjected => s.faultsInjected

section Snoc

variable (events : List SimEvent) (e : SimEvent)

theorem simAccount_snoc : simAccount (events ++ [e]) = (simAccount events).after e :=
  List.foldl_append

theorem counted_snoc (c : SimCounter) : counted c (events ++ [e]) =
    if e.zeroes = some c then 0 else counted c events + e.counts c := List.foldl_append

theorem accepted_called (argv : List String) (ret : I32) :
    accepted [.called argv ret] = if ret = 0 then [argv] else [] := by
  by_cases taken : ret = 0
  · rw [if_pos taken, taken]
    rfl
  · simp only [accepted, List.filterMap_cons, List.filterMap_nil, if_neg taken]

theorem accepted_snoc : accepted (events ++ [e]) = accepted events ++ accepted [e] :=
  List.filterMap_append

end Snoc

/-! ### Counting -/

section Counting

variable (s : Sim)

theorem counter_store (s : SimSys) (w : SimStore) (c : SimCounter) :
    (s.store w).sim.counter c =
      if (SimEvent.stored w).zeroes = some c then 0 else s.sim.counter c := by
  cases w with
  | zero d => cases d <;> cases c <;> rfl
  | _ => cases c <;> rfl

theorem counter_beginTxn (c : SimCounter) : s.beginTxn.1.counter c =
    s.counter c + BitVec.ofNat 32 ((SimEvent.clocked s.beginTxn.2).counts c) := by
  have injects : s.injected = .none ↔ s.inject = false := by
    unfold Sim.injected
    split
    next inject =>
      -- a fault that is injected is one of the modes
      have faulty : s.fault ≠ .none := by
        rw [Sim.inject, Bool.and_eq_true, Bool.and_eq_true, decide_eq_true_eq] at inject
        exact inject.1.1
      simp only [faulty, inject, Bool.true_eq_false]
    next idle => simp only [idle]
  cases c with
  | faultsInjected =>
    simp only [Sim.beginTxn, SimEvent.counts, injects]
    cases s.inject
    · exact (BitVec.add_zero _).symm
    · rfl
  | _ =>
    simp only [Sim.beginTxn, SimEvent.counts]
    split <;> exact (BitVec.add_zero _).symm

theorem counter_endTxn (len : ℕ) (miso : Option (Bytes 41)) (sleepUs : U32) (c : SimCounter) :
    (s.endTxn len miso).counter c =
      s.counter c + BitVec.ofNat 32 ((SimEvent.ended len miso sleepUs false).counts c) := by
  cases miso with
  | none => cases c <;> exact (BitVec.add_zero _).symm
  | some miso =>
    simp only [Sim.endTxn]
    -- a truncated transfer is counted, but gets no verdict
    by_cases short : len < 33
    · have none_whole : ¬ 33 ≤ len := Nat.not_le.mpr short
      rw [if_pos short]
      cases c <;> simp [SimEvent.counts, Sim.counter, none_whole]
    · have whole : 33 ≤ len := Nat.le_of_not_lt short
      rw [if_neg short]
      cases c <;> simp only [SimEvent.counts, Sim.counter, whole, true_and] <;> split_ifs <;>
        simp_all

theorem counter_pause (rand1 rand2 : U32) (c : SimCounter) :
    (s.pause rand1 rand2).1.counter c =
      s.counter c + if c = .faultsInjected ∧ s.jitters = true then 1 else 0 := by
  simp only [Sim.pause]
  cases c <;> cases jitters : s.jitters <;> simp [Sim.counter]

/-- The end of a transfer and the sleep behind it. -/
theorem counter_ended (len : ℕ) (miso : Option (Bytes 41)) (rand1 rand2 sleepUs : U32)
    (c : SimCounter) : ((s.endTxn len miso).pause rand1 rand2).1.counter c =
      s.counter c +
        BitVec.ofNat 32 ((SimEvent.ended len miso sleepUs (s.endTxn len miso).jitters).counts c) := by
  rw [counter_pause, counter_endTxn s len miso sleepUs]
  cases (s.endTxn len miso).jitters <;> cases c <;> cases miso <;> simp [SimEvent.counts]

end Counting

/-! ### One step -/

/-- The clock of the profile, or one that `sim profile` takes. -/
def ClockOk (profileHz hz : U32) : Prop :=
  hz = profileHz ∨ (100000 ≤ hz.toNat ∧ hz.toNat ≤ 12000000)

/-- What is promised of an event. -/
def SoundEvent (profileHz : U32) (before : List SimEvent) : SimEvent → Prop
  | .clocked t => (simAccount before).on = true ∧ ClockOk profileHz t.hz ∧
      1 ≤ t.len ∧ t.len ≤ 41 ∧ (t.len < 33 ↔ t.injected = .trunc) ∧
      outputsOf (frameOf t.mosi) = (simAccount before).out ∧
      (Sealed (frameOf t.mosi) ↔ t.injected ≠ .crc)
  | .ended _ _ sleepUs _ => 100 ≤ sleepUs.toNat
  | _ => True

/-- The CRC byte is no output. -/
theorem outputsOf_mosiTxn (s : Sim) : outputsOf (frameOf s.mosiTxn) = outputsOf (frameOf s.mosi) := by
  unfold Sim.mosiTxn
  split
  · rfl
  · rfl

theorem sound_beginTxn {s : Sim} {out : BaseOutputs} (sends : Sends s out) :
    1 ≤ s.txnLen ∧ s.txnLen ≤ 41 ∧ (s.txnLen < 33 ↔ s.injected = .trunc) ∧
      outputsOf (frameOf s.mosiTxn) = out ∧ (Sealed (frameOf s.mosiTxn) ↔ s.injected ≠ .crc) := by
  have sealed : Sealed (frameOf s.mosiTxn) ↔ s.injected ≠ .crc := by
    constructor
    · exact fun sealed damaged => mosiTxn_corrupt s damaged sends.sealed sealed
    · intro intact
      rw [mosiTxn_intact s intact]
      exact sends.sealed
  have outputs := (outputsOf_mosiTxn s).trans sends.carries
  -- a truncation is the only way to fewer than 33 bytes
  by_cases truncated : s.injected = .trunc
  · have len := txnLen_trunc s truncated
    exact ⟨len.1, by omega, iff_of_true len.2 truncated, outputs, sealed⟩
  · have len := txnLen_whole s truncated
    exact ⟨by omega, len.2, iff_of_false (Nat.not_lt.mpr len.1) truncated, outputs, sealed⟩

theorem pause_long (s : Sim) (rand1 rand2 : U32) : 100 ≤ (s.pause rand1 rand2).2.toNat := by
  simp only [Sim.pause]
  generalize (if s.jitters = true then _ else _ : U32) = sleepUs
  split
  next long => exact Nat.le_of_lt (BitVec.lt_def.mp long)
  next short => exact Nat.le_refl 100

/-- A store enters what the account says. -/
theorem sends_store {s : SimSys} {a : SimAccount} (sends : Sends s.sim a.out) (w : SimStore) :
    Sends (s.store w).sim (a.store w).out := by
  cases w with
  | disp txt => exact sends_command sends (.disp txt)
  | leds v => exact sends_command sends (.leds v)
  | rumble b0 b1 => exact sends_command sends (.rumble b0 b1)
  | zero c => cases c <;> exact ⟨sends.sealed, sends.carries⟩
  | _ => exact ⟨sends.sealed, sends.carries⟩

theorem sends_config {s t : Sim} {out : BaseOutputs} (sends : Sends s out) {on : Bool}
    (same : t.config on = s.config on) : Sends t out := by
  have mosi : t.mosi = s.mosi := congrArg SimConfig.mosi same
  exact ⟨mosi ▸ sends.sealed, mosi ▸ sends.carries⟩

/-- A handler sets no clock beyond the cap. -/
theorem storesOf_clock (argv : List String) (line : SimLine) {hz : U32}
    (stored : .clockHz hz ∈ storesOf argv line) : 100000 ≤ hz.toNat ∧ hz.toNat ≤ 12000000 := by
  cases line with
  | profile =>
    rcases args : profileArgs argv with _ | ⟨hz', cadenceUs, jitterUs, flushBytes⟩
    · simp [storesOf, args] at stored
    · by_cases capped : hz'.toNat < 100000 ∨ 12000000 < hz'.toNat
      · simp [storesOf, args, capped] at stored
      · simp [storesOf, args, capped] at stored
        subst stored
        omega
  | rate =>
    simp only [storesOf] at stored
    split_ifs at stored <;> simp at stored
  | fault =>
    cases mode : faultMode (word argv 1) <;> cases n : faultArg argv <;>
      simp [storesOf, mode, n] at stored
  | _ => simp [storesOf] at stored

/-! ### Runs -/

section Runs

variable {p : SimProfile} {clockHz cadenceUs jitterUs flushBytes : U32} {events : List SimEvent}
  {s : SimThread}

variable (p clockHz cadenceUs jitterUs flushBytes) in
/-- What holds after every step. -/
structure SimInv (events : List SimEvent) (s : SimThread) : Prop where
  config : (s.todo.foldl SimSys.store s.sys).config = ((accepted events).foldl (runLine p)
    (.boot clockHz cadenceUs jitterUs flushBytes)).config
  on : s.sys.running = (simAccount events).on
  sends : Sends s.sys.sim (simAccount events).out
  clock : ClockOk clockHz s.sys.sim.clockHz
  pending : ∀ hz, .clockHz hz ∈ s.todo → 100000 ≤ hz.toNat ∧ hz.toNat ≤ 12000000
  counted : ∀ c, s.sys.sim.counter c = BitVec.ofNat 32 (counted c events)
  sound : Guarded (SoundEvent clockHz) events

private theorem simInv_line (inv : SimInv p clockHz cadenceUs jitterUs flushBytes events s)
    (idle : s.todo = []) {argv : List String} {line : SimLine} (called : handlerOf argv = some line) :
    SimInv p clockHz cadenceUs jitterUs flushBytes
      (events ++ [.called argv (handle p s.sys argv line).2.ret])
      { s with todo := storesOf argv line } := by
  have config := inv.config
  rw [idle, List.foldl_nil] at config
  refine ⟨?_, ?_, ?_, inv.clock, fun hz member => storesOf_clock argv line member, fun c => ?_,
    guarded_snoc inv.sound trivial⟩
  -- an accepted line has the stores of its handler before it, a refused one has none
  · rw [accepted_snoc, List.foldl_append]
    by_cases taken : (handle p s.sys argv line).2.ret = 0
    · have line_run (t : SimSys) : runLine p t argv = (storesOf argv line).foldl SimSys.store t := by
        rw [runLine, called]
        exact handle_stores p t argv line
      rw [accepted_called, if_pos taken, List.foldl_cons, List.foldl_nil, line_run]
      exact stores_config config _
    · rw [accepted_called, if_neg taken, refused_stores p s.sys argv line taken]
      exact config
  · rw [simAccount_snoc]
    exact inv.on
  · rw [simAccount_snoc]
    exact inv.sends
  · rw [counted_snoc, if_neg (by rintro ⟨⟩)]
    cases c <;> exact inv.counted _

private theorem simInv_store (inv : SimInv p clockHz cadenceUs jitterUs flushBytes events s)
    {w : SimStore} {rest : List SimStore} (todo : s.todo = w :: rest) :
    SimInv p clockHz cadenceUs jitterUs flushBytes (events ++ [.stored w])
      { s with sys := s.sys.store w, todo := rest } := by
  have config := inv.config
  have pending := inv.pending
  rw [todo] at config pending
  refine ⟨?_, ?_, ?_, ?_, fun hz member => pending hz (.tail _ member), fun c => ?_,
    guarded_snoc inv.sound trivial⟩
  · rw [accepted_snoc, show accepted [.stored w] = [] from rfl, List.append_nil]
    exact config
  · rw [simAccount_snoc]
    cases w with
    | running on => rfl
    | _ => exact inv.on
  · rw [simAccount_snoc]
    exact sends_store inv.sends w
  -- the clock was checked before the handler began to store
  · cases w with
    | clockHz hz => exact .inr (pending hz (.head _))
    | zero c => cases c <;> exact inv.clock
    | _ => exact inv.clock
  · rw [counted_snoc, counter_store, inv.counted c]
    split
    · rfl
    · cases c <;> rfl

/-- A step of the thread: no line, no store, and what it counts is seen. -/
private theorem simInv_thread (inv : SimInv p clockHz cadenceUs jitterUs flushBytes events s)
    {sim : Sim} {e : SimEvent} (transfer : Option ℕ) (quiet : accepted [e] = [])
    (enters : ∀ a : SimAccount, a.after e = a) (zeroes : e.zeroes = none)
    (same : sim.config s.sys.running = s.sys.sim.config s.sys.running)
    (counts : ∀ c, sim.counter c = s.sys.sim.counter c + BitVec.ofNat 32 (e.counts c))
    (sound : SoundEvent clockHz events e) :
    SimInv p clockHz cadenceUs jitterUs flushBytes (events ++ [e])
      { s with sys.sim := sim, transfer := transfer } := by
  refine ⟨?_, ?_, ?_, ?_, inv.pending, fun c => ?_, guarded_snoc inv.sound sound⟩
  · rw [accepted_snoc, quiet, List.append_nil, ← inv.config]
    -- the stores to come do not depend on what the thread changed
    have kept : SimSys.config { s.sys with sim := sim } = s.sys.config := same
    exact stores_config kept s.todo
  · rw [simAccount_snoc, enters]
    exact inv.on
  · rw [simAccount_snoc, enters]
    exact sends_config inv.sends same
  · rw [show sim.clockHz = s.sys.sim.clockHz from congrArg SimConfig.clockHz same]
    exact inv.clock
  · rw [counted_snoc, zeroes, if_neg (by rintro ⟨⟩), BitVec.ofNat_add, ← inv.counted c]
    exact counts c

private theorem simInv_wake (inv : SimInv p clockHz cadenceUs jitterUs flushBytes events s)
    : SimInv p clockHz cadenceUs jitterUs flushBytes (events ++ [s.wake.2]) s.wake.1 := by
  rw [SimThread.wake]
  split
  next on =>
    refine simInv_thread inv _ rfl (fun _ => rfl) rfl (beginTxn_config _ _)
      (counter_beginTxn s.sys.sim) ⟨inv.on ▸ on, inv.clock, sound_beginTxn inv.sends⟩
  next off =>
    have inv' := simInv_thread (e := .stopped) inv s.transfer rfl (fun _ => rfl) rfl rfl
      (fun c => (BitVec.add_zero _).symm) trivial
    exact inv'

private theorem simInv_transferred (inv : SimInv p clockHz cadenceUs jitterUs flushBytes events s)
    (len : ℕ) (miso : Option (Bytes 41)) (rand1 rand2 : U32) :
    SimInv p clockHz cadenceUs jitterUs flushBytes
      (events ++ [(s.transferred len miso rand1 rand2).2])
      (s.transferred len miso rand1 rand2).1 :=
  simInv_thread inv none rfl (fun _ => rfl) rfl
    ((pause_config _ rand1 rand2 _).trans (endTxn_config _ len miso _))
    (counter_ended s.sys.sim len miso rand1 rand2 _) (pause_long _ rand1 rand2)

/-- `main` seals a frame of zeros. -/
private theorem sends_boot : Sends (SimSys.boot clockHz cadenceUs jitterUs flushBytes).sim
    SimAccount.start.out := by
  refine sends_seal ?_
  simp only [outputsOf, SimAccount.start, BaseOutputs.mk.injEq]
  refine ⟨?_, by simp [frameOf, Sim.boot], ?_⟩ <;> funext i <;> fin_cases i <;> rfl

theorem simInv_run
    (reached : (simMachine p clockHz cadenceUs jitterUs flushBytes).Reaches events s) :
    SimInv p clockHz cadenceUs jitterUs flushBytes events s := by
  refine Machine.ReachesBy.induct (m := simMachine p clockHz cadenceUs jitterUs flushBytes)
    (P := SimInv p clockHz cadenceUs jitterUs flushBytes) ?_ ?_ reached
  · refine ⟨rfl, rfl, sends_boot, .inl rfl, ?_, fun c => ?_, guarded_nil _⟩
    · intro hz member
      cases member
    · cases c <;> rfl
  intro events s act t e inv _ stepped
  cases act with
  | line argv =>
    simp only [simMachine, SimThread.step] at stepped
    split at stepped
    next idle =>
      obtain ⟨line, called, same⟩ := Option.map_eq_some_iff.mp stepped
      cases same
      exact simInv_line inv idle called
    · cases stepped
  | store =>
    simp only [simMachine, SimThread.step] at stepped
    split at stepped
    · cases stepped
    next w rest todo =>
      cases stepped
      exact simInv_store inv todo
  | wake =>
    simp only [simMachine, SimThread.step] at stepped
    split at stepped
    next idle =>
      obtain ⟨rfl, rfl⟩ := Prod.mk.inj (Option.some.inj stepped)
      exact simInv_wake inv
    · cases stepped
  | transferred miso rand1 rand2 =>
    simp only [simMachine, SimThread.step] at stepped
    split at stepped
    · cases stepped
    next len holds =>
      cases stepped
      exact simInv_transferred inv len miso rand1 rand2

/-- **The simulator under its console.** In every run of lines, thread and transfers, between any
two stores of a handler: what is clocked is sound, and every sleep lasts at least 100 us; when no
handler is in progress the settings are those of the accepted lines, one after the other; and each
counter holds what was counted since it was last zeroed. -/
theorem sim_console
    (reached : (simMachine p clockHz cadenceUs jitterUs flushBytes).Reaches events s) :
    Guarded (SoundEvent clockHz) events ∧
    (s.todo = [] → s.sys.config = ((accepted events).foldl (runLine p)
      (.boot clockHz cadenceUs jitterUs flushBytes)).config) ∧
    ∀ c, s.sys.sim.counter c = BitVec.ofNat 32 (counted c events) := by
  have inv := simInv_run reached
  refine ⟨inv.sound, fun idle => ?_, inv.counted⟩
  have config := inv.config
  rw [idle] at config
  exact config

end Runs

def benchProfile : SimProfile := ⟨"reference-default".toList, 5⟩

/-- A transaction falls between the two stores of `sim fault`. -/
def tornRun : List SimAct :=
  [.line ["fault", "crc", "1"], .store, .wake, .transferred none 0 0, .store,
    .line ["rate", "99"], .line ["stop"], .store, .wake]

theorem sim_console_run : ∃ events s,
    (simMachine benchProfile 500000 2000 0 0).run
        (simMachine benchProfile 500000 2000 0 0).start tornRun = some (s, events) ∧
      accepted events = [["fault", "crc", "1"], ["stop"]] ∧
      Guarded (SoundEvent 500000) events ∧
      s.sys.config = ((accepted events).foldl (runLine benchProfile)
        (.boot 500000 2000 0 0)).config := by
  have ran : ((simMachine benchProfile 500000 2000 0 0).run
      (simMachine benchProfile 500000 2000 0 0).start tornRun).map
        (fun (s, events) => (s.todo, accepted events)) =
      some ([], [["fault", "crc", "1"], ["stop"]]) := by
    decide +kernel
  obtain ⟨⟨s, events⟩, reached, fields⟩ := Option.map_eq_some_iff.mp ran
  obtain ⟨idle, lines⟩ := Prod.mk.inj fields
  obtain ⟨sound, config, -⟩ := sim_console (Machine.reaches_of_run reached)
  exact ⟨events, s, reached, lines, sound, config idle⟩

end FanatecWheel.BaseSim
