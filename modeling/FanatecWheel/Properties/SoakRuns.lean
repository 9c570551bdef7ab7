import FanatecWheel.Host.SoakLoop
import FanatecWheel.Properties.PostMortem
import FanatecWheel.Properties.ShellRuns
import FanatecWheel.Properties.SoakVerdict

/-!
# Soak runs

The soak runner at the console of a device that goes on working, loses power and is reset
between any two lines. A poll names the counters above their thresholds, with the numbers of
what went wrong on the link up to its `rim stats` and of the watchdog resets on record; the
faults of the funky switch it never sees. The capture ring is frozen on the first damaged frame,
and a record of the console that is replayed has the verdict of the live run.
-/

namespace FanatecWheel.Host

open Foundation Rimlink App

/-! ### What goes wrong on the link -/

inductive FaultKind
  | corrupt | short | overran | missed | staled
deriving DecidableEq

/-- What goes wrong in a call; a short or a corrupt frame is an anomaly for the capture ring. -/
inductive LinkFault
  | corrupt (frame : Frame)
  | short | overran | missed | staled
deriving DecidableEq

def LinkFault.kind : LinkFault → FaultKind
  | .corrupt _ => .corrupt
  | .short => .short
  | .overran => .overran
  | .missed => .missed
  | .staled => .staled

def LinkFault.anomaly (f : LinkFault) : Bool := f.kind = .corrupt || f.kind = .short

/-- Overrun is a valid frame with no room in the queue; a stale clear is an acquire with nothing
published for more than 50 ms, the first one since. -/
def linkFault (a : Adapter) (c : Call) : Option LinkFault :=
  match c.op with
  | .rxSubmit frame len =>
    if len < 33 then some .short
    else if ¬ Sealed frame then some (.corrupt frame)
    else if a.msgq.items.length < 4 then none
    else some .overran
  | .noteRearmMiss => some .missed
  | .txAcquire =>
    if !a.lnk.fresh && !a.lnk.staleCleared && staleMs < c.now - a.lnk.lastPublish then some .staled
    else none
  | _ => none

/-- The threshold's name for a kind. -/
def FaultKind.key : FaultKind → Text
  | .corrupt => "crc_err_rx".toList
  | .short => "short_frame".toList
  | .overran => "overrun".toList
  | .missed => "rearm_miss".toList
  | .staled => "stale_clear".toList

def FaultKind.counter (st : Stats) : FaultKind → U32
  | .corrupt => st.crcErrRx
  | .short => st.shortFrame
  | .overran => st.overrun
  | .missed => st.rearmMiss
  | .staled => st.staleClear

/-- The calls of the link thread, its interrupt and the work queue. -/
def fromTraffic (c : Call) : Bool :=
  match c.op with
  | .txAcquire | .rxSubmit _ _ | .rxWork | .noteCsGap _ | .noteRearmMiss => true
  | _ => false

/-- One more of a kind, or of none. -/
def FaultKind.more (fault : Option LinkFault) (k : FaultKind) : U32 :=
  if fault.map LinkFault.kind = some k then 1 else 0

private theorem counter_txAcquire (a : Adapter) (now : ℤ) (cycle : U32) (k : FaultKind) :
    k.counter (txAcquire a now cycle).1.lnk.stats =
      k.counter a.lnk.stats + k.more (linkFault a ⟨.txAcquire, now, cycle⟩) := by
  unfold txAcquire rearm linkFault
  cases fresh : a.lnk.fresh with
  | true => cases k <;> simp [FaultKind.counter, FaultKind.more]
  | false =>
    by_cases stale : (!a.lnk.staleCleared && staleMs < now - a.lnk.lastPublish) = true
    · cases k <;> simp [FaultKind.counter, FaultKind.more, LinkFault.kind, stale]
    · cases k <;> simp [FaultKind.counter, FaultKind.more, stale]

private theorem counter_rxSubmit (a : Adapter) (frame : Frame) (len : ℕ) (now : ℤ) (cycle : U32)
    (k : FaultKind) :
    k.counter (rxSubmit a frame len cycle).lnk.stats =
      k.counter a.lnk.stats + k.more (linkFault a ⟨.rxSubmit frame len, now, cycle⟩) := by
  by_cases short : len < 33
  · simp only [rxSubmit, rxReceive_short a cycle short, linkFault, if_pos short]
    cases k <;> simp [FaultKind.counter, FaultKind.more, LinkFault.kind]
  by_cases sealed : Sealed frame
  · obtain ⟨out, valid⟩ := Option.isSome_iff_exists.mp ((frameValidate_isSome frame).mpr sealed)
    have received := rxReceive_valid a cycle (Nat.not_lt.mp short) valid
    obtain ⟨msgq, workq, overrun, same⟩ := rxSubmit_handsOver a cycle frame len
    obtain ⟨-, full⟩ := rxSubmit_queues a cycle (congrArg Prod.snd received)
    simp only [same, received] at full ⊢
    -- the queue decides on the overrun, the other counters stand as the frame left them
    by_cases room : a.msgq.items.length < 4
    · cases k <;> simp [FaultKind.counter, FaultKind.more, linkFault, short, sealed, room, full]
    · cases k <;> simp [FaultKind.counter, FaultKind.more, LinkFault.kind, linkFault, short, sealed,
        room, full]
  · simp only [rxSubmit, rxReceive_corrupt a cycle (Nat.not_lt.mp short) sealed, linkFault,
      if_neg short, if_pos sealed]
    cases k <;> simp [FaultKind.counter, FaultKind.more, LinkFault.kind]

/-- Each counter counts its kind. -/
theorem counter_step (a : Adapter) {c : Call} (traffic : fromTraffic c = true) (k : FaultKind) :
    k.counter (Rimlink.step a c).1.lnk.stats =
      k.counter a.lnk.stats + k.more (linkFault a c) := by
  obtain ⟨op, now, cycle⟩ := c
  cases op with
  | txAcquire => exact counter_txAcquire a now cycle k
  | rxSubmit frame len => exact counter_rxSubmit a frame len now cycle k
  | rxWork =>
    obtain ⟨q, emptied⟩ := rxWorkLoop_frame 5 a
    simp only [Rimlink.step, rxWorkHandler, emptied]
    exact (BitVec.add_zero _).symm
  | noteCsGap gapUs => cases k <;> exact (BitVec.add_zero _).symm
  | noteRearmMiss => cases k <;> first | rfl | exact (BitVec.add_zero _).symm
  | _ => cases traffic

/-! ### The ring after `rim cap start` -/

private theorem capDepth_neZero : NeZero capDepth := ⟨by decide⟩

/-- The entry written last. -/
def newest (c : Capture) : CapEntry := c.ring (@Ring.slot 32 capDepth capDepth_neZero (c.wr - 1))

private theorem newest_append {c : Capture} {r : Ring CapEntry capDepth 32} {e : CapEntry}
    (written : c.toRing = r.append e) : newest c = e := by
  have last : r.wr + 1#32 - 1 = r.wr := BitVec.add_sub_cancel _ _
  simp only [newest, written, Ring.append, last, Function.update_self]

/-- The ring after the anomalies since it was started: it takes entries up to the first, which has
frozen it; a corrupt frame is the last entry. -/
def RingKeeps (anomalies : List LinkFault) (c : Capture) : Prop :=
  match anomalies with
  | [] => Watching c
  | first :: _ => c.frozen = true ∧ ∀ frame, first = .corrupt frame →
      (newest c).frame = frame ∧ (newest c).dir = .rx ∧ (newest c).crcOk = 0

/-- Without an anomaly a call of the traffic is calm. -/
private theorem calm_of_traffic (a : Adapter) {c : Call} (traffic : fromTraffic c = true)
    (none : ∀ f ∈ linkFault a c, f.anomaly = false) : Calm c.op := by
  obtain ⟨op, now, cycle⟩ := c
  cases op with
  | rxSubmit frame len =>
    by_cases short : len < 33
    · cases none .short (by simp [linkFault, short])
    by_cases sealed : Sealed frame
    · exact ⟨Nat.not_lt.mp short, sealed⟩
    · cases none (.corrupt frame) (by simp [linkFault, short, sealed])
  | txAcquire | rxWork | noteCsGap _ | noteRearmMiss => trivial
  | _ => cases traffic

/-- The frame that an anomaly is about. -/
private theorem submit_of_anomaly {a : Adapter} {c : Call} {f : LinkFault}
    (fault : linkFault a c = some f) (anomaly : f.anomaly = true) :
    ∃ frame len, c.op = .rxSubmit frame len ∧
      (len < 33 ∧ f = .short ∨ 33 ≤ len ∧ ¬ Sealed frame ∧ f = .corrupt frame) := by
  unfold linkFault at fault
  split at fault
  next frame len called =>
    refine ⟨frame, len, called, ?_⟩
    split at fault
    next short =>
      cases fault
      exact .inl ⟨short, rfl⟩
    next long =>
      split at fault
      next corrupt =>
        cases fault
        exact .inr ⟨Nat.not_lt.mp long, corrupt, rfl⟩
      next =>
        split at fault
        · cases fault
        · cases fault
          cases anomaly
  · cases fault
    cases anomaly
  · split at fault
    · cases fault
      cases anomaly
    · cases fault
  · cases fault

theorem ringKeeps_step {a : Adapter} {anomalies : List LinkFault}
    (keeps : RingKeeps anomalies a.cap) {c : Call} (traffic : fromTraffic c = true) :
    RingKeeps (anomalies ++ (linkFault a c).toList.filter LinkFault.anomaly)
      (Rimlink.step a c).1.cap := by
  cases anomalies with
  | cons first later =>
    obtain ⟨frozen, last⟩ := keeps
    have started : c.op ≠ .capStart := by
      intro called
      rw [fromTraffic, called] at traffic
      cases traffic
    obtain ⟨still, same⟩ := step_keeps frozen c started
    refine ⟨still, ?_⟩
    simpa only [newest, same] using last
  | nil =>
    cases fault : linkFault a c with
    | none => exact step_calm keeps c (calm_of_traffic a traffic (by simp [fault]))
    | some f =>
      cases anomaly : f.anomaly with
      | false =>
        simp only [Option.toList_some, List.filter_cons, anomaly, Bool.false_eq_true, if_false]
        exact step_calm keeps c (calm_of_traffic a traffic (by simp [fault, anomaly]))
      | true =>
        simp only [Option.toList_some, List.filter_cons, anomaly, if_true]
        obtain ⟨frame, len, called, why⟩ := submit_of_anomaly fault anomaly
        have submitted : (Rimlink.step a c).1 = rxSubmit a frame len c.cycle := by
          simp only [Rimlink.step, called]
        rw [submitted]
        rcases why with ⟨short, rfl⟩ | ⟨full, corrupt, rfl⟩
        · obtain ⟨frozen, -⟩ := rxSubmit_short_freezes keeps frame short c.cycle
          exact ⟨frozen, fun _ other => by cases other⟩
        · obtain ⟨frozen, written⟩ := rxSubmit_corrupt_freezes keeps full corrupt c.cycle
          refine ⟨frozen, fun _ same => ?_⟩
          cases same
          rw [newest_append written]
          exact ⟨rfl, rfl, rfl⟩

/-! ### The device under the runner -/

structure SoakSys where
  dut : Console
  soak : Soak

inductive SoakAct
  | tick (x : Samples) (now : ℤ)
  | link (c : Call)
  /-- The device loses power or its watchdog fires. -/
  | reboot (order : List String) (levels : Fin 4 → AbLevel) (now : ℤ)
      (loaded : Option HealthCounters) (wdtCause : Bool)
  /-- The runner sends the next line and reads, with what stands around the reply. -/
  | ask (r : Readings) (echo rest : Text)
  /-- `sim start`, at the other console. -/
  | simStart
  | look (expired : Bool)

inductive SoakEvent
  | fault (f : LinkFault)
  /-- A boot, and the watchdog resets that its record counts. -/
  | booted (wdtResets : U32)
  /-- `rim cap start`. -/
  | started
  /-- `rim stats`. -/
  | sampled
  /-- The end of a poll, with what `evaluate` found. -/
  | polled (failures : List Text)
  | exited (code : ℕ)
  | other
deriving DecidableEq

/-- What a statement that asked the device was, for the record. -/
def askedEvent (pc : SoakPc) (after : Soak) : SoakEvent :=
  match pc with
  | .capStart => .started
  | .stats => .sampled
  | .health => .polled after.failures
  | .capStatus => .exited 1
  | _ => .other

namespace SoakSys

variable (s : SoakSys)

def ask (b : BuildInfo) (r : Readings) (echo rest : Text) (argv : List String) :
    Option (SoakSys × SoakEvent) :=
  (rimLine b s.dut r (fun _ => 0) argv).map fun (dut, reply) =>
    let soak := s.soak.read (portText echo reply.out rest)
    (⟨dut, soak⟩, askedEvent s.soak.pc soak)

def step (b : BuildInfo) (id : RimId) (cfg : Option Bool) :
    SoakAct → Option (SoakSys × SoakEvent)
  | .tick x now => some ({ s with dut := s.dut.tick x now }, .other)
  | .link c =>
    if fromTraffic c then
      some ({ s with dut := (s.dut.linkCall c).1 }, (linkFault s.dut.link c).elim .other .fault)
    else none
  | .reboot order levels now loaded wdtCause =>
    (s.dut.step b id cfg (.reboot order levels now loaded wdtCause)).map fun (dut, _) =>
      ({ s with dut := dut },
        .booted ((loaded.getD .zero).wdtResets + if wdtCause then 1 else 0))
  | .ask r echo rest => s.soak.pc.line.bind (s.ask b r echo rest)
  | .simStart =>
    if s.soak.pc = .simStart then some ({ s with soak.pc := .loop }, .other) else none
  | .look expired =>
    if s.soak.pc = .loop then
      some ({ s with soak := s.soak.look expired }, if expired then .exited 0 else .other)
    else none

end SoakSys

/-- The runner is started on a device that has booted. -/
def soakMachine (b : BuildInfo) (levels : Fin 4 → AbLevel) (id : RimId) (cfg : Option Bool)
    (t0 : ℤ) : Machine SoakSys SoakAct SoakEvent where
  start := ⟨(console b levels id cfg t0).start, .start⟩
  step s := s.step b id cfg

/-- The port delivers the echo of the line and the whole reply, and what else it delivers is no
counter. -/
def Delivered : SoakAct → Prop
  | .ask _ echo rest => Echo echo ∧ Noise rest
  | _ => True

instance : DecidablePred Delivered
  | .ask _ echo rest => inferInstanceAs (Decidable (Echo echo ∧ Noise rest))
  | .tick _ _ | .link _ | .reboot _ _ _ _ _ | .simStart | .look _ => isTrue trivial

/-! ### The account -/

def funkyKey : Text := "funky_faults".toList

def wdtKey : Text := "wdt_resets".toList

/-- What has gone wrong since the last boot, and what had up to the last `rim stats`; the watchdog
resets on record; the anomalies since the ring was started in this boot. -/
structure SoakLedger where
  faults : List LinkFault
  sampled : List LinkFault
  wdtResets : U32
  anomalies : Option (List LinkFault)

namespace SoakLedger

def start : SoakLedger := ⟨[], [], 0, none⟩

def after (l : SoakLedger) : SoakEvent → SoakLedger
  | .fault f =>
    { l with
      faults := l.faults ++ [f]
      anomalies := l.anomalies.map (· ++ [f].filter LinkFault.anomaly) }
  | .booted wdtResets => { l with faults := [], wdtResets := wdtResets, anomalies := none }
  | .started => { l with anomalies := some [] }
  | .sampled => { l with sampled := l.faults }
  | _ => l

/-- The number that a poll finds for a key: of the watchdog resets, or of what went wrong on the
link, in counters 32 bits wide. -/
def number (l : SoakLedger) (key : Text) : ℕ :=
  if key = wdtKey then l.wdtResets.toNat
  -- `rim input` prints the faults of the funky switch as `faults=`: however many there are, the
  -- runner finds nothing under its own key and takes zero
  else if key = funkyKey then 0
  else l.sampled.countP (fun f => f.kind.key = key) % 2 ^ 32

end SoakLedger

def soakLedger (events : List SoakEvent) : SoakLedger := events.foldl SoakLedger.after .start

theorem soakLedger_snoc (events : List SoakEvent) (e : SoakEvent) :
    soakLedger (events ++ [e]) = (soakLedger events).after e := by
  simp only [soakLedger, List.foldl_append, List.foldl_cons, List.foldl_nil]

/-- The texts of the failures for the numbers under the keys. -/
def failuresOf (numbers : Text → ℕ) : List Text :=
  thresholds.filterMap fun (key, limit) =>
    if limit < numbers key then
      some (key ++ "=".toList ++ fmtU (numbers key) ++ " > ".toList ++ fmtU limit)
    else none

theorem evaluate_eq (stats : SoakStats) : evaluate stats = failuresOf (statOf stats) := rfl

theorem failuresOf_congr {f g : Text → ℕ} (same : ∀ key ∈ thresholdKeys, f key = g key) :
    failuresOf f = failuresOf g := by
  refine List.filterMap_congr fun pair member => ?_
  simp only [same pair.1 (List.mem_map_of_mem member)]

/-! ### What a record of the console tells -/

/-- The last numbers under the keys that have a threshold. -/
structure Tells (text : Text) (numbers : Text → ℕ) : Prop where
  ended : (final scanStep .outside text).Loose
  last : ∀ key ∈ thresholdKeys,
    (trace scanStep .outside text).flatten.foldl (lastValue key) 0 = numbers key

theorem tells_nil : Tells [] fun _ => 0 := ⟨trivial, fun _ _ => rfl⟩

theorem Tells.congr {text : Text} {f g : Text → ℕ} (tells : Tells text f)
    (same : ∀ key ∈ thresholdKeys, f key = g key) : Tells text g :=
  ⟨tells.ended, fun key member => (tells.last key member).trans (same key member)⟩

theorem tells_evaluate {text : Text} {numbers : Text → ℕ} (tells : Tells text numbers) :
    evaluate (parseStats text) = failuresOf numbers := by
  rw [evaluate_eq]
  refine failuresOf_congr fun key member => ?_
  have flushed : (final scanStep .outside text).flush = [] := by
    have ended := tells.ended
    cases reached : final scanStep .outside text with
    | outside | word _ => rfl
    | separated _ | number _ _ =>
      rw [reached] at ended
      exact ended.elim
  rw [parseStats, findAll_scan, scan, flushed, List.append_nil, statOf_foldl]
  exact tells.last key member

/-- The line ends of a file make no difference. -/
theorem tells_universalNewlines {text : Text} {numbers : Text → ℕ} (tells : Tells text numbers) :
    Tells (universalNewlines text) numbers := by
  obtain ⟨ended, found⟩ := reads_universalNewlines .outside text
  refine ⟨?_, fun key member => ?_⟩
  · rw [ended]
    exact tells.ended
  · rw [found]
    exact tells.last key member

/-- A line end after noise. -/
private theorem reads_lineEnd {s : ScanState} (loose : s.Loose) :
    Reads s "\r\n".toList .outside [] := by
  cases s with
  | outside | word _ => exact ⟨rfl, rfl⟩
  | separated _ | number _ _ => exact loose.elim

/-- Matches under other labels leave every number. -/
private theorem foldl_other {found : List (List Text)}
    (other : ∀ m ∈ found, ∀ key ∈ m.head?, key ∉ thresholdKeys) {key : Text}
    (member : key ∈ thresholdKeys) (n : ℕ) : found.foldl (lastValue key) n = n := by
  induction found generalizing n with
  | nil => rfl
  | cons m rest ih =>
    obtain ⟨first, later⟩ := List.forall_mem_cons.mp other
    have kept : lastValue key n m = n := by
      match m with
      | [k, v] =>
        rw [lastValue, if_neg]
        rintro rfl
        exact first key rfl member
      | [] | [_] | _ :: _ :: _ :: _ => rfl
    rw [List.foldl_cons, kept]
    exact ih later n

/-- An echo behind a prompt leaves every number. -/
private theorem echo_reads {text : Text} (echo : Echo text) {s : ScanState} (loose : s.Loose) :
    ∃ t out, Reads s text t out ∧ t.Loose ∧
      ∀ key ∈ thresholdKeys, ∀ n, out.foldl (lastValue key) n = n := by
  obtain ⟨same, ended⟩ := noise_from echo.free loose (t := .outside) trivial
  refine ⟨_, _, reads_self s text, ended.mpr echo.noise.ended, fun key member n => ?_⟩
  rw [same]
  exact foldl_other echo.noise.other member n

/-- A reply between echo and prompt. -/
theorem tells_read {text : Text} {numbers : Text → ℕ} (tells : Tells text numbers)
    {echo rest : Text} (echoed : Echo echo) (quiet : Noise rest) {out : Text}
    {found : List (List Text)} (reads : Reads .outside out .outside found) :
    Tells (text ++ portText echo out rest)
      fun key => found.foldl (lastValue key) (numbers key) := by
  obtain ⟨s, before, echoes, loose, none⟩ := echo_reads echoed tells.ended
  have line := reads_serial .outside out
  rw [reads.1, reads.2] at line
  obtain ⟨last, all⟩ := (reads_self .outside text).append
    (((echoes.append (reads_lineEnd loose)).append line).append (reads_self .outside rest))
  refine ⟨?_, fun key member => ?_⟩
  · rw [portText, last]
    exact quiet.ended
  · rw [portText, all]
    simp only [List.foldl_append, List.foldl_nil, tells.last key member, none key member,
      foldl_other quiet.other member]

/-! ### The three replies of a poll -/

theorem mem_thresholdKeys {key : Text} (member : key ∈ thresholdKeys) :
    (∃ k : FaultKind, key = k.key) ∨ key = funkyKey ∨ key = wdtKey := by
  simp only [thresholdKeys, thresholds, List.map_cons, List.map_nil, List.mem_cons,
    List.not_mem_nil, or_false] at member
  rcases member with rfl | rfl | rfl | rfl | rfl | rfl | rfl
  · exact .inl ⟨.corrupt, rfl⟩
  · exact .inl ⟨.short, rfl⟩
  · exact .inl ⟨.overran, rfl⟩
  · exact .inl ⟨.missed, rfl⟩
  · exact .inl ⟨.staled, rfl⟩
  · exact .inr (.inl rfl)
  · exact .inr (.inr rfl)

/-- `rim stats` tells the five counters. -/
theorem stats_found (d : DeviceCounters) :
    ∃ found, Reads .outside (cmdRimStats d) .outside found ∧
      (∀ (k : FaultKind) n, found.foldl (lastValue k.key) n = (k.counter d.link).toNat) ∧
      ∀ n, found.foldl (lastValue funkyKey) n = n := by
  obtain ⟨rumble, labelled, reads⟩ := reads_stats d
  refine ⟨_, reads, fun k n => ?_, fun n => ?_⟩
  · have apart : k.key ≠ "rumble_last".toList := by cases k <;> decide
    simp only [List.foldl_append, List.foldl_cons, List.foldl_nil, lastValue_entry,
      lastValue_labelled apart labelled]
    cases k
    all_goals
      unfold FaultKind.key
      simp only [String.toList_inj, String.reduceEq, if_true, if_false, FaultKind.counter]
  · have apart : funkyKey ≠ "rumble_last".toList := by decide
    simp only [List.foldl_append, List.foldl_cons, List.foldl_nil, lastValue_entry,
      lastValue_labelled apart labelled]
    unfold funkyKey
    simp only [String.toList_inj, String.reduceEq, if_false]

/-- `rim input` tells none of the numbers, the faults of the funky switch included. -/
theorem input_found (d : DeviceCounters) :
    ∃ found, Reads .outside (cmdRimInput d) .outside found ∧
      ∀ key ∈ thresholdKeys, ∀ n, found.foldl (lastValue key) n = n := by
  obtain ⟨enc, labelled, reads⟩ := reads_input d
  refine ⟨_, reads, fun key member n => foldl_other (fun m found key label member => ?_) member n⟩
  rcases List.mem_append.mp found with steps | fixed
  · obtain ⟨v, rfl⟩ := labelled m steps
    cases label
    revert member
    decide
  · simp only [List.mem_cons, List.not_mem_nil, or_false] at fixed
    rcases fixed with rfl | rfl | rfl | rfl | rfl
    all_goals
      cases label
      revert member
      decide

/-- `rim health` tells the watchdog resets. -/
theorem health_found (d : DeviceCounters) :
    ∃ found, Reads .outside (cmdRimHealth d) .outside found ∧
      ∀ key ∈ thresholdKeys, ∀ n, found.foldl (lastValue key) n =
        if key = wdtKey then d.health.hc.wdtResets.toNat else n := by
  refine ⟨_, reads_health d, fun key member n => ?_⟩
  simp only [List.foldl_cons, List.foldl_nil, lastValue_entry]
  rcases mem_thresholdKeys member with ⟨k, rfl⟩ | rfl | rfl
  · cases k
    all_goals
      unfold FaultKind.key wdtKey
      simp only [String.toList_inj, String.reduceEq, if_false]
  · unfold funkyKey wdtKey
    simp only [String.toList_inj, String.reduceEq, if_false]
  · unfold wdtKey
    simp only [String.toList_inj, String.reduceEq, if_true, if_false, healthGet, foldStats]

/-! ### What holds between two steps -/

def SoakEvent.polled? : SoakEvent → Option (List Text)
  | .polled failures => some failures
  | _ => none

/-- What the polls found. -/
def polls (events : List SoakEvent) : List (List Text) := events.filterMap SoakEvent.polled?

/-- The polls up to one that failed. -/
def FailedLast (found : List (List Text)) (last : List Text) : Prop :=
  ∃ earlier, found = earlier ++ [last] ∧ last ≠ [] ∧ ∀ failures ∈ earlier, failures = []

/-- A poll names what the account says, and the runner returns 0 when every poll found nothing
and 1 after the first that found something. -/
def SoakSound (before : List SoakEvent) : SoakEvent → Prop
  | .polled failures => failures = failuresOf (soakLedger before).number
  | .exited code => (code = 0 ∧ ∀ failures ∈ polls before, failures = []) ∨
      (code = 1 ∧ ∃ last, FailedLast (polls before) last)
  | _ => True

/-- The counters hold the numbers of faults. -/
def Tallied (faults : List LinkFault) (st : Stats) : Prop :=
  ∀ k : FaultKind, k.counter st = BitVec.ofNat 32 (faults.countP fun f => f.kind = k)

/-- The numbers of a `rim stats`; nothing tells the faults of the funky switch. -/
def Sampled (faults : List LinkFault) (numbers : Text → ℕ) : Prop :=
  numbers funkyKey = 0 ∧
    ∀ k : FaultKind, numbers k.key = faults.countP (fun f => f.kind = k) % 2 ^ 32

/-- Between the lines of a poll. -/
def SoakPc.polling (pc : SoakPc) : Prop := pc = .input ∨ pc = .health

instance : DecidablePred SoakPc.polling := fun _ => inferInstanceAs (Decidable (_ ∨ _))

/-- After a poll that failed. -/
def SoakPc.failing (pc : SoakPc) : Prop := pc = .capStatus ∨ pc = .failed

instance : DecidablePred SoakPc.failing := fun _ => inferInstanceAs (Decidable (_ ∨ _))

/-- What the runner has read: in a poll the numbers of its `rim stats`, outside of one the log
has the verdict of the last. -/
structure Recorded (sampled : List LinkFault) (soak : Soak) : Prop where
  text : soak.pc.polling → ∃ numbers, Tells soak.text numbers ∧ Sampled sampled numbers
  log : ∃ numbers, Tells soak.log numbers ∧ numbers funkyKey = 0 ∧
    (soak.pc.polling → Sampled sampled numbers) ∧
    (¬ soak.pc.polling → failuresOf numbers = soak.failures)

/-- The polls up to now: all passed, or all but the last. -/
structure Polled (found : List (List Text)) (soak : Soak) : Prop where
  passing : ¬ soak.pc.failing → soak.failures = [] ∧ ∀ failures ∈ found, failures = []
  failing : soak.pc.failing → FailedLast found soak.failures

structure SoakInv (events : List SoakEvent) (s : SoakSys) : Prop where
  tallied : Tallied (soakLedger events).faults s.dut.link.lnk.stats
  resets : s.dut.health.hc.wdtResets = (soakLedger events).wdtResets
  auto : s.dut.link.cap.freezeOnAnomaly = true
  ring : ∀ anomalies ∈ (soakLedger events).anomalies, RingKeeps anomalies s.dut.link.cap
  recorded : Recorded (soakLedger events).sampled s.soak
  polled : Polled (polls events) s.soak
  sound : Guarded SoakSound events

section Steps

variable {events : List SoakEvent} {s : SoakSys}

theorem polls_snoc (e : SoakEvent) : polls (events ++ [e]) = polls events ++ e.polled?.toList := by
  rw [polls, List.filterMap_append]
  cases seen : e.polled? <;> simp [polls, seen]

/-- One event: the account after it is met by what the step leaves. -/
private theorem soakInv_snoc (inv : SoakInv events s) {t : SoakSys} {e : SoakEvent}
    (tallied : Tallied ((soakLedger events).after e).faults t.dut.link.lnk.stats)
    (resets : t.dut.health.hc.wdtResets = ((soakLedger events).after e).wdtResets)
    (auto : t.dut.link.cap.freezeOnAnomaly = true)
    (ring : ∀ anomalies ∈ ((soakLedger events).after e).anomalies,
      RingKeeps anomalies t.dut.link.cap)
    (recorded : Recorded ((soakLedger events).after e).sampled t.soak)
    (polled : Polled (polls events ++ e.polled?.toList) t.soak) (sound : SoakSound events e) :
    SoakInv (events ++ [e]) t := by
  rw [← soakLedger_snoc] at tallied resets ring recorded
  rw [← polls_snoc] at polled
  exact ⟨tallied, resets, auto, ring, recorded, polled, guarded_snoc inv.sound sound⟩

/-- A step of the device: the runner has read nothing. -/
private theorem soakInv_dut (inv : SoakInv events s) {dut : Console} {e : SoakEvent}
    (quiet : e.polled? = none ∧ SoakSound events e ∧
      ((soakLedger events).after e).sampled = (soakLedger events).sampled)
    (tallied : Tallied ((soakLedger events).after e).faults dut.link.lnk.stats)
    (resets : dut.health.hc.wdtResets = ((soakLedger events).after e).wdtResets)
    (auto : dut.link.cap.freezeOnAnomaly = true)
    (ring : ∀ anomalies ∈ ((soakLedger events).after e).anomalies,
      RingKeeps anomalies dut.link.cap) :
    SoakInv (events ++ [e]) { s with dut := dut } := by
  obtain ⟨silent, sound, sampled⟩ := quiet
  refine soakInv_snoc inv tallied resets auto ring ?_ ?_ sound
  · rw [sampled]
    exact inv.recorded
  · rw [silent, Option.toList_none, List.append_nil]
    exact inv.polled

private theorem soakInv_tick (inv : SoakInv events s) (x : Samples) (now : ℤ) :
    SoakInv (events ++ [.other]) { s with dut := s.dut.tick x now } := by
  -- a publish writes a buffer and its flags
  have published : ∀ snap, (publishIfSome s.dut.link snap now).lnk.stats = s.dut.link.lnk.stats ∧
      (publishIfSome s.dut.link snap now).cap = s.dut.link.cap := by
    intro snap
    cases snap <;> exact ⟨rfl, rfl⟩
  obtain ⟨stats, cap⟩ := published (inputTick s.dut.sys.svc x).2
  refine soakInv_dut inv ⟨rfl, trivial, rfl⟩ ?_ inv.resets ?_ ?_
  · rw [Console.tick, stats]
    exact inv.tallied
  · rw [Console.tick, cap]
    exact inv.auto
  · rw [Console.tick, cap]
    exact inv.ring

/-- The gate of the anomalies is the shell's. -/
private theorem auto_step (a : Adapter) {c : Call} (traffic : fromTraffic c = true) :
    (Rimlink.step a c).1.cap.freezeOnAnomaly = a.cap.freezeOnAnomaly := by
  have noted : ∀ cap : Capture, (capNoteAnomaly cap).freezeOnAnomaly = cap.freezeOnAnomaly := by
    intro cap
    unfold capNoteAnomaly
    split <;> rfl
  obtain ⟨op, now, cycle⟩ := c
  cases op with
  | txAcquire =>
    obtain ⟨armed, buf, fresh, staleCleared, staleClear, same⟩ := rearm_frame a now
    simp only [Rimlink.step, txAcquire, same, capRecord_freezeOnAnomaly]
  | rxSubmit frame len =>
    simp only [Rimlink.step, rxSubmit_cap, rxReceive]
    split
    · exact noted a.cap
    · split
      · simp only [noted, capRecord_freezeOnAnomaly]
      · exact capRecord_freezeOnAnomaly _ _ _ _ _ _
  | rxWork =>
    obtain ⟨q, emptied⟩ := rxWorkLoop_frame 5 a
    simp only [Rimlink.step, rxWorkHandler, emptied]
  | noteCsGap _ | noteRearmMiss => rfl
  | _ => cases traffic

private theorem tallied_snoc {faults : List LinkFault} {st st' : Stats}
    (tallied : Tallied faults st) {fault : Option LinkFault}
    (stepped : ∀ k : FaultKind, k.counter st' = k.counter st + k.more fault) :
    Tallied (faults ++ fault.toList) st' := by
  intro k
  rw [stepped, tallied k]
  cases fault with
  | none => simp [FaultKind.more]
  | some f =>
    by_cases same : f.kind = k
    · simp [FaultKind.more, same, BitVec.ofNat_add]
    · simp [FaultKind.more, same]

private theorem soakInv_link (inv : SoakInv events s) {c : Call} (traffic : fromTraffic c = true) :
    SoakInv (events ++ [(linkFault s.dut.link c).elim .other .fault])
      { s with dut := (s.dut.linkCall c).1 } := by
  have tallied := tallied_snoc inv.tallied (counter_step s.dut.link traffic)
  have auto := (auto_step s.dut.link traffic).trans inv.auto
  have ring : ∀ anomalies ∈ (soakLedger events).anomalies, _ :=
    fun anomalies member => ringKeeps_step (inv.ring anomalies member) traffic
  cases fault : linkFault s.dut.link c with
  | none =>
    rw [fault] at tallied ring
    simp only [Option.toList_none, List.filter_nil, List.append_nil] at tallied ring
    exact soakInv_dut inv ⟨rfl, trivial, rfl⟩ tallied inv.resets auto ring
  | some f =>
    rw [fault] at tallied ring
    refine soakInv_dut inv ⟨rfl, trivial, rfl⟩ tallied inv.resets auto fun anomalies member => ?_
    obtain ⟨before, known, rfl⟩ := Option.map_eq_some_iff.mp member
    exact ring before known

private theorem soakInv_reboot (inv : SoakInv events s) (b : BuildInfo) (id : RimId)
    (cfg : Option Bool) {order : List String} {levels : Fin 4 → AbLevel} {now : ℤ}
    {loaded : Option HealthCounters} {wdtCause : Bool} {t : Console × ConsoleEvent}
    (booted : s.dut.step b id cfg (.reboot order levels now loaded wdtCause) = some t) :
    SoakInv (events ++ [.booted ((loaded.getD .zero).wdtResets + if wdtCause then 1 else 0)])
      { s with dut := t.1 } := by
  simp only [Console.step, Option.ite_none_right_eq_some, Option.some.injEq] at booted
  obtain ⟨-, rfl⟩ := booted
  refine soakInv_dut inv ⟨rfl, trivial, rfl⟩ ?_ ?_ rfl fun _ none => ?_
  · intro k
    cases k <;> cases cfg <;> rfl
  · cases wdtCause
    · exact (BitVec.add_zero _).symm
    · rfl
  · cases none

/-! ### What the runner does -/

/-- A step of the runner; the handler leaves the counters alone. -/
private theorem soakInv_runner (inv : SoakInv events s) {dut : Console} {soak : Soak}
    {e : SoakEvent}
    (kept : ((soakLedger events).after e).faults = (soakLedger events).faults ∧
      ((soakLedger events).after e).wdtResets = (soakLedger events).wdtResets)
    (same : dut.link.lnk.stats = s.dut.link.lnk.stats ∧
      dut.health.hc.wdtResets = s.dut.health.hc.wdtResets ∧
      dut.link.cap.freezeOnAnomaly = s.dut.link.cap.freezeOnAnomaly)
    (ring : ∀ anomalies ∈ ((soakLedger events).after e).anomalies,
      RingKeeps anomalies dut.link.cap)
    (recorded : Recorded ((soakLedger events).after e).sampled soak)
    (polled : Polled (polls events ++ e.polled?.toList) soak) (sound : SoakSound events e) :
    SoakInv (events ++ [e]) ⟨dut, soak⟩ := by
  obtain ⟨stats, resets, auto⟩ := same
  refine soakInv_snoc inv ?_ ?_ (auto.trans inv.auto) ring recorded polled sound
  · rw [kept.1, stats]
    exact inv.tallied
  · rw [kept.2, resets]
    exact inv.resets

/-- Outside of a poll nothing is read for it. -/
private theorem recorded_move {sampled : List LinkFault} {soak : Soak}
    (recorded : Recorded sampled soak) (outside : ¬ soak.pc.polling) {pc : SoakPc}
    (still : ¬ pc.polling) : Recorded sampled { soak with pc := pc } := by
  obtain ⟨numbers, tells, none, -, last⟩ := recorded.log
  exact ⟨fun inside => absurd inside still, numbers, tells, none,
    fun inside => absurd inside still, fun _ => last outside⟩

private theorem polled_move {found : List (List Text)} {soak soak' : Soak}
    (polled : Polled found soak) (failures : soak'.failures = soak.failures)
    (same : soak'.pc.failing ↔ soak.pc.failing) : Polled (found ++ []) soak' := by
  rw [List.append_nil]
  refine ⟨fun passing => ?_, fun failing => ?_⟩
  · rw [failures]
    exact polled.passing fun failing => passing (same.mpr failing)
  · rw [failures]
    exact polled.failing (same.mp failing)

/-- A statement outside of the polls: only where the runner stands changes. -/
private theorem soakInv_move (inv : SoakInv events s) (pc : SoakPc) (e : SoakEvent)
    (outside : ¬ s.soak.pc.polling ∧ ¬ pc.polling)
    (same : pc.failing ↔ s.soak.pc.failing)
    (silent : (soakLedger events).after e = soakLedger events ∧ e.polled? = none)
    (sound : SoakSound events e) : SoakInv (events ++ [e]) { s with soak.pc := pc } := by
  obtain ⟨after, none⟩ := silent
  refine soakInv_runner inv ⟨by rw [after], by rw [after]⟩ ⟨rfl, rfl, rfl⟩ ?_ ?_ ?_ sound
  · rw [after]
    exact inv.ring
  · rw [after]
    exact recorded_move inv.recorded outside.1 outside.2
  · rw [none]
    exact polled_move inv.polled rfl same

private theorem soakInv_capStart (inv : SoakInv events s) (here : s.soak.pc = .capStart) :
    SoakInv (events ++ [.started])
      ⟨s.dut.setCap (capStart s.dut.link.cap), { s.soak with pc := .simStart }⟩ := by
  refine soakInv_runner inv ⟨rfl, rfl⟩ ⟨rfl, rfl, rfl⟩ ?_ ?_ ?_ trivial
  · rintro anomalies ⟨⟩
    exact ⟨⟨rfl, rfl⟩, inv.auto⟩
  · exact recorded_move inv.recorded (by rw [here]; decide) (by decide)
  · have same : SoakPc.simStart.failing ↔ SoakPc.capStart.failing := by decide
    exact polled_move inv.polled rfl (by rw [here]; exact same)

/-! ### A poll -/

/-- What `rim stats` prints are the numbers of faults. -/
private theorem sampled_stats {faults : List LinkFault} {st : Stats} (tallied : Tallied faults st)
    {found : List (List Text)}
    (told : ∀ (k : FaultKind) n, found.foldl (lastValue k.key) n = (k.counter st).toNat)
    (left : ∀ n, found.foldl (lastValue funkyKey) n = n) {numbers : Text → ℕ}
    (none : numbers funkyKey = 0) :
    Sampled faults fun key => found.foldl (lastValue key) (numbers key) := by
  refine ⟨(left _).trans none, fun k => (told k _).trans ?_⟩
  rw [tallied k, BitVec.toNat_ofNat]

private theorem soakInv_stats (inv : SoakInv events s) (here : s.soak.pc = .stats)
    (r : Readings) {echo rest : Text} (echoed : Echo echo) (quiet : Noise rest) :
    let read := portText echo (cmdRimStats (s.dut.counters r)) rest
    SoakInv (events ++ [.sampled])
      ⟨s.dut, { s.soak with pc := .input, text := read, log := s.soak.log ++ read }⟩ := by
  intro read
  obtain ⟨found, reads, told, left⟩ := stats_found (s.dut.counters r)
  obtain ⟨numbers, log, none, -, -⟩ := inv.recorded.log
  have inside : SoakPc.input.polling := .inl rfl
  refine soakInv_runner inv ⟨rfl, rfl⟩ ⟨rfl, rfl, rfl⟩ inv.ring ⟨fun _ => ?_, ?_⟩ ?_ trivial
  · exact ⟨_, tells_read tells_nil echoed quiet reads, sampled_stats inv.tallied told left rfl⟩
  · have sampled := sampled_stats inv.tallied told left none
    exact ⟨_, tells_read log echoed quiet reads, sampled.1, fun _ => sampled,
      fun outside => absurd inside outside⟩
  · have same : SoakPc.input.failing ↔ SoakPc.stats.failing := by decide
    exact polled_move inv.polled rfl (by rw [here]; exact same)

private theorem soakInv_input (inv : SoakInv events s) (here : s.soak.pc = .input)
    (r : Readings) {echo rest : Text} (echoed : Echo echo) (quiet : Noise rest) :
    let read := portText echo (cmdRimInput (s.dut.counters r)) rest
    SoakInv (events ++ [.other])
      ⟨s.dut, { s.soak with
        pc := .health, text := s.soak.text ++ read, log := s.soak.log ++ read }⟩ := by
  intro read
  have inside : s.soak.pc.polling := .inl here
  obtain ⟨found, reads, left⟩ := input_found (s.dut.counters r)
  obtain ⟨inText, text, sampledText⟩ := inv.recorded.text inside
  obtain ⟨inLog, log, none, sampledLog, -⟩ := inv.recorded.log
  -- the reply changes none of the numbers
  have kept {t : Text} {numbers : Text → ℕ} (tells : Tells t numbers) : Tells (t ++ read) numbers :=
    (tells_read tells echoed quiet reads).congr fun key member => left key member _
  refine soakInv_runner inv ⟨rfl, rfl⟩ ⟨rfl, rfl, rfl⟩ inv.ring ⟨fun _ => ?_, ?_⟩ ?_ trivial
  · exact ⟨inText, kept text, sampledText⟩
  · exact ⟨inLog, kept log, none, fun _ => sampledLog inside,
      fun outside => absurd (.inr rfl) outside⟩
  · have same : SoakPc.health.failing ↔ SoakPc.input.failing := by decide
    exact polled_move inv.polled rfl (by rw [here]; exact same)

private theorem key_inj {k k' : FaultKind} (same : k.key = k'.key) : k = k' := by
  revert same
  cases k <;> cases k' <;> decide

/-- The numbers that a complete poll tells are those of the account. -/
private theorem number_of_poll {l : SoakLedger} {numbers : Text → ℕ}
    (sampled : Sampled l.sampled numbers) {key : Text} (member : key ∈ thresholdKeys) :
    (if key = wdtKey then l.wdtResets.toNat else numbers key) = l.number key := by
  unfold SoakLedger.number
  split
  · rfl
  next other =>
    rcases mem_thresholdKeys member with ⟨k, rfl⟩ | rfl | rfl
    · have link : k.key ≠ funkyKey := by cases k <;> decide
      rw [if_neg link, sampled.2 k]
      congr 1
      refine List.countP_congr fun f _ => ?_
      rw [decide_eq_true_iff, decide_eq_true_iff]
      exact ⟨fun same => same ▸ rfl, key_inj⟩
    · rw [sampled.1, if_pos rfl]
    · exact absurd rfl other

private theorem soakInv_health (inv : SoakInv events s) (here : s.soak.pc = .health)
    (r : Readings) {echo rest : Text} (echoed : Echo echo) (quiet : Noise rest) (h : Health)
    (folded : h.hc.wdtResets = s.dut.health.hc.wdtResets) :
    let soak := s.soak.read (portText echo (cmdRimHealth (s.dut.counters r)) rest)
    SoakInv (events ++ [.polled soak.failures]) ⟨{ s.dut with health := h }, soak⟩ := by
  intro soak
  have inside : s.soak.pc.polling := .inr here
  have passed : ¬ s.soak.pc.failing := by
    have never : ¬ SoakPc.health.failing := by decide
    rwa [here]
  obtain ⟨found, reads, told⟩ := health_found (s.dut.counters r)
  obtain ⟨inText, text, sampledText⟩ := inv.recorded.text inside
  obtain ⟨inLog, log, none, sampledLog, -⟩ := inv.recorded.log
  have resets : (s.dut.counters r).health.hc.wdtResets = (soakLedger events).wdtResets :=
    inv.resets
  -- the last reply completes the numbers, in the poll and in the log
  have complete {t : Text} {numbers : Text → ℕ} (tells : Tells t numbers)
      (sampled : Sampled (soakLedger events).sampled numbers) :
      Tells (t ++ portText echo (cmdRimHealth (s.dut.counters r)) rest)
        (soakLedger events).number := by
    refine (tells_read tells echoed quiet reads).congr fun key member => ?_
    rw [told key member, resets, number_of_poll sampled member]
  have judged := tells_evaluate (complete text sampledText)
  have shape : soak = ⟨if failuresOf (soakLedger events).number = [] then .loop else .capStatus,
      s.soak.text ++ portText echo (cmdRimHealth (s.dut.counters r)) rest,
      failuresOf (soakLedger events).number,
      s.soak.log ++ portText echo (cmdRimHealth (s.dut.counters r)) rest⟩ := by
    simp only [soak, Soak.read, here, judged]
  rw [shape]
  have outside : ¬ (if failuresOf (soakLedger events).number = [] then SoakPc.loop
      else .capStatus).polling := by
    split <;> decide
  refine soakInv_runner inv ⟨rfl, rfl⟩ ⟨rfl, folded, rfl⟩ inv.ring ⟨?_, ?_⟩ ?_ rfl
  · exact fun polling => absurd polling outside
  · refine ⟨_, complete log (sampledLog inside), ?_, fun polling => absurd polling outside,
      fun _ => rfl⟩
    have known : funkyKey ∈ thresholdKeys := by decide
    have apart : funkyKey ≠ wdtKey := by decide
    rw [← number_of_poll (sampledLog inside) known, if_neg apart, none]
  · obtain ⟨-, earlier⟩ := inv.polled.passing passed
    refine ⟨fun passing => ?_, fun failing => ?_⟩
    · have found : failuresOf (soakLedger events).number = [] := by
        by_contra some
        rw [if_neg some] at passing
        exact passing (.inl rfl)
      refine ⟨found, fun failures member => ?_⟩
      rcases List.mem_append.mp member with before | last
      · exact earlier failures before
      · rw [List.mem_singleton.mp last]
        exact found
    · refine ⟨polls events, rfl, fun found => ?_, earlier⟩
      have running : ¬ SoakPc.loop.failing := by decide
      rw [if_pos found] at failing
      exact running failing

private theorem soakInv_ask (inv : SoakInv events s) (b : BuildInfo) (r : Readings)
    {echo rest : Text} (echoed : Echo echo) (quiet : Noise rest) {t : SoakSys} {e : SoakEvent}
    (asked : s.soak.pc.line.bind (s.ask b r echo rest) = some (t, e)) :
    SoakInv (events ++ [e]) t := by
  obtain ⟨argv, line, asked⟩ := Option.bind_eq_some_iff.mp asked
  obtain ⟨⟨dut, reply⟩, replied, same⟩ := Option.map_eq_some_iff.mp asked
  cases same
  -- which handler ran is known from where the runner stands
  cases here : s.soak.pc with
  | session =>
    rw [here] at line
    cases line
    cases replied
    have same : SoakPc.capStart.failing ↔ SoakPc.session.failing := by decide
    have moved := soakInv_move inv .capStart .other
      ⟨by rw [here]; decide, by decide⟩ (by rw [here]; exact same) ⟨rfl, rfl⟩ trivial
    simp only [Soak.read, here, askedEvent]
    exact moved
  | capStart =>
    rw [here] at line
    cases line
    cases replied
    simp only [Soak.read, here, askedEvent]
    exact soakInv_capStart inv here
  | stats =>
    rw [here] at line
    cases line
    cases replied
    simp only [Soak.read, here, askedEvent]
    exact soakInv_stats inv here r echoed quiet
  | input =>
    rw [here] at line
    cases line
    cases replied
    simp only [Soak.read, here, askedEvent]
    exact soakInv_input inv here r echoed quiet
  | health =>
    rw [here] at line
    cases line
    cases replied
    exact soakInv_health inv here r echoed quiet _ rfl
  | capStatus =>
    rw [here] at line
    cases line
    cases replied
    have same : SoakPc.failed.failing ↔ SoakPc.capStatus.failing := by decide
    have judged : FailedLast (polls events) s.soak.failures :=
      inv.polled.failing (by rw [here]; exact .inl rfl)
    have moved := soakInv_move inv .failed (.exited 1)
      ⟨by rw [here]; decide, by decide⟩ (by rw [here]; exact same) ⟨rfl, rfl⟩
      (.inr ⟨rfl, _, judged⟩)
    simp only [Soak.read, here, askedEvent]
    exact moved
  | simStart | loop | passed | failed =>
    rw [here] at line
    cases line

private theorem soakInv_look (inv : SoakInv events s) (here : s.soak.pc = .loop)
    (expired : Bool) :
    SoakInv (events ++ [if expired then .exited 0 else .other])
      { s with soak := s.soak.look expired } := by
  have running : ¬ s.soak.pc.failing := by
    rw [here]
    decide
  have outside : ¬ s.soak.pc.polling := by
    rw [here]
    decide
  cases expired with
  | true =>
    have ended : ¬ SoakPc.passed.failing := by decide
    exact soakInv_move inv .passed (.exited 0) ⟨outside, by decide⟩
      (iff_of_false ended running) ⟨rfl, rfl⟩ (.inl ⟨rfl, (inv.polled.passing running).2⟩)
  | false =>
    have next : ¬ SoakPc.stats.failing := by decide
    exact soakInv_move inv .stats .other ⟨outside, by decide⟩
      (iff_of_false next running) ⟨rfl, rfl⟩ trivial

private theorem soakInv_step (inv : SoakInv events s) (b : BuildInfo) (id : RimId)
    (cfg : Option Bool) {act : SoakAct} (delivered : Delivered act) {t : SoakSys} {e : SoakEvent}
    (stepped : s.step b id cfg act = some (t, e)) : SoakInv (events ++ [e]) t := by
  cases act with
  | tick x now =>
    cases stepped
    exact soakInv_tick inv x now
  | link c =>
    simp only [SoakSys.step, Option.ite_none_right_eq_some, Option.some.injEq,
      Prod.mk.injEq] at stepped
    obtain ⟨traffic, rfl, rfl⟩ := stepped
    exact soakInv_link inv traffic
  | reboot order levels now loaded wdtCause =>
    simp only [SoakSys.step, Option.map_eq_some_iff, Prod.mk.injEq] at stepped
    obtain ⟨booted, ran, rfl, rfl⟩ := stepped
    exact soakInv_reboot inv b id cfg ran
  | ask r echo rest => exact soakInv_ask inv b r delivered.1 delivered.2 stepped
  | simStart =>
    simp only [SoakSys.step, Option.ite_none_right_eq_some, Option.some.injEq,
      Prod.mk.injEq] at stepped
    obtain ⟨here, rfl, rfl⟩ := stepped
    have same : SoakPc.loop.failing ↔ SoakPc.simStart.failing := by decide
    exact soakInv_move inv .loop .other ⟨by rw [here]; decide, by decide⟩
      (by rw [here]; exact same) ⟨rfl, rfl⟩ trivial
  | look expired =>
    simp only [SoakSys.step, Option.ite_none_right_eq_some, Option.some.injEq,
      Prod.mk.injEq] at stepped
    obtain ⟨here, rfl, rfl⟩ := stepped
    exact soakInv_look inv here expired

end Steps

section Runs

variable {b : BuildInfo} {levels : Fin 4 → AbLevel} {id : RimId} {cfg : Option Bool} {t0 : ℤ}
  {events : List SoakEvent} {s : SoakSys}

private theorem soakInv_run
    (reached : (soakMachine b levels id cfg t0).ReachesBy (fun _ => Delivered) events s) :
    SoakInv events s := by
  refine Machine.ReachesBy.induct (P := SoakInv) ?_
    (fun _ _ _ _ _ inv delivered stepped => soakInv_step inv b id cfg delivered stepped) reached
  have outside : ¬ SoakPc.session.polling := by decide
  have running : ¬ SoakPc.session.failing := by decide
  refine ⟨?_, rfl, rfl, fun _ none => ?_, ⟨fun polling => absurd polling outside, ?_⟩, ?_,
    guarded_nil _⟩
  · intro k
    cases k <;> cases cfg <;> rfl
  · cases none
  · have nothing : failuresOf (fun _ => 0) = [] := by decide
    exact ⟨_, tells_nil, rfl, fun polling => absurd polling outside, fun _ => nothing⟩
  · exact ⟨fun _ => ⟨rfl, fun _ member => nomatch member⟩, fun failing => absurd failing running⟩

/-- **Soak runs.** Whatever the device does between two lines: each poll names exactly the
counters that exceed their thresholds, with the numbers of what went wrong on the link up to its
`rim stats`; the runner returns 0 if no poll found anything and 1 after the first that did. From
`rim cap start` to the next boot the ring takes entries up to the first short or corrupt frame,
and is then frozen with that frame, if corrupt, as its last entry. -/
theorem soak_verdicts
    (reached : (soakMachine b levels id cfg t0).ReachesBy (fun _ => Delivered) events s) :
    Guarded SoakSound events ∧
      ∀ anomalies ∈ (soakLedger events).anomalies, RingKeeps anomalies s.dut.link.cap :=
  ⟨(soakInv_run reached).sound, (soakInv_run reached).ring⟩

/-- **Replay.** When the runner has returned, the recorded console of its polls, line ends
translated, is replayed with the same result. -/
theorem soak_replay
    (reached : (soakMachine b levels id cfg t0).ReachesBy (fun _ => Delivered) events s)
    {code : ℕ} (returned : s.soak.pc.exit = some code) : replay s.soak.log = code := by
  have inv := soakInv_run reached
  obtain ⟨numbers, tells, -, -, last⟩ := inv.recorded.log
  have judged := tells_evaluate (tells_universalNewlines tells)
  unfold replay
  rw [judged]
  cases here : s.soak.pc with
  | passed =>
    rw [here] at returned last
    cases returned
    have running : ¬ s.soak.pc.failing := by
      rw [here]
      decide
    rw [last (by decide), if_pos (inv.polled.passing running).1]
  | failed =>
    rw [here] at returned last
    cases returned
    have failing : s.soak.pc.failing := .inr here
    obtain ⟨earlier, -, found, -⟩ := inv.polled.failing failing
    rw [last (by decide), if_neg found]
  | _ =>
    rw [here] at returned
    cases returned

end Runs

/-- A poll of a bench whose shell prints its prompt behind every reply. -/
def onePoll : List SoakAct :=
  let ask (echo : String) : SoakAct := .ask quietReadings echo.toList "uart:~$ ".toList
  [.look false, ask "rim stats", ask "rim input", ask "rim health"]

/-- A poll, a corrupt frame, and a poll that finds it. -/
def corruptRun : List SoakAct :=
  let ask (echo : String) : SoakAct := .ask quietReadings echo.toList "uart:~$ ".toList
  [ask "rim session", ask "rim cap start", .simStart] ++ onePoll ++
    .link ⟨.rxSubmit (fun _ => 0) 33, 1, 0⟩ :: onePoll ++ [ask "rim cap status"]

def soakBench : Machine SoakSys SoakAct SoakEvent :=
  soakMachine benchBuild (fun _ => ⟨true, true⟩) 3 (some true) 0

private theorem corruptRun_ran : ∃ events s,
    soakBench.runBy (fun _ => Delivered) soakBench.start corruptRun = some (s, events) ∧
      s.soak.pc.exit = some 1 ∧
      polls events = [[], ["crc_err_rx=1 > 0".toList]] ∧
      (soakLedger events).anomalies = some [.corrupt fun _ => 0] := by
  have enabled : (soakBench.runBy (fun _ => Delivered) soakBench.start corruptRun).map
      (fun (s, events) => (s.soak.pc.exit, polls events, (soakLedger events).anomalies)) =
      some (some 1, [[], ["crc_err_rx=1 > 0".toList]], some [.corrupt fun _ => 0]) := by
    decide +kernel
  obtain ⟨⟨s, events⟩, ran, same⟩ := Option.map_eq_some_iff.mp enabled
  simp only [Prod.mk.injEq] at same
  exact ⟨events, s, ran, same⟩

theorem soak_verdicts_run : ∃ events s,
    soakBench.runBy (fun _ => Delivered) soakBench.start corruptRun = some (s, events) ∧
      polls events = [[], ["crc_err_rx=1 > 0".toList]] ∧ Guarded SoakSound events ∧
      s.dut.link.cap.frozen = true ∧ (newest s.dut.link.cap).frame = fun _ => 0 := by
  obtain ⟨events, s, ran, -, found, anomalies⟩ := corruptRun_ran
  obtain ⟨sound, ring⟩ := soak_verdicts (Machine.reachesBy_of_run ran)
  obtain ⟨frozen, last⟩ := ring _ anomalies
  exact ⟨events, s, ran, found, sound, frozen, (last _ rfl).1⟩

theorem soak_replay_run : ∃ events s,
    soakBench.runBy (fun _ => Delivered) soakBench.start corruptRun = some (s, events) ∧
      replay s.soak.log = 1 := by
  obtain ⟨events, s, ran, failed, -, -⟩ := corruptRun_ran
  exact ⟨events, s, ran, soak_replay (Machine.reachesBy_of_run ran) failed⟩

end FanatecWheel.Host
