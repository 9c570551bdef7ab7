import FanatecWheel.Host.LaDecode
import FanatecWheel.Properties.FrameCodec
import FanatecWheel.Properties.SequenceDiff
import FanatecWheel.Properties.SimReconcile

/-!
# The bench reconciles

A logic analyser listens to the wires between the simulator and the rim. Its export, decoded,
and the dump of the capture ring tell the same story: `ring_diff.py` finds no frame in the ring
that was not on the wires, but for the one that waits to be clocked.
-/

namespace FanatecWheel.BaseSim

open Foundation Rimlink App Host

/-! ### The wires -/

/-- What the analyser sees of a transaction. -/
def onWire (s : IdealLink) (index : Fin 2) (fill : Bytes 41) : Transfer where
  bytes := ((List.ofFn s.sim.mosiTxn).zip (List.ofFn (s.clockedIn index fill))).take s.sim.txnLen

inductive BenchEvent
  | clocked (t : Transfer)
  | other

def BenchEvent.transfer? : BenchEvent → Option Transfer
  | .clocked t => some t
  | .other => none

/-- The transactions, oldest first. -/
def transfers (events : List BenchEvent) : List Transfer := events.filterMap BenchEvent.transfer?

def benchEvent (s : IdealLink) : LinkAct → BenchEvent
  | .transact fill _ => s.txBuf.elim .other fun index => .clocked (onWire s index fill)
  | _ => .other

/-- The ideal link, observed at the wires. -/
def bench (id : RimId) (now : ℤ) (clockHz cadenceUs jitterUs flushBytes : U32) :
    Machine IdealLink LinkAct BenchEvent where
  start := (linkMachine id now clockHz cadenceUs jitterUs flushBytes).start
  step s a := ((linkMachine id now clockHz cadenceUs jitterUs flushBytes).step s a).map
    fun (t, _) => (t, benchEvent s a)

/-- No byte is clocked behind the frame. -/
def Unflushed (s : IdealLink) : LinkAct → Prop
  | .transact _ _ => s.sim.txnLen ≤ 33
  | _ => True

instance (s : IdealLink) (a : LinkAct) : Decidable (Unflushed s a) :=
  match a with
  | .transact _ _ => inferInstanceAs (Decidable (_ ≤ _))
  | .arm _ _ => isTrue trivial
  | .command _ => isTrue trivial
  | .rim _ => isTrue trivial

theorem transfers_snoc (events : List BenchEvent) (e : BenchEvent) :
    transfers (events ++ [e]) = transfers events ++ e.transfer?.toList := by
  rw [transfers, List.filterMap_append]
  cases seen : e.transfer? <;> simp [transfers, seen]

section Wire

variable (s : IdealLink) (index : Fin 2) (fill : Bytes 41)

theorem onWire_length : (onWire s index fill).bytes.length = min s.sim.txnLen 41 := by
  simp [onWire]

private theorem take_ofFn (b : Bytes 41) : (List.ofFn b).take 33 = List.ofFn (frameOf b) := by
  apply List.ext_getElem
  · simp
  · intro i inside below
    simp [frameOf]

/-- A whole transaction shows the frame sent and the frame armed. -/
theorem onWire_whole (whole : s.sim.txnLen = 33) :
    (onWire s index fill).mosi = List.ofFn (frameOf s.sim.mosiTxn) ∧
      (onWire s index fill).miso = List.ofFn (s.rim.lnk.buf index) := by
  have armed : frameOf (s.clockedIn index fill) = s.rim.lnk.buf index := by
    funext i
    simp [frameOf, IdealLink.clockedIn]
  have sides : ((List.ofFn s.sim.mosiTxn).take 33).length =
      ((List.ofFn (s.clockedIn index fill)).take 33).length := by
    simp
  rw [Transfer.mosi, Transfer.miso, onWire, whole, List.zip, List.take_zipWith, ← List.zip,
    List.map_fst_zip (le_of_eq sides), List.map_snd_zip (le_of_eq sides.symm), take_ofFn,
    take_ofFn, armed]
  exact ⟨rfl, rfl⟩

end Wire

theorem wireCrcOk_frame (frame : Frame) : wireCrcOk (List.ofFn frame) = decide (Sealed frame) := by
  rw [wireCrcOk, decide_eq_decide]
  unfold Sealed
  rw [crcRegion_eq]
  simp [frameLen, offCrc, eq_comm]

/-! ### What the ring keeps of a call -/

/-- The ring of the adapter takes an entry or not. -/
theorem capRecord_log {c : Capture} {log : List CapEntry} (held : c.toRing.Holds log)
    (dir : CapDir) (frame : Frame) (crcOk : Bool) (gap cycle : U32) :
    ∃ new, (new = [] ∨ new = [capEntry dir frame crcOk gap cycle]) ∧
      (capRecord c dir frame crcOk gap cycle).toRing.Holds (log ++ new) := by
  by_cases ready : c.Open
  · refine ⟨_, .inr rfl, ?_⟩
    rw [capRecord_open ready]
    exact Ring.holds_append ⟨2 ^ 24, by decide⟩ held _
  · refine ⟨[], .inl rfl, ?_⟩
    rw [capRecord_shut ready, List.append_nil]
    exact held

theorem rxSubmit_ring (a : Adapter) (frame : Frame) (len : ℕ) (cycle : U32) :
    (rxSubmit a frame len cycle).cap.toRing = if len < 33 then a.cap.toRing else
      (capRecord a.cap .rx frame (Sealed frame) a.lastCsGapUs cycle).toRing := by
  rw [rxSubmit_cap]
  split
  next short => rw [rxReceive_short a cycle short, capNoteAnomaly_toRing]
  next full =>
    by_cases sealed : Sealed frame
    · obtain ⟨out, valid⟩ := Option.isSome_iff_exists.mp ((frameValidate_isSome frame).mpr sealed)
      rw [rxReceive_valid a cycle (Nat.le_of_not_lt full) valid, decide_eq_true sealed]
    · rw [rxReceive_corrupt a cycle (Nat.le_of_not_lt full) sealed, decide_eq_false sealed]
      exact capNoteAnomaly_toRing _

/-- No other call touches the entries or the armed frame. -/
theorem step_armed (a : Adapter) (c : Call) (receive : ∀ frame len, c.op ≠ .rxSubmit frame len)
    (acquire : c.op ≠ .txAcquire) :
    (Rimlink.step a c).1.cap.toRing = a.cap.toRing ∧
      (Rimlink.step a c).1.lnk.armed = a.lnk.armed ∧
      (Rimlink.step a c).1.lnk.buf a.lnk.armed = a.lnk.buf a.lnk.armed := by
  unfold Rimlink.step
  cases called : c.op with
  | txAcquire => exact absurd called acquire
  | rxSubmit frame len => exact absurd called (receive frame len)
  | snapshotPublish inp =>
    refine ⟨rfl, rfl, Function.update_of_ne ?_ _ _⟩
    -- the staging buffer is the other one
    generalize a.lnk.armed = armed
    revert armed
    decide
  | rxWork =>
    obtain ⟨q, same⟩ := rxWorkLoop_frame 5 a
    simp only [rxWorkHandler, same, and_self]
  | _ => exact ⟨rfl, rfl, rfl⟩

/-! ### The run -/

/-- A frame and the verdict on it. -/
abbrev Verdict := List U8 × Bool

def mosiVerdict (t : Transfer) : Verdict := (t.mosi, wireCrcOk t.mosi)

def misoVerdict (t : Transfer) : Verdict := (t.miso, wireCrcOk t.miso)

/-- The entries of a direction. -/
def recorded (dir : CapDir) (entries : List CapEntry) : List Verdict :=
  (entries.filter fun e => e.dir = dir).map fun e => (List.ofFn e.frame, e.crcOk = 1)

theorem recorded_append (dir : CapDir) (first second : List CapEntry) :
    recorded dir (first ++ second) = recorded dir first ++ recorded dir second := by
  rw [recorded, List.filter_append, List.map_append]
  rfl

/-- What a call of `rimlink_cap_record` adds to a direction. -/
theorem recorded_capEntry (dir side : CapDir) (frame : Frame) (crcOk : Bool) (gap cycle : U32) :
    recorded side [capEntry dir frame crcOk gap cycle] =
      if dir = side then [(List.ofFn frame, crcOk)] else [] := by
  cases crcOk <;> by_cases same : dir = side <;> simp [recorded, capEntry, same]

/-- The frame that waits in the transfer. -/
def waiting (s : IdealLink) : List Verdict :=
  s.txBuf.toList.map fun index =>
    (List.ofFn (s.rim.lnk.buf index), wireCrcOk (List.ofFn (s.rim.lnk.buf index)))

/-- The log of the ring against the transactions on the wires. -/
structure Overheard (seen : List Transfer) (s : IdealLink) : Prop where
  clocked : ∀ t ∈ seen, t.bytes ≠ []
  armed : ∀ index ∈ s.txBuf, index = s.rim.lnk.armed
  log : ∃ log, s.rim.cap.toRing.Holds log ∧
    (recorded .rx log).Sublist (seen.map mosiVerdict) ∧
    ((∀ t ∈ seen, t.bytes.length = 33) →
      (recorded .tx log).Sublist (seen.map misoVerdict ++ waiting s))

section Steps

variable {seen : List Transfer} {s : IdealLink}

/-- A step that leaves the ring and the waiting frame. -/
private theorem overheard_same (overheard : Overheard seen s) {t : IdealLink}
    (ring : t.rim.cap.toRing = s.rim.cap.toRing) (waits : t.txBuf = s.txBuf)
    (armed : t.rim.lnk.armed = s.rim.lnk.armed)
    (buffer : t.rim.lnk.buf s.rim.lnk.armed = s.rim.lnk.buf s.rim.lnk.armed) :
    Overheard seen t := by
  obtain ⟨log, held, rx, tx⟩ := overheard.log
  have waiting : waiting t = waiting s := by
    rw [waiting, waiting, waits]
    refine List.map_congr_left fun index member => ?_
    rw [overheard.armed index (Option.mem_toList.mp member), buffer]
  refine ⟨overheard.clocked, ?_, log, ring ▸ held, rx, waiting ▸ tx⟩
  rw [waits, armed]
  exact overheard.armed

private theorem overheard_arm (overheard : Overheard seen s) (idle : s.txBuf = none)
    (built : Built s.rim) (now : ℤ) (cycle : U32) : Overheard seen (s.arm now cycle) := by
  obtain ⟨log, held, rx, tx⟩ := overheard.log
  have ring : (rearm s.rim now).cap = s.rim.cap := by
    obtain ⟨armed, buf, fresh, staleCleared, staleClear, same⟩ := rearm_frame s.rim now
    rw [same]
  obtain ⟨new, wrote, held'⟩ := capRecord_log held .tx (armedFrame (rearm s.rim now)) true
    (rearm s.rim now).lastCsGapUs cycle
  rw [← ring] at held'
  have sealed : wireCrcOk (List.ofFn (armedFrame (rearm s.rim now))) = true := by
    obtain ⟨inp, id, frame⟩ := built_txAcquire built now cycle (rearm s.rim now).lnk.armed
    have armed : armedFrame (rearm s.rim now) = frameBuildId inp id := frame
    rw [wireCrcOk_frame, armed]
    exact decide_eq_true (frameBuildId_sealed inp id)
  have waits : waiting (s.arm now cycle) = [(List.ofFn (armedFrame (rearm s.rim now)), true)] := by
    rw [← sealed]
    rfl
  have none_waits : waiting s = [] := by
    rw [waiting, idle]
    rfl
  rw [none_waits, List.append_nil] at tx
  refine ⟨overheard.clocked, fun index member => (Option.mem_some_iff.mp member).symm,
    log ++ new, held', ?_, fun whole => ?_⟩
  · rw [recorded_append]
    rcases wrote with rfl | rfl
    · exact (List.append_nil _).symm ▸ rx
    · rw [recorded_capEntry, if_neg (by decide), List.append_nil]
      exact rx
  · rw [recorded_append, waits]
    rcases wrote with rfl | rfl
    · exact (tx whole).append (List.nil_sublist _)
    · rw [recorded_capEntry, if_pos rfl]
      exact (tx whole).append (List.Sublist.refl _)

private theorem overheard_transact (overheard : Overheard seen s) {index : Fin 2}
    (waits : s.txBuf = some index) (fits : s.sim.txnLen ≤ 33) (some_byte : 1 ≤ s.sim.txnLen)
    (fill : Bytes 41) (cycle : U32) :
    Overheard (seen ++ [onWire s index fill]) (s.transact index fill cycle) := by
  obtain ⟨log, held, rx, tx⟩ := overheard.log
  have sized := onWire_length s index fill
  have clocked : ∀ t ∈ seen ++ [onWire s index fill], t.bytes ≠ [] := by
    rw [List.forall_mem_append, List.forall_mem_singleton]
    refine ⟨overheard.clocked, List.ne_nil_of_length_pos ?_⟩
    omega
  have ring := rxSubmit_ring s.rim (s.received (min s.sim.txnLen 33) s.sim.mosiTxn)
    (min s.sim.txnLen 33) cycle
  have none_waits : waiting (s.transact index fill cycle) = [] := rfl
  have waited : waiting s = [(List.ofFn (s.rim.lnk.buf index),
      wireCrcOk (List.ofFn (s.rim.lnk.buf index)))] := by
    rw [waiting, waits]
    rfl
  rcases Nat.lt_or_eq_of_le fits with short | whole
  · -- a short frame is not recorded
    rw [if_pos (by omega)] at ring
    refine ⟨clocked, fun _ none => (nomatch none), log, ring ▸ held, ?_, fun all => ?_⟩
    · rw [List.map_append]
      exact rx.trans (List.sublist_append_left _ _)
    · have last := all _ (List.mem_append_right _ (List.mem_singleton.mpr rfl))
      omega
  · have received : s.received (min s.sim.txnLen 33) s.sim.mosiTxn = frameOf s.sim.mosiTxn := by
      funext i
      simp [IdealLink.received, whole]
    rw [if_neg (by omega), received] at ring
    obtain ⟨mosi, miso⟩ := onWire_whole s index fill whole
    obtain ⟨new, wrote, held'⟩ := capRecord_log held .rx (frameOf s.sim.mosiTxn)
      (Sealed (frameOf s.sim.mosiTxn)) s.rim.lastCsGapUs cycle
    rw [← ring, ← received] at held'
    refine ⟨clocked, fun _ none => (nomatch none), log ++ new, held', ?_, fun all => ?_⟩
    · rw [recorded_append, List.map_append, List.map_singleton, mosiVerdict, mosi,
        wireCrcOk_frame]
      rcases wrote with rfl | rfl
      · exact rx.append (List.nil_sublist _)
      · rw [recorded_capEntry, if_pos rfl]
        exact rx.append (List.Sublist.refl _)
    · rw [recorded_append, none_waits, List.append_nil, List.map_append, List.map_singleton,
        misoVerdict, miso]
      have before := tx fun t member => all t (List.mem_append_left _ member)
      rw [waited] at before
      rcases wrote with rfl | rfl
      · exact (List.append_nil _).symm ▸ before
      · rw [recorded_capEntry, if_neg (by decide), List.append_nil]
        exact before

end Steps

section Runs

variable {id : RimId} {now : ℤ} {clockHz cadenceUs jitterUs flushBytes : U32}
  {events : List BenchEvent} {s : IdealLink}

private theorem bench_step {t : IdealLink} {a : LinkAct} {e : BenchEvent}
    (stepped : (bench id now clockHz cadenceUs jitterUs flushBytes).step s a = some (t, e)) :
    ∃ out, s.step a = some (t, out) ∧ e = benchEvent s a := by
  obtain ⟨⟨t', out⟩, moved, same⟩ := Option.map_eq_some_iff.mp stepped
  cases same
  exact ⟨out, moved, rfl⟩

/-- The observed link goes through the states of the link. -/
theorem reaches_of_bench
    (reached : (bench id now clockHz cadenceUs jitterUs flushBytes).ReachesBy Unflushed events s) :
    ∃ outs, (linkMachine id now clockHz cadenceUs jitterUs flushBytes).Reaches outs s := by
  induction reached with
  | start => exact ⟨[], .start⟩
  | next _ _ stepped before =>
    obtain ⟨outs, before⟩ := before
    obtain ⟨out, moved, -⟩ := bench_step stepped
    exact ⟨_, before.next trivial moved⟩

private theorem overheard_step {seen : List Transfer} (overheard : Overheard seen s)
    (built : Built s.rim) {a : LinkAct} (fits : Unflushed s a) {t : IdealLink} {out : LinkEvent}
    (moved : s.step a = some (t, out)) :
    Overheard (seen ++ (benchEvent s a).transfer?.toList) t := by
  cases a with
  | arm now cycle =>
    rw [show (benchEvent s (.arm now cycle)).transfer?.toList = [] from rfl, List.append_nil]
    simp only [IdealLink.step] at moved
    split at moved
    next idle =>
      cases moved
      exact overheard_arm overheard idle built now cycle
    · cases moved
  | transact fill cycle =>
    simp only [IdealLink.step] at moved
    split at moved
    · cases moved
    next index waits =>
      cases moved
      have event : benchEvent s (.transact fill cycle) = .clocked (onWire s index fill) := by
        rw [benchEvent, waits]
        rfl
      rw [event]
      refine overheard_transact overheard waits fits ?_ fill cycle
      by_cases truncated : s.sim.injected = .trunc
      · exact (txnLen_trunc s.sim truncated).1
      · exact Nat.le_trans (by decide) (txnLen_whole s.sim truncated).1
  | command cmd =>
    rw [show (benchEvent s (.command cmd)).transfer?.toList = [] from rfl, List.append_nil]
    cases moved
    exact overheard_same overheard rfl rfl rfl rfl
  | rim c =>
    rw [show (benchEvent s (.rim c)).transfer?.toList = [] from rfl, List.append_nil]
    simp only [IdealLink.step] at moved
    split at moved
    · cases moved
    · cases moved
    · cases moved
    next acquire receive reset =>
      cases moved
      obtain ⟨ring, armed, buffer⟩ := step_armed s.rim c receive acquire
      exact overheard_same overheard ring rfl armed buffer

theorem overheard_run
    (reached : (bench id now clockHz cadenceUs jitterUs flushBytes).ReachesBy Unflushed events s) :
    Overheard (transfers events) s := by
  induction reached with
  | start =>
    refine ⟨List.forall_mem_nil _, fun _ none => (nomatch none), [], Ring.holds_nil _ rfl, ?_, ?_⟩
    · exact List.nil_sublist _
    · exact fun _ => List.nil_sublist _
  | next before fits stepped overheard =>
    obtain ⟨outs, reached⟩ := reaches_of_bench before
    obtain ⟨out, moved, rfl⟩ := bench_step stepped
    rw [transfers_snoc]
    exact overheard_step overheard (reconciled_run reached).built fits moved

/-! ### The report -/

/-- The entries of the dump, in each direction, as verdicts. -/
theorem dutCapture_recorded (entries : List CapEntry) :
    (dutCapture entries).rx.map (fun e => (e.hex, e.crcOk)) =
        (recorded .rx entries).map (fun v => (hexText v.1, v.2)) ∧
      (dutCapture entries).tx.map (fun e => (e.hex, e.crcOk)) =
        (recorded .tx entries).map (fun v => (hexText v.1, v.2)) := by
  have entry (e : CapEntry) : ((dutEntry e).hex, (dutEntry e).crcOk) =
      (hexText (List.ofFn e.frame), decide (e.crcOk = 1)) := by
    rw [dutEntry, hexText, List.ofFn_eq_map, List.flatMap_map]
  simp only [dutCapture, recorded, List.map_map, Function.comp_def, entry, and_self]

theorem seqDiff_waiting {dut : List DutEntry} {la last : List Text} (few : last.length ≤ 1)
    (seen : (dut.map DutEntry.hex).Sublist (la ++ last)) :
    (seqDiff dut la).dutExtra ≤ last.length := by
  obtain ⟨front, rest, split, inLa, inLast⟩ := List.sublist_append_iff.mp seen
  have matched := matchCount_waiting rest (inLast.length_le.trans few) inLa
  have lengths := congrArg List.length split
  have one := inLast.length_le
  rw [← split] at matched
  rw [List.length_append, List.length_map] at lengths
  simp only [seqDiff, List.length_map]
  omega

/-- **The bench reconciles.** In every run in which no byte is clocked behind a frame: the
analyser's file decodes, every frame received in the ring is one it saw, in the same order
and with the same verdict on its CRC, and the comparison reports no extra one. When no
transaction was cut short either, the frames sent are so too, and the comparison reports at
most the frame that waits to be clocked. -/
theorem ring_reconciles {F : Type} (float : Text → Option F) (time : ℕ → ℕ → Text) {t0 : ℕ → F}
    (timed : ∀ n, float (time n 0) = some (t0 n))
    (reached : (bench id now clockHz cadenceUs jitterUs flushBytes).ReachesBy Unflushed events s) :
    ∃ recs dut rx tx, laDecode float (laFile time (transfers events)) = some recs ∧
      loadDut (cmdRimCapDump s.rim.cap) = some dut ∧
      (dut.rx.map fun e => (e.hex, e.crcOk)).Sublist
        (recs.map fun r => (r.mosiHex, r.mosiCrcOk)) ∧
      ringDiff (cmdRimCapDump s.rim.cap) (loadLa recs).1 (loadLa recs).2 = some (rx, tx) ∧
      rx.dutExtra = 0 ∧
      ((∀ t ∈ transfers events, t.bytes.length = 33) → tx.dutExtra ≤ s.txBuf.toList.length) := by
  have overheard := overheard_run reached
  obtain ⟨log, held, rx, tx⟩ := overheard.log
  -- the ring keeps the newest entries of its log
  have newest : (s.rim.cap.contents).Sublist log :=
    (Ring.contents_suffix ⟨2 ^ 24, by decide⟩ (by decide) held).sublist
  have fewer (dir : CapDir) :
      (recorded dir s.rim.cap.contents).Sublist (recorded dir log) := (newest.filter _).map _
  obtain ⟨rxDut, txDut⟩ := dutCapture_recorded s.rim.cap.contents
  have rxSeen := ((fewer .rx).trans rx).map fun v => (hexText v.1, v.2)
  rw [← rxDut, List.map_map] at rxSeen
  have rxHex := rxSeen.map Prod.fst
  rw [List.map_map, List.map_map] at rxHex
  refine ⟨_, _, seqDiff (dutCapture s.rim.cap.contents).rx
      ((transfers events).map fun t : Transfer => hexText t.mosi),
    seqDiff (dutCapture s.rim.cap.contents).tx
      ((transfers events).map fun t : Transfer => hexText t.miso),
    laDecode_laFile timed overheard.clocked, (loadDut_cmdRimCapDump s.rim.cap).1, ?_, ?_,
    (seqDiff_lossy rxHex).2, fun whole => ?_⟩
  · rw [map_laRecs (h := fun t => (hexText t.mosi, wireCrcOk t.mosi)) t0 fun _ _ => rfl]
    exact rxSeen
  · rw [ringDiff, (loadDut_cmdRimCapDump s.rim.cap).1, loadLa,
      map_laRecs (g := LaRec.mosiHex) (h := fun t => hexText t.mosi) t0 fun _ _ => rfl,
      map_laRecs (g := LaRec.misoHex) (h := fun t => hexText t.miso) t0 fun _ _ => rfl]
    rfl
  · have txHex := (((fewer .tx).trans (tx whole)).map fun v => (hexText v.1, v.2)).map Prod.fst
    rw [← txDut, List.map_map, List.map_append, List.map_append, List.map_map, List.map_map] at txHex
    have one : (((waiting s).map fun v => (hexText v.1, v.2)).map Prod.fst).length =
        s.txBuf.toList.length := by
      rw [List.length_map, List.length_map, waiting, List.length_map]
    rw [← one]
    refine seqDiff_waiting ?_ txHex
    rw [one]
    cases s.txBuf with
    | none => exact Nat.zero_le _
    | some _ => exact Nat.le_refl _

/-- Everything enters the ring; two transactions, the second corrupted, and a third armed. -/
def benchRun : List LinkAct :=
  [.rim ⟨.capStart, 0, 0⟩, .rim ⟨.capFreezeOnAnomaly false, 0, 0⟩, .command (.leds 5), .arm 0 0,
    .transact (fun _ => 0) 0, .command (.fault "crc" (some 1)), .arm 1 0,
    .transact (fun _ => 0) 0, .arm 2 0]

theorem ring_reconciles_run : ∃ events s rx tx,
    (bench 3 0 500000 2000 0 0).runBy Unflushed (bench 3 0 500000 2000 0 0).start benchRun =
      some (s, events) ∧
    (∃ recs, laDecode (digitsValue 10) (laFile (fun _ _ => ['0']) (transfers events)) = some recs ∧
      ringDiff (cmdRimCapDump s.rim.cap) (loadLa recs).1 (loadLa recs).2 = some (rx, tx)) ∧
    rx.dutExtra = 0 := by
  have enabled : ((bench 3 0 500000 2000 0 0).runBy Unflushed
      (bench 3 0 500000 2000 0 0).start benchRun).isSome := by
    decide +kernel
  obtain ⟨⟨s, events⟩, ran⟩ := Option.isSome_iff_exists.mp enabled
  obtain ⟨recs, dut, rx, tx, decoded, -, -, report, none_extra, -⟩ :=
    ring_reconciles (digitsValue 10) (fun _ _ => ['0']) (fun _ => rfl) (Machine.reachesBy_of_run ran)
  exact ⟨events, s, rx, tx, ran, ⟨recs, decoded, report⟩, none_extra⟩

end Runs

end FanatecWheel.BaseSim
