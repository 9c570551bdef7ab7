import FanatecWheel.App.LinkThread
import FanatecWheel.Properties.Transmit

/-!
# Transfers of the link thread

Whatever runs between two statements of the link thread, and however the driver ends its
transfers: these are made with the acquired frames, each once and in order, and what they
receive is submitted, each once and in order. The counters count the submitted transfers and the
edges that found the thread disarmed; an edge that finds no transfer in the driver goes uncounted
while the flag is up.
-/

namespace FanatecWheel.App

open Foundation Rimlink

/-! ### What is seen of a run -/

namespace TransferEvent

def acquired? : TransferEvent → Option Frame
  | .acquired frame => some frame
  | _ => none

def transmitted? : TransferEvent → Option Frame
  | .ended miso _ => some miso
  | _ => none

def received? : TransferEvent → Option Received
  | .ended _ rx => some rx
  | _ => none

def submitted? : TransferEvent → Option Received
  | .submitted rx => some rx
  | _ => none

def isFull : TransferEvent → Bool
  | .submitted rx => 33 ≤ rx.ret.getD 0
  | _ => false

def isShort : TransferEvent → Bool
  | .submitted rx => rx.ret.getD 0 < 33
  | _ => false

/-- CS rose and the flag was down. -/
def isMiss : TransferEvent → Bool
  | .rose armed _ => !armed
  | _ => false

end TransferEvent

section Lists

variable (events : List TransferEvent)

def acquiredFrames : List Frame := events.filterMap TransferEvent.acquired?

def transmittedFrames : List Frame := events.filterMap TransferEvent.transmitted?

def receivedTransfers : List Received := events.filterMap TransferEvent.received?

def submittedTransfers : List Received := events.filterMap TransferEvent.submitted?

/-- The events since the last reset of the statistics. -/
def accounted : List TransferEvent :=
  events.foldl (fun since e => if e = .reset then [] else since ++ [e]) []

variable (e : TransferEvent)

private theorem filterMap_snoc {β : Type} (f : TransferEvent → Option β) :
    (events ++ [e]).filterMap f = events.filterMap f ++ (f e).toList := by
  rw [List.filterMap_append]
  cases seen : f e <;> simp [seen]

theorem acquiredFrames_snoc :
    acquiredFrames (events ++ [e]) = acquiredFrames events ++ e.acquired?.toList :=
  filterMap_snoc events e _

theorem transmittedFrames_snoc :
    transmittedFrames (events ++ [e]) = transmittedFrames events ++ e.transmitted?.toList :=
  filterMap_snoc events e _

theorem receivedTransfers_snoc :
    receivedTransfers (events ++ [e]) = receivedTransfers events ++ e.received?.toList :=
  filterMap_snoc events e _

theorem submittedTransfers_snoc :
    submittedTransfers (events ++ [e]) = submittedTransfers events ++ e.submitted?.toList :=
  filterMap_snoc events e _

theorem accounted_snoc :
    accounted (events ++ [e]) = if e = .reset then [] else accounted events ++ [e] := by
  simp only [accounted, List.foldl_append, List.foldl_cons, List.foldl_nil]

end Lists

/-! ### The counters of the link -/

structure LinkCounts where
  txn : U32
  short : U32
  miss : U32

def linkCounts (a : Adapter) : LinkCounts :=
  ⟨a.lnk.stats.txnCount, a.lnk.stats.shortFrame, a.lnk.stats.rearmMiss⟩

/-- The counters hold the numbers of full and short transfers and of missed edges. -/
structure LinkCounted (window : List TransferEvent) (c : LinkCounts) : Prop where
  txn : c.txn = BitVec.ofNat 32 (window.countP TransferEvent.isFull)
  short : c.short = BitVec.ofNat 32 (window.countP TransferEvent.isShort)
  miss : c.miss = BitVec.ofNat 32 (window.countP TransferEvent.isMiss)

theorem linkCounted_nil : LinkCounted [] ⟨0, 0, 0⟩ := ⟨rfl, rfl, rfl⟩

theorem linkCounts_txAcquire (a : Adapter) (now : ℤ) (cycle : U32) :
    linkCounts (txAcquire a now cycle).1 = linkCounts a := by
  obtain ⟨armed, buf, fresh, staleCleared, staleClear, same⟩ := rearm_frame a now
  rw [txAcquire, same]
  rfl

theorem linkCounts_rxSubmit (a : Adapter) (frame : Frame) (len : ℕ) (cycle : U32) :
    linkCounts (rxSubmit a frame len cycle) =
      if len < 33 then { linkCounts a with short := a.lnk.stats.shortFrame + 1 }
      else { linkCounts a with txn := a.lnk.stats.txnCount + 1 } := by
  obtain ⟨msgq, workq, overrun, same⟩ := rxSubmit_handsOver a cycle frame len
  -- the queue behind the callback has counters of its own
  have received : linkCounts (rxSubmit a frame len cycle) =
      linkCounts (rxReceive a frame len cycle).1 := by
    rw [same]
    rfl
  rw [received]
  split
  next short =>
    rw [rxReceive_short a cycle short]
    rfl
  next long =>
    have full : 33 ≤ len := Nat.not_lt.mp long
    by_cases sealed : Sealed frame
    · obtain ⟨out, valid⟩ := Option.isSome_iff_exists.mp ((frameValidate_isSome frame).mpr sealed)
      rw [rxReceive_valid a cycle full valid]
      rfl
    · rw [rxReceive_corrupt a cycle full sealed]
      rfl

theorem linkCounts_noteCsGap (a : Adapter) (gapUs : U32) :
    linkCounts (noteCsGap a gapUs) = linkCounts a := by
  simp only [linkCounts, noteCsGap]

theorem linkCounts_noteRearmMiss (a : Adapter) : linkCounts (noteRearmMiss a) =
    { linkCounts a with miss := (linkCounts a).miss + 1 } := rfl

/-- The interrupt counts a miss when the flag is down. -/
theorem linkCounts_csSenseIsr (hz : ℕ) (s : LinkSpi) (now : U32) :
    linkCounts (csSenseIsr hz s now).adapter =
      if s.armed then linkCounts s.adapter
      else { linkCounts s.adapter with miss := (linkCounts s.adapter).miss + 1 } := by
  unfold csSenseIsr
  -- a gap is noted from the second edge on
  by_cases nonzero : s.lastCsRiseCyc ≠ 0
  · simp only [if_pos nonzero]
    cases s.armed with
    | false => simp only [Bool.false_eq_true, if_false, linkCounts_noteRearmMiss,
        linkCounts_noteCsGap]
    | true => simp only [if_true, linkCounts_noteCsGap]
  · simp only [if_neg nonzero]
    cases s.armed with
    | false => simp only [Bool.false_eq_true, if_false, linkCounts_noteRearmMiss]
    | true => simp only [if_true]

/-- Of the calls of the others only the reset touches the counters. -/
theorem linkCounts_others (a : Adapter) {c : Call} (others : fromOthers c = true) :
    linkCounts (step a c).1 = if c.op = .statsReset then ⟨0, 0, 0⟩ else linkCounts a := by
  unfold fromOthers at others
  unfold step
  cases called : c.op with
  | rxWork =>
    obtain ⟨q, emptied⟩ := rxWorkLoop_frame 5 a
    simp only [rxWorkHandler, emptied, linkCounts, reduceCtorEq, if_false]
  | statsReset => rfl
  | txAcquire | rxSubmit _ _ | noteCsGap _ | noteRearmMiss =>
    rw [called] at others
    cases others
  | _ => rfl

private theorem linkCounted_snoc {window : List TransferEvent} {c : LinkCounts}
    (held : LinkCounted window c) {e : TransferEvent} {c' : LinkCounts}
    (txn : c'.txn = c.txn + if e.isFull then 1 else 0)
    (short : c'.short = c.short + if e.isShort then 1 else 0)
    (miss : c'.miss = c.miss + if e.isMiss then 1 else 0) :
    LinkCounted (window ++ [e]) c' := by
  have counted : ∀ n (b : Prop) [Decidable b],
      (BitVec.ofNat 32 n + if b then 1 else 0 : U32) =
        BitVec.ofNat 32 (n + if b then 1 else 0) := by
    intro n b _
    split
    · exact (count_succ n).symm
    · exact BitVec.add_zero _
  refine ⟨?_, ?_, ?_⟩
  · rw [txn, held.txn, counted, List.countP_append, List.countP_singleton]
  · rw [short, held.short, counted, List.countP_append, List.countP_singleton]
  · rw [miss, held.miss, counted, List.countP_append, List.countP_singleton]

/-! ### What holds between two statements -/

namespace LinkPc

/-- The flag is up. -/
def armed : LinkPc → Bool
  | .setReady | .noteBoot | .transceive | .waiting | .clearArmed => true
  | _ => false

/-- The pin is high. -/
def ready : LinkPc → Bool
  | .noteBoot | .transceive | .waiting | .clearArmed | .clearReady => true
  | _ => false

/-- A frame was acquired and its transfer has not ended. -/
def staged : LinkPc → Bool
  | .setArmed | .setReady | .noteBoot | .transceive | .waiting => true
  | _ => false

/-- A transfer has ended and was not submitted. -/
def inHand : LinkPc → Bool
  | .clearArmed | .clearReady | .submit => true
  | _ => false

end LinkPc

namespace LinkThread

def staged (s : LinkThread) : List Frame := if s.pc.staged then [armedFrame s.spi.adapter] else []

def inHand (s : LinkThread) : List Received := if s.pc.inHand then [s.rx] else []

end LinkThread

structure TransferInv (events : List TransferEvent) (s : LinkThread) : Prop where
  sent : acquiredFrames events = transmittedFrames events ++ s.staged
  handed : receivedTransfers events = submittedTransfers events ++ s.inHand
  buffer : s.pc.staged = true → s.txb = s.spi.adapter.lnk.armed
  armed : s.spi.armed = s.pc.armed
  ready : s.spi.linkReady = s.pc.ready
  counted : LinkCounted (accounted events) (linkCounts s.spi.adapter)

section Steps

variable {hz : ℕ} {events : List TransferEvent} {s t : LinkThread} {e : TransferEvent}

/-- One event: what was staged and what is acquired is clocked out or staged; what was in hand and
what is received is submitted or in hand. -/
private theorem transferInv_snoc (inv : TransferInv events s)
    (sent : s.staged ++ e.acquired?.toList = e.transmitted?.toList ++ t.staged)
    (handed : s.inHand ++ e.received?.toList = e.submitted?.toList ++ t.inHand)
    (buffer : t.pc.staged = true → t.txb = t.spi.adapter.lnk.armed)
    (armed : t.spi.armed = t.pc.armed) (ready : t.spi.linkReady = t.pc.ready)
    (counted : LinkCounted (accounted (events ++ [e])) (linkCounts t.spi.adapter)) :
    TransferInv (events ++ [e]) t := by
  refine ⟨?_, ?_, buffer, armed, ready, counted⟩
  · rw [acquiredFrames_snoc, transmittedFrames_snoc, inv.sent, List.append_assoc, sent,
      List.append_assoc]
  · rw [receivedTransfers_snoc, submittedTransfers_snoc, inv.handed, List.append_assoc, handed,
      List.append_assoc]

private theorem accounted_step (inv : TransferInv events s) (kept : e ≠ .reset) {c : LinkCounts}
    (txn : c.txn = (linkCounts s.spi.adapter).txn + if e.isFull then 1 else 0)
    (short : c.short = (linkCounts s.spi.adapter).short + if e.isShort then 1 else 0)
    (miss : c.miss = (linkCounts s.spi.adapter).miss + if e.isMiss then 1 else 0) :
    LinkCounted (accounted (events ++ [e])) c := by
  rw [accounted_snoc, if_neg kept]
  exact linkCounted_snoc inv.counted txn short miss

/-- An event that is not counted. -/
private theorem accounted_quiet (inv : TransferInv events s)
    (quiet : e ≠ .reset ∧ e.isFull = false ∧ e.isShort = false ∧ e.isMiss = false)
    {c : LinkCounts} (same : c = linkCounts s.spi.adapter) :
    LinkCounted (accounted (events ++ [e])) c := by
  obtain ⟨kept, full, short, missed⟩ := quiet
  refine accounted_step inv kept ?_ ?_ ?_
  · simp [same, full]
  · simp [same, short]
  · simp [same, missed]

/-- A statement that moves the flag or the pin, or nothing. -/
private theorem transferInv_statement (inv : TransferInv events s)
    (adapter : t.spi.adapter = s.spi.adapter) (held : t.txb = s.txb ∧ t.rx = s.rx)
    (pc : t.pc.staged = s.pc.staged ∧ t.pc.inHand = s.pc.inHand)
    (armed : t.spi.armed = t.pc.armed) (ready : t.spi.linkReady = t.pc.ready) :
    TransferInv (events ++ [.other]) t := by
  refine transferInv_snoc inv ?_ ?_ ?_ armed ready
    (accounted_quiet inv (by decide) (by rw [adapter]))
  · rw [LinkThread.staged, LinkThread.staged, pc.1, adapter]
    exact List.append_nil _
  · rw [LinkThread.inHand, LinkThread.inHand, pc.2, held.2]
    exact List.append_nil _
  · rw [pc.1, held.1, adapter]
    exact inv.buffer

private theorem transferInv_acquire (inv : TransferInv events s) (here : s.pc = .acquire) (now : ℤ)
    (cycle : U32) :
    let acquired := txAcquire s.spi.adapter now cycle
    TransferInv (events ++ [.acquired (acquired.1.lnk.buf acquired.2)])
      { s with spi.adapter := acquired.1, txb := acquired.2, pc := .setArmed } := by
  intro acquired
  refine transferInv_snoc inv ?_ ?_ (fun _ => rfl) ?_ ?_ (accounted_quiet inv (by simp [
    TransferEvent.isFull, TransferEvent.isShort, TransferEvent.isMiss])
    (linkCounts_txAcquire _ now cycle))
  · rw [LinkThread.staged, here]
    rfl
  · rw [LinkThread.inHand, here]
    rfl
  · exact inv.armed.trans (by rw [here]; rfl)
  · exact inv.ready.trans (by rw [here]; rfl)

private theorem transferInv_submit (inv : TransferInv events s) (here : s.pc = .submit)
    (cycle : U32) :
    TransferInv (events ++ [.submitted s.rx])
      { s with
        spi.adapter := rxSubmit s.spi.adapter s.rx.frame (s.rx.ret.getD 0) cycle
        pc := if s.rx.ret.isSome then .acquire else .sleep } := by
  have counts := linkCounts_rxSubmit s.spi.adapter s.rx.frame (s.rx.ret.getD 0) cycle
  -- after an error the thread sleeps first; nothing differs but the statement
  have next : ∀ P : LinkPc → Prop, P .acquire → P .sleep →
      P (if s.rx.ret.isSome then .acquire else .sleep) := by
    intro P one other
    split
    · exact one
    · exact other
  refine transferInv_snoc inv ?_ ?_ ?_ ?_ ?_ ?_
  · rw [LinkThread.staged, here]
    exact next (fun pc => [] = if pc.staged then [_] else []) rfl rfl
  · rw [LinkThread.inHand, here]
    exact next (fun pc => [s.rx] = [s.rx] ++ if pc.inHand then [_] else []) rfl rfl
  · exact next (fun pc => pc.staged = true → _) (fun never => nomatch never)
      fun never => nomatch never
  · refine inv.armed.trans ?_
    rw [here]
    exact next (fun pc => false = pc.armed) rfl rfl
  · refine inv.ready.trans ?_
    rw [here]
    exact next (fun pc => false = pc.ready) rfl rfl
  · change LinkCounted _ (linkCounts (rxSubmit s.spi.adapter s.rx.frame (s.rx.ret.getD 0) cycle))
    rw [counts]
    -- an error is submitted with no bytes and counts as short
    by_cases short : s.rx.ret.getD 0 < 33
    · have cut : ¬ 33 ≤ s.rx.ret.getD 0 := Nat.not_le.mpr short
      rw [if_pos short]
      refine accounted_step inv (by simp) ?_ ?_ ?_ <;>
        simp [TransferEvent.isFull, TransferEvent.isShort, TransferEvent.isMiss, short, cut,
          linkCounts]
    · have full : 33 ≤ s.rx.ret.getD 0 := Nat.not_lt.mp short
      rw [if_neg short]
      refine accounted_step inv (by simp) ?_ ?_ ?_ <;>
        simp [TransferEvent.isFull, TransferEvent.isShort, TransferEvent.isMiss, short, full,
          linkCounts]

/-- The driver ends a transfer, whose bytes are still those of the acquired frame. -/
private theorem transferInv_ended (inv : TransferInv events s) (here : s.pc = .waiting)
    (rx : Received) : TransferInv (events ++ [(s.ended rx).2]) (s.ended rx).1 := by
  have staged : s.pc.staged = true := by rw [here]; rfl
  refine transferInv_snoc inv ?_ ?_ (fun never => nomatch never) ?_ ?_
    (accounted_quiet inv (by simp [LinkThread.ended, TransferEvent.isFull,
      TransferEvent.isShort, TransferEvent.isMiss]) rfl)
  · rw [LinkThread.staged, if_pos staged, armedFrame, ← inv.buffer staged]
    rfl
  · rw [LinkThread.inHand, here]
    rfl
  · exact inv.armed.trans (by rw [here]; rfl)
  · exact inv.ready.trans (by rw [here]; rfl)

private theorem noteCsGap_buffers (a : Adapter) (gapUs : U32) :
    (noteCsGap a gapUs).lnk.armed = a.lnk.armed ∧ armedFrame (noteCsGap a gapUs) = armedFrame a :=
  ⟨rfl, rfl⟩

private theorem noteRearmMiss_buffers (a : Adapter) :
    (noteRearmMiss a).lnk.armed = a.lnk.armed ∧ armedFrame (noteRearmMiss a) = armedFrame a :=
  ⟨rfl, rfl⟩

/-- The interrupt does not touch the buffers. -/
private theorem csSenseIsr_buffers (hz : ℕ) (s : LinkSpi) (now : U32) :
    (csSenseIsr hz s now).adapter.lnk.armed = s.adapter.lnk.armed ∧
      armedFrame (csSenseIsr hz s now).adapter = armedFrame s.adapter := by
  unfold csSenseIsr
  by_cases nonzero : s.lastCsRiseCyc ≠ 0
  · simp only [if_pos nonzero]
    cases s.armed with
    | false => simp only [Bool.false_eq_true, if_false, noteRearmMiss_buffers, noteCsGap_buffers,
        and_self]
    | true => simp only [if_true, noteCsGap_buffers, and_self]
  · simp only [if_neg nonzero]
    cases s.armed with
    | false => simp only [Bool.false_eq_true, if_false, noteRearmMiss_buffers, and_self]
    | true => simp only [if_true, and_self]

/-- An edge is counted as a miss when the flag is down. -/
private theorem transferInv_rise (inv : TransferInv events s) (cycle : U32) :
    TransferInv (events ++ [(s.rise hz cycle).2]) (s.rise hz cycle).1 := by
  obtain ⟨armed, ready, -⟩ := csSenseIsr_frame hz s.spi cycle
  obtain ⟨index, bytes⟩ := csSenseIsr_buffers hz s.spi cycle
  have counts := linkCounts_csSenseIsr hz s.spi cycle
  have staged : LinkThread.staged { s with spi := csSenseIsr hz s.spi cycle } = s.staged := by
    rw [LinkThread.staged, LinkThread.staged, bytes]
  unfold LinkThread.rise
  refine transferInv_snoc inv ?_ (List.append_nil _) (fun held => ?_) (armed.trans inv.armed)
    (ready.trans inv.ready) ?_
  · rw [staged]
    exact List.append_nil _
  · exact (inv.buffer held).trans index.symm
  · rw [counts]
    cases flag : s.spi.armed with
    | true =>
      exact accounted_quiet inv (by simp [TransferEvent.isFull, TransferEvent.isShort,
        TransferEvent.isMiss]) rfl
    | false =>
      refine accounted_step inv (by simp) ?_ ?_ ?_ <;>
        simp [TransferEvent.isFull, TransferEvent.isShort, TransferEvent.isMiss]

private theorem transferInv_others (inv : TransferInv events s) {c : Call}
    (others : fromOthers c = true) :
    TransferInv (events ++ [if c.op = .statsReset then .reset else .other])
      { s with spi.adapter := (step s.spi.adapter c).1 } := by
  have quiet : c.op ≠ .txAcquire := by
    intro acquire
    rw [fromOthers, acquire] at others
    cases others
  have index := step_armed s.spi.adapter c quiet
  have staged : LinkThread.staged { s with spi.adapter := (step s.spi.adapter c).1 } =
      s.staged := by
    rw [LinkThread.staged, LinkThread.staged, step_armedFrame s.spi.adapter c quiet]
  have counts := linkCounts_others s.spi.adapter others
  have buffer : s.pc.staged = true → s.txb = (step s.spi.adapter c).1.lnk.armed :=
    fun held => (inv.buffer held).trans index.symm
  -- a reset starts the account anew
  by_cases reset : c.op = .statsReset
  · rw [if_pos reset] at counts ⊢
    refine transferInv_snoc inv ?_ (List.append_nil _) buffer inv.armed inv.ready ?_
    · rw [staged]
      exact List.append_nil _
    · rw [accounted_snoc, if_pos rfl, counts]
      exact linkCounted_nil
  · rw [if_neg reset] at counts ⊢
    refine transferInv_snoc inv ?_ (List.append_nil _) buffer inv.armed inv.ready
      (accounted_quiet inv (by decide) counts)
    rw [staged]
    exact List.append_nil _

private theorem transferInv_thread (inv : TransferInv events s) {now : ℤ} {cycle : U32}
    (stepped : s.threadStep now cycle = some (t, e)) : TransferInv (events ++ [e]) t := by
  have armed := inv.armed
  have ready := inv.ready
  unfold LinkThread.threadStep at stepped
  cases here : s.pc with
  | acquire =>
    rw [here] at stepped
    cases stepped
    exact transferInv_acquire inv here now cycle
  | submit =>
    rw [here] at stepped
    cases stepped
    exact transferInv_submit inv here cycle
  | waiting =>
    rw [here] at stepped
    cases stepped
  -- these move the flag, the pin or the boot time
  | setArmed | setReady | noteBoot | transceive | clearArmed | clearReady | sleep =>
    rw [here] at stepped armed ready
    cases stepped
    exact transferInv_statement inv rfl ⟨rfl, rfl⟩ (by rw [here]; exact ⟨rfl, rfl⟩)
      (by first | rfl | exact armed) (by first | rfl | exact ready)

private theorem transferInv_step (inv : TransferInv events s) {act : ThreadAct}
    (stepped : s.step hz act = some (t, e)) : TransferInv (events ++ [e]) t := by
  cases act with
  | thread now cycle => exact transferInv_thread inv stepped
  | rise cycle =>
    have moved : TransferInv (events ++ [(s.rise hz cycle).2]) (s.rise hz cycle).1 :=
      transferInv_rise inv cycle
    rw [Option.some.inj stepped] at moved
    exact moved
  | complete rx =>
    simp only [LinkThread.step] at stepped
    split at stepped
    next here =>
      have moved := transferInv_ended inv here rx
      rw [Option.some.inj stepped] at moved
      exact moved
    · cases stepped
  | other c =>
    simp only [LinkThread.step] at stepped
    split at stepped
    next others =>
      cases stepped
      exact transferInv_others inv others
    · cases stepped

end Steps

/-! ### Runs -/

section Runs

variable {hz : ℕ} {id : RimId} {cfg : Option Bool} {t0 : ℤ} {events : List TransferEvent}
  {s : LinkThread}

private theorem transferInv_run (reached : (linkThread hz id cfg t0).Reaches events s) :
    TransferInv events s := by
  refine Machine.ReachesBy.induct (P := TransferInv)
    ⟨rfl, rfl, fun _ => rfl, rfl, rfl, ?_⟩
    (fun _ _ _ _ _ inv _ stepped => transferInv_step inv stepped) reached
  exact linkCounted_nil

/-- **Every transfer once.** In every run, at every statement: the frames that transfers were made
with are the acquired ones in order, up to the one staged; what transfers received is submitted
in order, up to the one in hand; flag and pin follow the thread; and the counters are the numbers
of full and short transfers and of missed edges since the last reset. An edge that finds no
transfer is left uncounted exactly between the raising of the flag and the driver, and before the
flag is taken down again. -/
theorem link_transfers (reached : (linkThread hz id cfg t0).Reaches events s) :
    acquiredFrames events = transmittedFrames events ++ s.staged ∧
    receivedTransfers events = submittedTransfers events ++ s.inHand ∧
    s.spi.armed = s.pc.armed ∧ s.spi.linkReady = s.pc.ready ∧
    LinkCounted (accounted events) (linkCounts s.spi.adapter) ∧
    (∀ cycle, (s.rise hz cycle).2 = .rose true false ↔
      s.pc ∈ [.setReady, .noteBoot, .transceive, .clearArmed]) := by
  have inv := transferInv_run reached
  refine ⟨inv.sent, inv.handed, inv.armed, inv.ready, inv.counted, fun cycle => ?_⟩
  unfold LinkThread.rise
  rw [inv.armed]
  cases here : s.pc <;> simp [LinkPc.armed]

/-- A full transfer that ends behind its edge, an edge on the way to the next one, and one that
is not seen. -/
def transferRun : List ThreadAct :=
  List.replicate 5 (.thread 1 7) ++ [.rise 8, .complete ⟨fun _ => 1, some 33⟩] ++
    List.replicate 3 (.thread 1 9) ++ [.rise 10] ++ List.replicate 2 (.thread 2 11) ++ [.rise 12]

theorem link_transfers_run : ∃ events s,
    (linkThread 550000000 3 none 0).run (linkThread 550000000 3 none 0).start transferRun =
      some (s, events) ∧
    (transmittedFrames events).length = 1 ∧
    acquiredFrames events = transmittedFrames events ++ s.staged ∧
    s.spi.adapter.lnk.stats.rearmMiss = 1 := by
  have ran : ((linkThread 550000000 3 none 0).run (linkThread 550000000 3 none 0).start
      transferRun).map (fun (s, events) =>
        ((transmittedFrames events).length, s.spi.adapter.lnk.stats.rearmMiss)) =
      some (1, 1) := by
    decide +kernel
  obtain ⟨⟨s, events⟩, reached, fields⟩ := Option.map_eq_some_iff.mp ran
  simp only [Prod.mk.injEq] at fields
  exact ⟨events, s, reached, fields.1, (link_transfers (Machine.reaches_of_run reached)).1,
    fields.2⟩

end Runs

end FanatecWheel.App
