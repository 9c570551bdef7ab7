import FanatecWheel.Foundation.Counter
import FanatecWheel.Rimlink.Handoff

/-!
# The receive counters are a count of events

Each of the four counters that receiving writes is, modulo `2 ^ 32`, the number
of its events since the last reset.
-/

namespace FanatecWheel.Rimlink

open Foundation

/-- The counters that receiving writes. -/
structure RxCounts where
  txn : U32
  short : U32
  corrupt : U32
  overrun : U32
deriving DecidableEq

def Stats.rxCounts (st : Stats) : RxCounts := ⟨st.txnCount, st.shortFrame, st.crcErrRx, st.overrun⟩

namespace RxCounts

def zero : RxCounts := ⟨0, 0, 0, 0⟩

/-- The counters after an event. -/
def after (c : RxCounts) : RxEvent → RxCounts
  | .submitted frame len =>
    if len < 33 then { c with short := c.short + 1 }
    else if Sealed frame then { c with txn := c.txn + 1 }
    else { c with txn := c.txn + 1, corrupt := c.corrupt + 1 }
  | .overran => { c with overrun := c.overrun + 1 }
  | .reset => zero
  | _ => c

end RxCounts

/-- The events since the last reset. -/
def sinceReset (events : List RxEvent) : List RxEvent :=
  events.foldl (fun since e => if e = .reset then [] else since ++ [e]) []

theorem sinceReset_snoc (events : List RxEvent) (e : RxEvent) :
    sinceReset (events ++ [e]) = if e = .reset then [] else sinceReset events ++ [e] := by
  simp only [sinceReset, List.foldl_append, List.foldl_cons, List.foldl_nil]

theorem sinceReset_eq {events : List RxEvent} (never : .reset ∉ events) :
    sinceReset events = events := by
  induction events using List.reverseRecOn with
  | nil => rfl
  | append_singleton past e ih =>
    simp only [List.mem_append, List.mem_singleton, not_or] at never
    rw [sinceReset_snoc, if_neg (Ne.symm never.2), ih never.1]

/-- The counters hold the numbers of events. -/
structure Counted (events : List RxEvent) (c : RxCounts) : Prop where
  txn : c.txn = BitVec.ofNat 32 (events.countP RxEvent.isFull)
  short : c.short = BitVec.ofNat 32 (events.countP RxEvent.isShort)
  corrupt : c.corrupt = BitVec.ofNat 32 (events.countP RxEvent.isCorrupt)
  overrun : c.overrun = BitVec.ofNat 32 (events.count .overran)

theorem counted_zero : Counted [] .zero := ⟨rfl, rfl, rfl, rfl⟩

theorem counted_after {events : List RxEvent} {c : RxCounts} (held : Counted events c)
    {e : RxEvent} (other : e ≠ .reset) : Counted (events ++ [e]) (c.after e) := by
  obtain ⟨txn, short, corrupt, overrun⟩ := held
  cases e with
  | submitted frame len =>
    by_cases isShort : len < 33
    · have notFull : ¬ 33 ≤ len := Nat.not_le.mpr isShort
      constructor <;> simp [RxCounts.after, RxEvent.isFull, RxEvent.isShort, RxEvent.isCorrupt,
        isShort, notFull, txn, short, corrupt, overrun, BitVec.ofNat_add]
    · have full : 33 ≤ len := Nat.not_lt.mp isShort
      by_cases sealed : Sealed frame <;> constructor <;>
        simp [RxCounts.after, RxEvent.isFull, RxEvent.isShort, RxEvent.isCorrupt,
          isShort, full, sealed, txn, short, corrupt, overrun, BitVec.ofNat_add]
  | reset => exact absurd rfl other
  | overran =>
    constructor <;> simp [RxCounts.after, RxEvent.isFull, RxEvent.isShort, RxEvent.isCorrupt, txn,
      short, corrupt, overrun, BitVec.ofNat_add]
  | _ =>
    constructor <;> simp [RxCounts.after, RxEvent.isFull, RxEvent.isShort, RxEvent.isCorrupt, txn,
      short, corrupt, overrun]

/-! ### Every step counts its event -/

section Steps

variable {s t : RxSys} {e : RxEvent}

private theorem rxReceive_counts (a : Adapter) (frame : Frame) (len : ℕ) (cycle : U32) :
    (rxReceive a frame len cycle).1.lnk.stats.rxCounts =
      a.lnk.stats.rxCounts.after (.submitted frame len) := by
  by_cases short : len < 33
  · rw [rxReceive_short a cycle short]
    simp only [RxCounts.after, if_pos short]
    rfl
  · have full : 33 ≤ len := Nat.not_lt.mp short
    simp only [RxCounts.after, if_neg short]
    by_cases sealed : Sealed frame
    · obtain ⟨out, valid⟩ := Option.isSome_iff_exists.mp ((frameValidate_isSome frame).mpr sealed)
      rw [rxReceive_valid a cycle full valid, if_pos sealed]
      rfl
    · rw [rxReceive_corrupt a cycle full sealed, if_neg sealed]
      rfl

private theorem submitStep_counts (stepped : s.submitStep = some (t, e)) :
    t.adapter.lnk.stats.rxCounts = s.adapter.lnk.stats.rxCounts.after e := by
  unfold RxSys.submitStep at stepped
  split at stepped
  · cases stepped
  · split at stepped <;> cases stepped <;> rfl
  · cases stepped
    rfl
  · cases stepped
    rfl
  · cases stepped
    rfl

private theorem handlerStep_counts (stepped : s.handlerStep = some (t, e)) :
    t.adapter.lnk.stats.rxCounts = s.adapter.lnk.stats.rxCounts.after e := by
  unfold RxSys.handlerStep at stepped
  split at stepped
  · cases stepped
  · split at stepped <;> cases stepped <;> rfl
  · cases stepped
    split <;> rfl
  · cases stepped
    rfl

private theorem otherCall_counts {c : Call} (stepped : s.otherCall c = some (t, e)) :
    t.adapter.lnk.stats.rxCounts = s.adapter.lnk.stats.rxCounts.after e := by
  unfold RxSys.otherCall at stepped
  split at stepped
  · cases stepped
  · cases stepped
  next reset =>
    cases stepped
    simp only [Rimlink.step, reset]
    rfl
  next receive work reset =>
    cases stepped
    have side := step_rxSide s.adapter c receive work reset
    exact congrArg (fun r : RxSide => RxCounts.mk r.txnCount r.shortFrame r.crcErrRx r.overrun) side

theorem step_counts {act : RxAct} (stepped : s.step act = some (t, e)) :
    t.adapter.lnk.stats.rxCounts = s.adapter.lnk.stats.rxCounts.after e := by
  cases act with
  | call frame len cycle =>
    simp only [RxSys.step, Option.ite_none_right_eq_some, Option.some.injEq,
      Prod.mk.injEq] at stepped
    obtain ⟨-, rfl, rfl⟩ := stepped
    exact rxReceive_counts s.adapter frame len cycle
  | submitStep => exact submitStep_counts stepped
  | beginWork =>
    simp only [RxSys.step, RxSys.beginWork, Option.map_eq_some_iff, Prod.mk.injEq] at stepped
    obtain ⟨started, -, rfl, rfl⟩ := stepped
    rfl
  | handlerStep => exact handlerStep_counts stepped
  | otherReturn =>
    simp only [RxSys.step, RxSys.otherReturn] at stepped
    split at stepped <;> cases stepped
    rfl
  | otherSubmit item =>
    simp only [RxSys.step, RxSys.otherSubmit, Option.ite_none_left_eq_some, Option.some.injEq,
      Prod.mk.injEq] at stepped
    obtain ⟨-, rfl, rfl⟩ := stepped
    rfl
  | otherCall c => exact otherCall_counts stepped

end Steps

theorem counted_step {events : List RxEvent} {s t : RxSys} {act : RxAct} {e : RxEvent}
    (held : Counted (sinceReset events) s.adapter.lnk.stats.rxCounts)
    (stepped : s.step act = some (t, e)) :
    Counted (sinceReset (events ++ [e])) t.adapter.lnk.stats.rxCounts := by
  rw [step_counts stepped, sinceReset_snoc]
  split
  next reset =>
    subst reset
    exact counted_zero
  next other => exact counted_after held other

/-- In every reachable state the counters hold the numbers of events since the
last reset. -/
theorem rx_counted {id : RimId} {now : ℤ} {events : List RxEvent} {s : RxSys}
    (reached : (rxMachine id now).Reaches events s) :
    Counted (sinceReset events) s.adapter.lnk.stats.rxCounts := by
  refine Machine.ReachesBy.induct
    (P := fun events s => Counted (sinceReset events) s.adapter.lnk.stats.rxCounts) ?_
    (fun _ _ _ _ _ held _ stepped => counted_step held stepped) reached
  exact counted_zero

/-! ### How the counts add up -/

theorem calls_split (events : List RxEvent) : events.countP RxEvent.isCall =
    events.countP RxEvent.isFull + events.countP RxEvent.isShort := by
  induction events with
  | nil => rfl
  | cons e rest ih =>
    simp only [List.countP_cons, ih]
    cases e with
    | submitted frame len =>
      by_cases short : len < 33
      · simp [RxEvent.isCall, RxEvent.isFull, RxEvent.isShort, short, Nat.not_le.mpr short]
        omega
      · simp [RxEvent.isCall, RxEvent.isFull, RxEvent.isShort, short, Nat.not_lt.mp short]
        omega
    | _ => simp [RxEvent.isCall, RxEvent.isFull, RxEvent.isShort]

theorem full_split (events : List RxEvent) : events.countP RxEvent.isFull =
    events.countP RxEvent.isCorrupt + (events.filterMap RxEvent.validOut).length := by
  induction events with
  | nil => rfl
  | cons e rest ih =>
    simp only [List.countP_cons, List.filterMap_cons, ih]
    cases e with
    | submitted frame len =>
      by_cases short : len < 33
      · simp [RxEvent.isCorrupt, RxEvent.isFull, RxEvent.validOut, short, Nat.not_le.mpr short]
      · cases valid : frameValidate frame with
        | none =>
          have corrupt := (frameValidate_none frame).mp valid
          simp [RxEvent.isCorrupt, RxEvent.isFull, RxEvent.validOut, short, Nat.not_lt.mp short,
            valid, corrupt]
          omega
        | some out =>
          have sealed : Sealed frame := by rw [← frameValidate_isSome, valid]; rfl
          simp [RxEvent.isCorrupt, RxEvent.isFull, RxEvent.validOut, short, Nat.not_lt.mp short,
            valid, sealed]
          omega
    | _ => simp [RxEvent.isCorrupt, RxEvent.isFull, RxEvent.validOut]

/-! ### Counting between two readings -/

/-- A CRC error, a short frame or an overrun. -/
def RxEvent.isError (e : RxEvent) : Bool := e.isCorrupt || e.isShort || decide (e = .overran)

/-- The errors, added up in 32 bits. -/
def RxCounts.err (c : RxCounts) : U32 := c.corrupt + c.short + c.overrun

/-- The reading `f` of the counters counts the events that meet `p`. -/
structure Tally (f : RxCounts → U32) (p : RxEvent → Bool) : Prop where
  zero : f .zero = 0
  step : ∀ c e, e ≠ .reset → f (c.after e) = f c + BitVec.ofNat 32 (if p e then 1 else 0)

theorem tally_txn : Tally RxCounts.txn RxEvent.isFull := by
  refine ⟨rfl, fun c e other => ?_⟩
  cases e with
  | submitted frame len =>
    by_cases short : len < 33
    · simp [RxCounts.after, RxEvent.isFull, short, Nat.not_le.mpr short]
    · by_cases sealed : Sealed frame <;>
        simp [RxCounts.after, RxEvent.isFull, short, Nat.not_lt.mp short, sealed]
  | reset => exact absurd rfl other
  | _ => simp [RxCounts.after, RxEvent.isFull]

theorem tally_err : Tally RxCounts.err RxEvent.isError := by
  refine ⟨rfl, fun c e other => ?_⟩
  cases e with
  | submitted frame len =>
    by_cases short : len < 33
    · simp [RxCounts.after, RxCounts.err, RxEvent.isError, RxEvent.isShort, short]
      ac_rfl
    · by_cases sealed : Sealed frame
      · simp [RxCounts.after, RxCounts.err, RxEvent.isError, RxEvent.isShort, RxEvent.isCorrupt,
          short, Nat.not_lt.mp short, sealed]
      · simp [RxCounts.after, RxCounts.err, RxEvent.isError, RxEvent.isShort, RxEvent.isCorrupt,
          short, Nat.not_lt.mp short, sealed]
        ac_rfl
  | reset => exact absurd rfl other
  | overran =>
    simp [RxCounts.after, RxCounts.err, RxEvent.isError, RxEvent.isShort, RxEvent.isCorrupt]
    ac_rfl
  | _ => simp [RxCounts.after, RxCounts.err, RxEvent.isError, RxEvent.isShort, RxEvent.isCorrupt]

namespace Tally

variable {f : RxCounts → U32} {p : RxEvent → Bool} (tally : Tally f p) (c : RxCounts)
  {since : List RxEvent}

include tally

theorem between (never : .reset ∉ since) :
    f (since.foldl RxCounts.after c) = f c + BitVec.ofNat 32 (since.countP p) := by
  induction since using List.reverseRecOn with
  | nil => simp
  | append_singleton past e ih =>
    simp only [List.mem_append, List.mem_singleton, not_or] at never
    rw [List.foldl_append, List.foldl_cons, List.foldl_nil, tally.step _ e (Ne.symm never.2),
      ih never.1, List.countP_append, List.countP_singleton, BitVec.ofNat_add, BitVec.add_assoc]

theorem after_reset (reset : .reset ∈ since) :
    ∃ n ≤ since.countP p, f (since.foldl RxCounts.after c) = BitVec.ofNat 32 n := by
  induction since using List.reverseRecOn with
  | nil => simp at reset
  | append_singleton past e ih =>
    rw [List.foldl_append, List.foldl_cons, List.foldl_nil, List.countP_append,
      List.countP_singleton]
    by_cases last : e = .reset
    -- the reset is the last event: the reading is zero
    · subst last
      exact ⟨0, Nat.zero_le _, tally.zero⟩
    -- the reset was earlier: one more event on top
    · have earlier : .reset ∈ past := by
        simpa [Ne.symm last] using reset
      obtain ⟨n, bound, same⟩ := ih earlier
      refine ⟨n + if p e then 1 else 0, Nat.add_le_add_right bound _, ?_⟩
      rw [tally.step _ e last, same, BitVec.ofNat_add]

/-- The difference of two readings with no reset between them. -/
theorem delta_eq (never : .reset ∉ since) (few : since.countP p < 2 ^ 32) :
    (f (since.foldl RxCounts.after c) - f c).toNat = since.countP p := by
  rw [tally.between c never, BitVec.add_comm, BitVec.add_sub_cancel, BitVec.toNat_ofNat,
    Nat.mod_eq_of_lt few]

/-- After a reset the difference is no larger than the number of events, provided the
reading has caught up. -/
theorem delta_le (few : since.countP p < 2 ^ 32)
    (caught : .reset ∈ since → f c ≤ f (since.foldl RxCounts.after c)) :
    (f (since.foldl RxCounts.after c) - f c).toNat ≤ since.countP p := by
  by_cases reset : .reset ∈ since
  -- the reading started over, so it is itself at most the number of events
  · obtain ⟨n, bound, same⟩ := tally.after_reset c reset
    have above := BitVec.le_def.mp (caught reset)
    rw [BitVec.toNat_sub_of_le (caught reset), same, BitVec.toNat_ofNat]
    exact (Nat.sub_le _ _).trans ((Nat.mod_le n _).trans bound)
  · exact Nat.le_of_eq (tally.delta_eq c reset few)

end Tally

end FanatecWheel.Rimlink
