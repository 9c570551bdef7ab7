import FanatecWheel.App.Health

/-!
# Lifetime totals count what happened

A fold adds the number of events since the previous fold as long as the counters
were not reset in between. After a reset it is right only once each counter has
caught up with its value at the previous fold; before that the 32-bit difference
wraps and about `2 ^ 32` events are added that did not happen.
-/

namespace FanatecWheel.App

open Foundation Rimlink

/-- What the link did. -/
def linkEvents (events : List HealthEvent) : List RxEvent :=
  events.filterMap fun
    | .link e => some e
    | _ => none

/-- The records the folds left. -/
def foldedRecords (events : List HealthEvent) : List HealthCounters :=
  events.filterMap fun
    | .folded hc => some hc
    | _ => none

/-- The totals of the first are at most those of the second. -/
structure AtMost (h h' : HealthCounters) : Prop where
  txn : h.txnTotal ≤ h'.txnTotal
  err : h.errTotal ≤ h'.errTotal

/-- A fold that counts right: fewer than `2 ^ 32` events since the last one, room in
the totals, and after a reset counters that caught up with the last fold. -/
structure FoldSound (s : HealthSys) : Prop where
  fewTxn : s.since.countP RxEvent.isFull < 2 ^ 32
  fewErr : s.since.countP RxEvent.isError < 2 ^ 32
  roomTxn : s.health.hc.txnTotal.toNat + s.since.countP RxEvent.isFull < 2 ^ 64
  roomErr : s.health.hc.errTotal.toNat + s.since.countP RxEvent.isError < 2 ^ 64
  caughtTxn : .reset ∈ s.since → s.health.last.rxCounts.txn ≤ s.now.rxCounts.txn
  caughtErr : .reset ∈ s.since → s.health.last.rxCounts.err ≤ s.now.rxCounts.err

def Sound (s : HealthSys) : HealthAct → Prop
  | .healthGet | .healthCommit => FoldSound s
  | .link _ | .noteMate => True

instance (s : HealthSys) : Decidable (FoldSound s) :=
  decidable_of_iff (s.since.countP RxEvent.isFull < 2 ^ 32 ∧
      s.since.countP RxEvent.isError < 2 ^ 32 ∧
      s.health.hc.txnTotal.toNat + s.since.countP RxEvent.isFull < 2 ^ 64 ∧
      s.health.hc.errTotal.toNat + s.since.countP RxEvent.isError < 2 ^ 64 ∧
      (.reset ∈ s.since → s.health.last.rxCounts.txn ≤ s.now.rxCounts.txn) ∧
      (.reset ∈ s.since → s.health.last.rxCounts.err ≤ s.now.rxCounts.err))
    ⟨fun ⟨a, b, c, d, e, f⟩ => ⟨a, b, c, d, e, f⟩, fun ⟨a, b, c, d, e, f⟩ => ⟨a, b, c, d, e, f⟩⟩

instance (s : HealthSys) : DecidablePred (Sound s)
  | .healthGet | .healthCommit => inferInstanceAs (Decidable (FoldSound s))
  | .link _ | .noteMate => inferInstanceAs (Decidable True)

/-- A total that counts the events that meet `p`, never too many, and exactly while
no reset happened. -/
structure Counts (p : RxEvent → Bool) (boot total : U64) (past : List RxEvent) : Prop where
  bound : total.toNat ≤ boot.toNat + past.countP p
  exact : .reset ∉ past → total.toNat = boot.toNat + past.countP p

theorem counts_fold {f : RxCounts → U32} {p : RxEvent → Bool} (tally : Tally f p)
    {boot total : U64} {past since : List RxEvent} {c now : RxCounts}
    (counts : Counts p boot total past) (same : now = since.foldl RxCounts.after c)
    (few : since.countP p < 2 ^ 32) (room : total.toNat + since.countP p < 2 ^ 64)
    (caught : .reset ∈ since → f c ≤ f now) :
    Counts p boot (total + (f now - f c).setWidth 64) (past ++ since) ∧
      total ≤ total + (f now - f c).setWidth 64 := by
  subst same
  -- the 32-bit difference is the number of events, or less when a reset is among them
  have small := tally.delta_le c few caught
  have sum : (total + (f (since.foldl RxCounts.after c) - f c).setWidth 64).toNat =
      total.toNat + (f (since.foldl RxCounts.after c) - f c).toNat := by
    rw [BitVec.toNat_add, BitVec.toNat_setWidth, Nat.mod_eq_of_lt, Nat.mod_eq_of_lt]
    all_goals omega
  refine ⟨⟨?_, fun never => ?_⟩, ?_⟩
  · rw [sum, List.countP_append]
    have bound := counts.bound
    omega
  · rw [List.mem_append, not_or] at never
    rw [sum, List.countP_append, tally.delta_eq c never.2 few, counts.exact never.1]
    omega
  · rw [BitVec.le_def, sum]
    exact Nat.le_add_right _ _

/-- The invariant: the counters moved on from the last fold by the events since, and
the totals count those before it. -/
private structure HealthInv (boot : HealthCounters) (events : List HealthEvent) (s : HealthSys) :
    Prop where
  counted : s.now.rxCounts = s.since.foldl RxCounts.after s.health.last.rxCounts
  totals : ∃ past, linkEvents events = past ++ s.since ∧
    Counts RxEvent.isFull boot.txnTotal s.health.hc.txnTotal past ∧
    Counts RxEvent.isError boot.errTotal s.health.hc.errTotal past
  sorted : (boot :: foldedRecords events).Pairwise AtMost
  latest : ∀ hc ∈ boot :: foldedRecords events, AtMost hc s.health.hc

section Steps

variable {boot : HealthCounters} {events : List HealthEvent} {s : HealthSys}

private theorem linkEvents_snoc (e : HealthEvent) :
    linkEvents (events ++ [e]) = linkEvents events ++ linkEvents [e] := by
  simp only [linkEvents, List.filterMap_append]

private theorem foldedRecords_snoc (e : HealthEvent) :
    foldedRecords (events ++ [e]) = foldedRecords events ++ foldedRecords [e] := by
  simp only [foldedRecords, List.filterMap_append]

/-- `fold_stats` in terms of the two readings. -/
theorem foldStats_hc (h : Health) (now : Stats) :
    (foldStats h now).hc.txnTotal =
        h.hc.txnTotal + (now.rxCounts.txn - h.last.rxCounts.txn).setWidth 64 ∧
      (foldStats h now).hc.errTotal =
        h.hc.errTotal + (now.rxCounts.err - h.last.rxCounts.err).setWidth 64 := by
  refine ⟨rfl, ?_⟩
  -- the three differences are the difference of the sums, wrap and all
  have sum : ∀ a b c x y z : U32, (a - x) + (b - y) + (c - z) = (a + b + c) - (x + y + z) := by
    intro a b c x y z
    simp only [BitVec.sub_eq_add_neg, BitVec.neg_add]
    ac_rfl
  simp only [foldStats, sum]
  rfl

private theorem healthInv_link (inv : HealthInv boot events s) {act : RxAct} {rx : RxSys}
    {e : RxEvent} (stepped : s.rx.step act = some (rx, e)) :
    HealthInv boot (events ++ [.link e]) { s with rx := rx, since := s.since ++ [e] } := by
  obtain ⟨past, split, txn, err⟩ := inv.totals
  refine ⟨?_, ⟨past, ?_, txn, err⟩, ?_, ?_⟩
  · have counted := inv.counted
    simp only [HealthSys.now, statsGet] at counted ⊢
    rw [List.foldl_append, List.foldl_cons, List.foldl_nil, step_counts stepped, counted]
  · rw [linkEvents_snoc, split, List.append_assoc]
    rfl
  · simpa [foldedRecords] using inv.sorted
  · simpa [foldedRecords] using inv.latest

private theorem healthInv_fold (inv : HealthInv boot events s) (sound : FoldSound s) :
    HealthInv boot (events ++ [.folded (foldStats s.health s.now).hc])
      { s with health := foldStats s.health s.now, since := [] } := by
  obtain ⟨past, split, txn, err⟩ := inv.totals
  obtain ⟨addedTxn, addedErr⟩ := foldStats_hc s.health s.now
  obtain ⟨countsTxn, moreTxn⟩ := counts_fold tally_txn txn inv.counted sound.fewTxn sound.roomTxn
    sound.caughtTxn
  obtain ⟨countsErr, moreErr⟩ := counts_fold tally_err err inv.counted sound.fewErr sound.roomErr
    sound.caughtErr
  rw [← addedTxn] at countsTxn moreTxn
  rw [← addedErr] at countsErr moreErr
  -- every earlier record is at most the new one, by way of the previous totals
  have grown : ∀ hc ∈ boot :: foldedRecords events, AtMost hc (foldStats s.health s.now).hc := by
    intro hc member
    have before := inv.latest hc member
    exact ⟨BitVec.le_trans before.txn moreTxn, BitVec.le_trans before.err moreErr⟩
  have records : boot :: foldedRecords (events ++ [.folded (foldStats s.health s.now).hc]) =
      (boot :: foldedRecords events) ++ [(foldStats s.health s.now).hc] := by
    rw [foldedRecords_snoc]
    rfl
  refine ⟨rfl, ⟨past ++ s.since, ?_, countsTxn, countsErr⟩, ?_, ?_⟩
  · rw [linkEvents_snoc, split]
    rfl
  · rw [records, List.pairwise_append]
    exact ⟨inv.sorted, List.pairwise_singleton _ _, fun hc member last single =>
      List.mem_singleton.mp single ▸ grown hc member⟩
  · rw [records]
    intro hc member
    rcases List.mem_append.mp member with earlier | last
    · exact grown hc earlier
    · rw [List.mem_singleton.mp last]
      exact ⟨BitVec.le_refl _, BitVec.le_refl _⟩

private theorem healthInv_step (inv : HealthInv boot events s) {act : HealthAct}
    (sound : Sound s act) {t : HealthSys} {e : HealthEvent} (stepped : s.step act = some (t, e)) :
    HealthInv boot (events ++ [e]) t := by
  cases act with
  | link act =>
    simp only [HealthSys.step, Option.map_eq_some_iff, Prod.mk.injEq] at stepped
    obtain ⟨⟨rx, event⟩, moved, rfl, rfl⟩ := stepped
    exact healthInv_link inv moved
  | healthGet =>
    cases stepped
    exact healthInv_fold inv sound
  | healthCommit =>
    cases stepped
    exact healthInv_fold inv sound
  -- a mate event touches neither the link nor the two totals
  | noteMate =>
    cases stepped
    obtain ⟨past, split, txn, err⟩ := inv.totals
    refine ⟨inv.counted, ⟨past, ?_, txn, err⟩, ?_, ?_⟩
    · rw [linkEvents_snoc, split]
      exact List.append_nil _
    · simpa [foldedRecords] using inv.sorted
    · have latest := inv.latest
      simp only [foldedRecords_snoc]
      rw [show foldedRecords [HealthEvent.mate] = [] from rfl, List.append_nil]
      exact fun hc member => ⟨(latest hc member).txn, (latest hc member).err⟩

end Steps

/-- **Lifetime totals.** In every run whose folds are sound the recorded totals never
decrease, they exceed their values at boot by at most the full-length frames and the
errors since boot, and after a fold by exactly these numbers if no reset happened. -/
theorem health_totals {id : RimId} {now : ℤ} {loaded : Option HealthCounters} {wdtCause : Bool}
    {events : List HealthEvent} {s : HealthSys}
    (reached : (healthMachine id now loaded wdtCause).ReachesBy Sound events s) :
    let boot := (healthInit ⟨.zero, .zero⟩ loaded wdtCause).hc
    (boot :: foldedRecords events).Pairwise AtMost ∧
    s.health.hc.txnTotal.toNat ≤
      boot.txnTotal.toNat + (linkEvents events).countP RxEvent.isFull ∧
    s.health.hc.errTotal.toNat ≤
      boot.errTotal.toNat + (linkEvents events).countP RxEvent.isError ∧
    (s.since = [] → .reset ∉ linkEvents events →
      s.health.hc.txnTotal.toNat =
        boot.txnTotal.toNat + (linkEvents events).countP RxEvent.isFull ∧
      s.health.hc.errTotal.toNat =
        boot.errTotal.toNat + (linkEvents events).countP RxEvent.isError) := by
  intro boot
  have inv : HealthInv boot events s := by
    refine Machine.ReachesBy.induct (P := HealthInv boot) ?_
      (fun _ _ _ _ _ inv sound stepped => healthInv_step inv sound stepped) reached
    refine ⟨?_, ⟨[], rfl, ⟨Nat.le_refl _, fun _ => rfl⟩, ⟨Nat.le_refl _, fun _ => rfl⟩⟩,
      List.pairwise_singleton _ _, fun hc member => ?_⟩
    · cases loaded <;> cases wdtCause <;> rfl
    · rw [List.mem_singleton.mp member]
      exact ⟨BitVec.le_refl _, BitVec.le_refl _⟩
  obtain ⟨past, split, txn, err⟩ := inv.totals
  refine ⟨inv.sorted, ?_, ?_, fun justFolded never => ?_⟩
  · rw [split, List.countP_append]
    exact txn.bound.trans (Nat.add_le_add_left (Nat.le_add_right _ _) _)
  · rw [split, List.countP_append]
    exact err.bound.trans (Nat.add_le_add_left (Nat.le_add_right _ _) _)
  · rw [justFolded, List.append_nil] at split
    rw [split] at never ⊢
    exact ⟨txn.exact never, err.exact never⟩

/-- A full-length frame with a wrong CRC, `rim health`, `rim reset`. -/
def countedThenReset : List HealthAct :=
  [.link (.call (fun _ => 0) 33 0), .healthGet, .link (.otherCall ⟨.statsReset, 0, 0⟩)]

/-- The statistics are reset and have caught up when the next fold comes. -/
theorem health_totals_run : ∃ events s,
    (healthMachine 3 0 none false).runBy Sound (healthMachine 3 0 none false).start
        (countedThenReset ++ [.link (.call (fun _ => 0) 33 0), .healthCommit]) =
      some (s, events) ∧
    s.health.hc.txnTotal.toNat ≤ (healthInit ⟨.zero, .zero⟩ none false).hc.txnTotal.toNat +
      (linkEvents events).countP RxEvent.isFull := by
  have enabled : ((healthMachine 3 0 none false).runBy Sound (healthMachine 3 0 none false).start
      (countedThenReset ++ [.link (.call (fun _ => 0) 33 0), .healthCommit])).isSome := by
    decide +kernel
  obtain ⟨⟨s, events⟩, ran⟩ := Option.isSome_iff_exists.mp enabled
  exact ⟨events, s, ran, (health_totals (Machine.reachesBy_of_run ran)).2.1⟩

/-- A fold right after the reset: one frame was submitted and `2 ^ 32` are counted. -/
theorem health_totals_inflated : ∃ events s,
    (healthMachine 3 0 none false).Reaches events s ∧
    (healthInit ⟨.zero, .zero⟩ none false).hc.txnTotal.toNat +
      (linkEvents events).countP RxEvent.isFull < s.health.hc.txnTotal.toNat := by
  have counted : ((healthMachine 3 0 none false).run (healthMachine 3 0 none false).start
      (countedThenReset ++ [.healthGet])).map (fun (s, events) =>
        ((linkEvents events).countP RxEvent.isFull, s.health.hc.txnTotal)) =
      some (1, 4294967296) := by
    decide +kernel
  obtain ⟨⟨s, events⟩, ran, same⟩ := Option.map_eq_some_iff.mp counted
  simp only [Prod.mk.injEq] at same
  refine ⟨events, s, Machine.reaches_of_run ran, ?_⟩
  rw [same.1, same.2]
  decide

end FanatecWheel.App
