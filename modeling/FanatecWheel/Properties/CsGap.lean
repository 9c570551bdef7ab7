import Mathlib.Data.Nat.ModEq
import FanatecWheel.App.LinkSpi
import FanatecWheel.Foundation.Extremes
import FanatecWheel.Host.LinkStats

/-!
# What the CS-gap statistics measure

The interrupt sees only rising edges, so it notes the time from one rise to the next: the idle
gap and the transaction behind it. The extremes of these periods are those of the gaps only if
the transactions take no time where it counts.
-/

namespace FanatecWheel.App

open Foundation Rimlink Host

/-! ### Transactions and their times -/

def LinkEvent.txn? : LinkEvent → Option Txn
  | .txn t => some t
  | _ => none

/-- The transactions of a run. -/
def txns (events : List LinkEvent) : List Txn := events.filterMap LinkEvent.txn?

/-- The transactions a run is measured on: the last one before the last reset, and those after. -/
def windowStep (window : List Txn) : LinkEvent → List Txn
  | .txn t => window ++ [t]
  | .other c => if c.call.op = .statsReset then window.getLast?.toList else window
  | .arm .. | .done .. => window

def txnWindow (events : List LinkEvent) : List Txn := events.foldl windowStep []

/-- The microseconds of a number of cycles. -/
def us (hz cycles : ℕ) : ℕ := cycles * 1000000 / hz

/-- From one CS rise to the next CS fall. -/
def gapUs (hz : ℕ) (p : Txn × Txn) : ℕ := us hz (p.2.fall - p.1.rise)

def txnUs (hz : ℕ) (t : Txn) : ℕ := us hz (t.rise - t.fall)

/-- From one CS rise to the next. -/
def periodUs (hz : ℕ) (p : Txn × Txn) : ℕ := us hz (p.2.rise - p.1.rise)

/-- Transactions one after the other, with rises that are no zero tick and less than `2 ^ 32`
cycles apart, and gaps of whole microseconds. -/
structure Schedule (hz : ℕ) (ts : List Txn) : Prop where
  nonzero : ∀ t ∈ ts, tick t.rise ≠ 0
  apart : ∀ p ∈ neighbours ts, p.1.rise ≤ p.2.fall
  near : ∀ p ∈ neighbours ts, p.2.rise - p.1.rise < 2 ^ 32
  exact : ∀ p ∈ neighbours ts, hz ∣ (p.2.fall - p.1.rise) * 1000000

theorem mem_neighbours_snoc {ts : List Txn} {t : Txn} {p : Txn × Txn}
    (member : p ∈ neighbours ts) : p ∈ neighbours (ts ++ [t]) := by
  rw [neighbours_snoc]
  exact List.mem_append_left _ member

theorem Schedule.init {hz : ℕ} {ts : List Txn} {t : Txn} (sched : Schedule hz (ts ++ [t])) :
    Schedule hz ts where
  nonzero u member := sched.nonzero u (List.mem_append_left [t] member)
  apart p member := sched.apart p (mem_neighbours_snoc member)
  near p member := sched.near p (mem_neighbours_snoc member)
  exact p member := sched.exact p (mem_neighbours_snoc member)

theorem gaps_neighbours (ts : List Txn) :
    gaps (ts.map Txn.fall) (ts.map Txn.rise) =
      (neighbours ts).map fun p => p.2.fall - p.1.rise := by
  have from_first : ∀ (t : Txn) (rest : List Txn),
      gaps ((t :: rest).map Txn.fall) ((t :: rest).map Txn.rise) =
        (successive t rest).map fun p => p.2.fall - p.1.rise := by
    intro t rest
    induction rest generalizing t with
    | nil => rfl
    | cons u rest ih => exact congrArg (List.cons (u.fall - t.rise)) (ih u)
  cases ts with
  | nil => rfl
  | cons t rest => exact from_first t rest

/-- A trace whose bytes last from fall to rise gives the analyser these gaps. -/
theorem gaps_laScan {bursts : List Burst} {ts : List Txn}
    (starts : bursts.map Burst.first = ts.map Txn.fall)
    (ends : bursts.map Burst.last = ts.map Txn.rise) :
    gaps (laScan (bursts.flatMap Burst.rows)).txnStarts
        (laScan (bursts.flatMap Burst.rows)).txnEnds =
      (neighbours ts).map fun p => p.2.fall - p.1.rise := by
  obtain ⟨found, found'⟩ := laScan_bursts bursts
  rw [found, found', starts, ends, gaps_neighbours]

/-- A period is a gap and the transaction behind it. -/
theorem periodUs_eq {hz : ℕ} {ts : List Txn} (sched : Schedule hz ts) {p : Txn × Txn}
    (member : p ∈ neighbours ts) : periodUs hz p = gapUs hz p + txnUs hz p.2 := by
  have order := sched.apart p member
  have ordered := p.2.ordered
  have split : p.2.rise - p.1.rise = (p.2.fall - p.1.rise) + (p.2.rise - p.2.fall) := by omega
  rw [periodUs, us, split, Nat.add_mul, Nat.add_div_of_dvd_right (sched.exact p member)]
  rfl

/-! ### The window -/

theorem txns_txn (events : List LinkEvent) (t : Txn) :
    txns (events ++ [.txn t]) = txns events ++ [t] :=
  List.filterMap_append

theorem txns_quiet (events : List LinkEvent) {e : LinkEvent} (quiet : e.txn? = none) :
    txns (events ++ [e]) = txns events := by
  rw [txns, List.filterMap_append, List.filterMap_cons_none quiet, List.filterMap_nil,
    List.append_nil, txns]

theorem txnWindow_snoc (events : List LinkEvent) (e : LinkEvent) :
    txnWindow (events ++ [e]) = windowStep (txnWindow events) e := by
  rw [txnWindow, List.foldl_append]
  rfl

/-- The window ends with the last transaction, and its neighbours are neighbours of the run. -/
theorem txnWindow_txns (events : List LinkEvent) :
    (txnWindow events).getLast? = (txns events).getLast? ∧
      ∀ p ∈ neighbours (txnWindow events), p ∈ neighbours (txns events) := by
  induction events using List.reverseRecOn with
  | nil => exact ⟨rfl, nofun⟩
  | append_singleton events e ih =>
    obtain ⟨last, within⟩ := ih
    rw [txnWindow_snoc]
    cases e with
    | txn t =>
      rw [txns_txn, windowStep, List.getLast?_concat, List.getLast?_concat]
      refine ⟨rfl, fun p member => ?_⟩
      rw [neighbours_snoc, last] at member
      rw [neighbours_snoc]
      rcases List.mem_append.mp member with old | fresh
      · exact List.mem_append_left _ (within p old)
      · exact List.mem_append_right _ fresh
    | arm now cycle readyCyc =>
      rw [txns_quiet events rfl]
      exact ⟨last, within⟩
    | done rxFrame ret cycle =>
      rw [txns_quiet events rfl]
      exact ⟨last, within⟩
    | other c =>
      rw [txns_quiet events rfl, windowStep]
      split
      · -- a reset keeps the last transaction and no pair
        cases found : (txnWindow events).getLast? with
        | none =>
          rw [found] at last
          exact ⟨last, nofun⟩
        | some t =>
          rw [found] at last
          exact ⟨last, nofun⟩
      · exact ⟨last, within⟩

/-! ### The statistics -/

/-- The two statistics of an adapter. -/
structure GapStats where
  low : U32
  high : U32

def gapStats (a : Adapter) : GapStats := ⟨a.lnk.stats.csGapMinUs, a.lnk.stats.csGapMaxUs⟩

theorem gapStats_txAcquire (a : Adapter) (now : ℤ) (cycle : U32) :
    gapStats (txAcquire a now cycle).1 = gapStats a := by
  obtain ⟨armed, buf, fresh, staleCleared, staleClear, same⟩ := rearm_frame a now
  rw [txAcquire, same]
  rfl

theorem gapStats_rxSubmit (a : Adapter) (frame : Frame) (len : ℕ) (cycle : U32) :
    gapStats (rxSubmit a frame len cycle) = gapStats a := by
  obtain ⟨txnCount, shortFrame, crcErrRx, lastRx, cap, received⟩ :=
    rxReceive_frame a cycle frame len
  obtain ⟨msgq, workq, overrun, same⟩ := rxSubmit_handsOver a cycle frame len
  rw [same, received]
  rfl

/-- Of the calls that other services make only the reset touches the statistics. -/
theorem gapStats_other (a : Adapter) (c : OtherCall) (kept : c.call.op ≠ .statsReset) :
    gapStats (Rimlink.step a c.call).1 = gapStats a := by
  unfold Rimlink.step
  cases called : c.call.op with
  | txAcquire => exact gapStats_txAcquire a c.call.now c.call.cycle
  | rxSubmit frame len => exact gapStats_rxSubmit a frame len c.call.cycle
  | rxWork =>
    obtain ⟨q, emptied⟩ := rxWorkLoop_frame 5 a
    simp only [rxWorkHandler, emptied, gapStats]
  | noteCsGap gapUs => exact absurd called (c.noGap gapUs)
  | statsReset => exact absurd called kept
  | _ => rfl

theorem gapStats_reset (a : Adapter) {c : Call} (reset : c.op = .statsReset) :
    gapStats (Rimlink.step a c).1 = ⟨BitVec.allOnes 32, 0⟩ := by
  unfold Rimlink.step
  rw [reset]
  rfl

theorem gapStats_noteRearmMiss (a : Adapter) : gapStats (noteRearmMiss a) = gapStats a := by
  simp only [gapStats, noteRearmMiss]

/-- The statistics are the extremes of these values. -/
def Shows (xs : List ℕ) (stats : GapStats) : Prop :=
  Extremes 0 (2 ^ 32 - 1) xs stats.low.toNat stats.high.toNat

theorem shows_nil : Shows [] ⟨BitVec.allOnes 32, 0⟩ := extremes_nil 0 (2 ^ 32 - 1)

theorem shows_noteCsGap {xs : List ℕ} {a : Adapter} (shown : Shows xs (gapStats a))
    (gapUs : U32) : Shows (xs ++ [gapUs.toNat]) (gapStats (noteCsGap a gapUs)) := by
  have bound := gapUs.isLt
  have noted := shown.note (Nat.zero_le gapUs.toNat) (by omega)
  have low : (gapStats (noteCsGap a gapUs)).low.toNat =
      min (gapStats a).low.toNat gapUs.toNat := by
    simp only [gapStats, noteCsGap]
    split
    next less => exact (Nat.min_eq_right (Nat.le_of_lt less)).symm
    next other => exact (Nat.min_eq_left (BitVec.not_lt.mp other)).symm
  have high : (gapStats (noteCsGap a gapUs)).high.toNat =
      max (gapStats a).high.toNat gapUs.toNat := by
    simp only [gapStats, noteCsGap]
    split
    next greater => exact (Nat.max_eq_right (Nat.le_of_lt greater)).symm
    next other => exact (Nat.max_eq_left (BitVec.not_lt.mp other)).symm
  rw [Shows, low, high]
  exact noted

/-! ### The interrupt -/

/-- What holds between the statics and the transactions measured on. -/
structure GapInv (hz : ℕ) (s : LinkSpi) (window : List Txn) : Prop where
  last : s.lastCsRiseCyc = (window.getLast?.map fun t => tick t.rise).getD 0
  shown : Shows ((neighbours window).map (periodUs hz)) (gapStats s.adapter)

theorem csSenseIsr_last (hz : ℕ) (s : LinkSpi) (now : U32) :
    (csSenseIsr hz s now).lastCsRiseCyc = now := by
  unfold csSenseIsr
  dsimp only
  split <;> split <;> rfl

/-- The interrupt notes the period since the last rise, if there was one. -/
theorem gapStats_csSenseIsr (hz : ℕ) (s : LinkSpi) (now : U32) :
    gapStats (csSenseIsr hz s now).adapter =
      if s.lastCsRiseCyc ≠ 0 then
        gapStats (noteCsGap s.adapter (cycToUs32 hz (now - s.lastCsRiseCyc)))
      else gapStats s.adapter := by
  unfold csSenseIsr
  by_cases nonzero : s.lastCsRiseCyc ≠ 0
  · simp only [if_pos nonzero]
    cases s.armed with
    | false => simp only [Bool.false_eq_true, if_false, gapStats_noteRearmMiss]
    | true => simp only [if_true]
  · simp only [if_neg nonzero]
    cases s.armed with
    | false => simp only [Bool.false_eq_true, if_false, gapStats_noteRearmMiss]
    | true => simp only [if_true]

/-- The difference of two ticks is the time between them. -/
theorem cycToUs32_tick {hz : ℕ} (fast : 1000000 ≤ hz) {before after : ℕ} (order : before ≤ after)
    (near : after - before < 2 ^ 32) :
    (cycToUs32 hz (tick after - tick before)).toNat = us hz (after - before) := by
  rw [cycToUs32_toNat fast, tick, tick, count_sub order, kCycToUsFloor64, BitVec.toNat_ofNat,
    Nat.mod_eq_of_lt near]
  rfl

theorem gapInv_txn {hz : ℕ} (fast : 1000000 ≤ hz) {s : LinkSpi} {window : List Txn}
    (inv : GapInv hz s window) {t : Txn}
    (sound : ∀ u ∈ window.getLast?, tick u.rise ≠ 0 ∧ u.rise ≤ t.fall ∧
      t.rise - u.rise < 2 ^ 32) :
    GapInv hz (csSenseIsr hz s (tick t.rise)) (window ++ [t]) := by
  constructor
  · rw [csSenseIsr_last, List.getLast?_concat]
    rfl
  · rw [neighbours_snoc, List.map_append, gapStats_csSenseIsr, inv.last]
    cases found : window.getLast? with
    | none =>
      -- the first transaction ever
      rw [if_neg (fun nonzero => nonzero rfl), Option.toList_none, List.map_nil, List.map_nil,
        List.append_nil]
      exact inv.shown
    | some u =>
      obtain ⟨nonzero, order, near⟩ := sound u found
      have ordered := t.ordered
      have noted := shows_noteCsGap inv.shown (cycToUs32 hz (tick t.rise - tick u.rise))
      rw [cycToUs32_tick fast (Nat.le_trans order ordered) near] at noted
      rw [Option.map_some, Option.getD_some, if_pos nonzero]
      exact noted

/-- What the schedule says about a transaction and the one before it. -/
theorem Schedule.last {hz : ℕ} {ts : List Txn} {t : Txn} (sched : Schedule hz (ts ++ [t])) :
    ∀ u ∈ ts.getLast?, tick u.rise ≠ 0 ∧ u.rise ≤ t.fall ∧ t.rise - u.rise < 2 ^ 32 := by
  intro u last
  have pair : (u, t) ∈ neighbours (ts ++ [t]) := by
    rw [neighbours_snoc, Option.mem_def.mp last]
    exact List.mem_append_right _ (List.mem_singleton_self (u, t))
  have member : u ∈ ts ++ [t] := List.mem_append_left [t] (List.mem_of_mem_getLast? last)
  exact ⟨sched.nonzero u member, sched.apart (u, t) pair, sched.near (u, t) pair⟩

theorem linkRun_snoc (hz : ℕ) (s : LinkSpi) (events : List LinkEvent) (e : LinkEvent) :
    linkRun hz s (events ++ [e]) = linkStep hz (linkRun hz s events) e := by
  rw [linkRun, List.foldl_append]
  rfl

/-- **Every run** keeps the extremes of the periods since the last reset. -/
theorem gapInv_linkRun {hz : ℕ} (fast : 1000000 ≤ hz) (id : RimId) (cfg : Option Bool) (now : ℤ)
    (events : List LinkEvent) (sched : Schedule hz (txns events)) :
    GapInv hz (linkRun hz (.boot id cfg now) events) (txnWindow events) := by
  induction events using List.reverseRecOn with
  | nil => exact ⟨rfl, shows_nil⟩
  | append_singleton events e ih =>
    rw [linkRun_snoc, txnWindow_snoc]
    cases e with
    | txn t =>
      rw [txns_txn] at sched
      have last := sched.last
      rw [← (txnWindow_txns events).1] at last
      exact gapInv_txn fast (ih sched.init) last
    | arm now' cycle readyCyc =>
      rw [txns_quiet events rfl] at sched
      obtain ⟨last, shown⟩ := ih sched
      exact ⟨last, by rwa [linkStep, linkArm, gapStats_txAcquire]⟩
    | done rxFrame ret cycle =>
      rw [txns_quiet events rfl] at sched
      obtain ⟨last, shown⟩ := ih sched
      exact ⟨last, by rwa [linkStep, linkDone, gapStats_rxSubmit]⟩
    | other c =>
      rw [txns_quiet events rfl] at sched
      obtain ⟨last, shown⟩ := ih sched
      rw [windowStep, linkStep]
      split
      next reset =>
        constructor
        · rw [last]
          cases (txnWindow events).getLast? <;> rfl
        · have empty : neighbours (txnWindow events).getLast?.toList = [] := by
            cases (txnWindow events).getLast? <;> rfl
          rw [empty, gapStats_reset _ reset]
          exact shows_nil
      next kept => exact ⟨last, by rwa [gapStats_other _ c kept]⟩

/-! ### Gaps and periods -/

/-- The statistics are the least and the greatest gap, as the analyser computes gaps. -/
structure MeasuresGaps (hz : ℕ) (s : LinkSpi) (window : List Txn) : Prop where
  least : IsLeast {x | x ∈ (gaps (window.map Txn.fall) (window.map Txn.rise)).map (us hz)}
    s.adapter.lnk.stats.csGapMinUs.toNat
  greatest : IsGreatest {x | x ∈ (gaps (window.map Txn.fall) (window.map Txn.rise)).map (us hz)}
    s.adapter.lnk.stats.csGapMaxUs.toNat

/-- Some shortest gap is followed by a transaction that takes no time, and no gap is longer than
the longest together with the transaction behind it. -/
def TxnsFree (hz : ℕ) (pairs : List (Txn × Txn)) : Prop :=
  (∃ p ∈ pairs, txnUs hz p.2 = 0 ∧ ∀ q ∈ pairs, gapUs hz p ≤ gapUs hz q) ∧
    ∀ p ∈ pairs, ∃ q ∈ pairs, gapUs hz p + txnUs hz p.2 ≤ gapUs hz q

theorem measuresGaps_iff {hz : ℕ} (fast : 1000000 ≤ hz) (id : RimId) (cfg : Option Bool) (now : ℤ)
    {events : List LinkEvent} (sched : Schedule hz (txns events))
    (several : neighbours (txnWindow events) ≠ []) :
    MeasuresGaps hz (linkRun hz (.boot id cfg now) events) (txnWindow events) ↔
      TxnsFree hz (neighbours (txnWindow events)) := by
  obtain ⟨-, shown⟩ := gapInv_linkRun fast id cfg now events sched
  have periods : (neighbours (txnWindow events)).map (periodUs hz) =
      (neighbours (txnWindow events)).map fun p => gapUs hz p + txnUs hz p.2 :=
    List.map_congr_left fun p member => periodUs_eq sched ((txnWindow_txns events).2 p member)
  have measured : (gaps ((txnWindow events).map Txn.fall) ((txnWindow events).map Txn.rise)).map
      (us hz) = (neighbours (txnWindow events)).map (gapUs hz) := by
    rw [gaps_neighbours, List.map_map]
    rfl
  rw [periods] at shown
  have nonempty : (neighbours (txnWindow events)).map (fun p => gapUs hz p + txnUs hz p.2) ≠ [] :=
    fun empty => several (List.map_eq_nil_iff.mp empty)
  have least := isLeast_sum_iff (shown.isLeast nonempty)
  have greatest := isGreatest_sum_iff (shown.isGreatest nonempty)
  rw [← measured] at least greatest
  exact ⟨fun right => ⟨least.mp right.least, greatest.mp right.greatest⟩,
    fun free => ⟨least.mpr free.1, greatest.mpr free.2⟩⟩

/-- The statistics are right if and only if there is no gap to measure or the transactions are
free. -/
theorem csGap_measures_iff {hz : ℕ} (fast : 1000000 ≤ hz) (id : RimId) (cfg : Option Bool)
    (now : ℤ) (events : List LinkEvent) (sched : Schedule hz (txns events)) :
    (neighbours (txnWindow events) ≠ [] →
        MeasuresGaps hz (linkRun hz (.boot id cfg now) events) (txnWindow events)) ↔
      neighbours (txnWindow events) = [] ∨ TxnsFree hz (neighbours (txnWindow events)) := by
  rcases Classical.em (neighbours (txnWindow events) = []) with alone | several
  · exact iff_of_true (fun several => absurd alone several) (Or.inl alone)
  · rw [measuresGaps_iff fast id cfg now sched several]
    exact ⟨fun free => Or.inr (free several), fun free _ => free.resolve_left several⟩

/-- Two transactions of a millisecond with a gap of three, at 550 MHz. -/
def twoTxns : List LinkEvent :=
  [.txn ⟨550000, 1100000, by decide⟩, .txn ⟨2750000, 3300000, by decide⟩]

theorem schedule_twoTxns : Schedule 550000000 (txns twoTxns) where
  nonzero := by decide
  apart := by decide
  near := by decide
  exact := by decide

theorem csGap_measures_iff_twoTxns :
    1000000 ≤ 550000000 ∧ Schedule 550000000 (txns twoTxns) ∧
      ((neighbours (txnWindow twoTxns) ≠ [] →
          MeasuresGaps 550000000
            (linkRun 550000000 (.boot rimIdPorsche918Rsr (some true) 0) twoTxns)
            (txnWindow twoTxns)) ↔
        neighbours (txnWindow twoTxns) = [] ∨
          TxnsFree 550000000 (neighbours (txnWindow twoTxns))) := by
  have fast : 1000000 ≤ 550000000 := by decide
  exact ⟨fast, schedule_twoTxns, csGap_measures_iff fast rimIdPorsche918Rsr (some true) 0
    twoTxns schedule_twoTxns⟩

/-- **Transactions that take time** are never measured around. -/
theorem not_measuresGaps {hz : ℕ} (fast : 1000000 ≤ hz) (id : RimId) (cfg : Option Bool) (now : ℤ)
    {events : List LinkEvent} (sched : Schedule hz (txns events))
    (several : neighbours (txnWindow events) ≠ [])
    (takes : ∀ p ∈ neighbours (txnWindow events), 0 < txnUs hz p.2) :
    ¬ MeasuresGaps hz (linkRun hz (.boot id cfg now) events) (txnWindow events) := by
  rw [measuresGaps_iff fast id cfg now sched several]
  rintro ⟨⟨p, member, free, -⟩, -⟩
  have time := takes p member
  omega

/-- The gap of three milliseconds is reported as four. -/
theorem csGap_includes_txn :
    Schedule 550000000 (txns twoTxns) ∧ neighbours (txnWindow twoTxns) ≠ [] ∧
      ¬ MeasuresGaps 550000000
        (linkRun 550000000 (.boot rimIdPorsche918Rsr (some true) 0) twoTxns)
        (txnWindow twoTxns) := by
  have several : neighbours (txnWindow twoTxns) ≠ [] := List.cons_ne_nil _ _
  have fast : 1000000 ≤ 550000000 := by decide
  have takes : ∀ p ∈ neighbours (txnWindow twoTxns), 0 < txnUs 550000000 p.2 := by decide
  exact ⟨schedule_twoTxns, several, not_measuresGaps fast rimIdPorsche918Rsr (some true) 0
    schedule_twoTxns several takes⟩

end FanatecWheel.App
