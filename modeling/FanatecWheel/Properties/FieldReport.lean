import Mathlib.Data.List.GetD
import FanatecWheel.Host.FieldActivity
import FanatecWheel.Properties.RingReconcile

/-!
# The field report is about what was entered

The output fields that `field_activity.py` calls active are those that moved in the frames the
simulator sent whole and undamaged, whatever the rim made of them.
-/

namespace FanatecWheel.BaseSim

open Foundation Rimlink App Host

/-! ### What is driven -/

/-- The outputs entered now, and those of the frames sent whole and undamaged, oldest first. -/
structure Driver where
  entered : BaseOutputs
  driven : List BaseOutputs

def Driver.start : Driver := ⟨⟨fun _ => 0, 0, fun _ => 0⟩, []⟩

def Driver.after (d : Driver) : LinkEvent → Driver
  | .entered cmd => { d with entered := enter d.entered cmd }
  | .transacted len injected _ =>
    if len = 33 ∧ injected ≠ .crc then { d with driven := d.driven ++ [d.entered] } else d
  | .silent => d

def driver (events : List LinkEvent) : Driver := events.foldl Driver.after .start

theorem driver_snoc (events : List LinkEvent) (e : LinkEvent) :
    driver (events ++ [e]) = (driver events).after e := List.foldl_append

theorem driver_entered (events : List LinkEvent) :
    (driver events).entered = lastEntered events := by
  induction events using List.reverseRecOn with
  | nil => rfl
  | append_singleton events e ih =>
    rw [driver_snoc, lastEntered, List.foldl_append, List.foldl_cons, List.foldl_nil, ← lastEntered]
    cases e with
    | entered cmd => rw [Driver.after, ih]
    | transacted len injected decoded =>
      rw [Driver.after]
      split <;> exact ih
    | silent => exact ih

/-! ### What the report says of outputs -/

def dispValue (out : BaseOutputs) : List ℕ := (List.ofFn out.disp).map BitVec.toNat

def rumbleValue (out : BaseOutputs) : List ℕ := (List.ofFn out.rumble).map BitVec.toNat

/-- The totals of the loop, and what moved. -/
structure Reports (total : ℕ) (outs : List BaseOutputs) (a : Activity) : Prop where
  total : a.total = total
  valid : a.valid = outs.length
  once : a.dispVals.Nodup
  disp : ∀ v, v ∈ a.dispVals ↔ ∃ out ∈ outs, dispValue out = v
  leds : ∀ i, a.ledBits.testBit i = true ↔ ∃ out ∈ outs, out.leds.getLsbD i = true
  rumble : ∀ v, v ∈ a.rumbleSeen ↔ ∃ out ∈ outs, rumbleValue out = v ∧ out.rumble ≠ fun _ => 0

theorem reports_start : Reports 0 [] .start where
  total := rfl
  valid := rfl
  once := List.nodup_nil
  disp v := by simp [Activity.start]
  leds i := by simp [Activity.start]
  rumble v := by simp [Activity.start]

section Verdicts

variable {total : ℕ} {outs : List BaseOutputs} {a : Activity}

private theorem value_inj {k : ℕ} {b c : Bytes k} :
    (List.ofFn b).map BitVec.toNat = (List.ofFn c).map BitVec.toNat ↔ b = c := by
  rw [(List.map_injective_iff.mpr fun _ _ => BitVec.eq_of_toNat_eq).eq_iff,
    List.ofFn_injective.eq_iff]

theorem reports_dispActive (reports : Reports total outs a) :
    a.dispActive = true ↔ ∃ out ∈ outs, ∃ out' ∈ outs, out.disp ≠ out'.disp := by
  rw [Activity.dispActive, decide_eq_true_eq, ← List.toFinset_card_of_nodup reports.once,
    Finset.one_lt_card_iff]
  -- two values in the set are the texts of two frames, and back
  simp only [List.mem_toFinset, reports.disp]
  constructor
  · rintro ⟨v, w, ⟨out, sent, rfl⟩, ⟨out', sent', rfl⟩, differ⟩
    exact ⟨out, sent, out', sent', fun same => differ (value_inj.mpr same)⟩
  · rintro ⟨out, sent, out', sent', differ⟩
    exact ⟨_, _, ⟨out, sent, rfl⟩, ⟨out', sent', rfl⟩, fun same => differ (value_inj.mp same)⟩

theorem reports_ledsActive (reports : Reports total outs a) :
    a.ledsActive = true ↔ ∃ out ∈ outs, out.leds ≠ 0 := by
  rw [Activity.ledsActive, decide_eq_true_eq]
  constructor
  · intro lit
    obtain ⟨i, bit⟩ := Nat.exists_testBit_of_ne_zero lit
    obtain ⟨out, sent, set⟩ := (reports.leds i).mp bit
    refine ⟨out, sent, fun dark => ?_⟩
    rw [dark, BitVec.ofNat_eq_ofNat, BitVec.getLsbD_zero] at set
    cases set
  · rintro ⟨out, sent, lit⟩ dark
    -- a nonzero word has a bit that is set, and the report keeps it
    have word : out.leds.toNat ≠ 0 := fun zero => lit (BitVec.eq_of_toNat_eq zero)
    obtain ⟨i, set⟩ := Nat.exists_testBit_of_ne_zero word
    have bit := (reports.leds i).mpr ⟨out, sent, set⟩
    rw [dark, Nat.zero_testBit] at bit
    cases bit

theorem reports_rumbleActive (reports : Reports total outs a) :
    a.rumbleActive = true ↔ ∃ out ∈ outs, out.rumble ≠ fun _ => 0 := by
  rw [Activity.rumbleActive, decide_eq_true_eq, Ne, List.eq_nil_iff_forall_not_mem, not_forall_not]
  simp only [reports.rumble]
  constructor
  · rintro ⟨v, out, sent, -, moved⟩
    exact ⟨out, sent, moved⟩
  · rintro ⟨out, sent, moved⟩
    exact ⟨_, out, sent, rfl, moved⟩

end Verdicts

/-! ### The loop -/

/-- The frame on the MOSI side. -/
def mosiFrame (t : Transfer) : Frame := fun i => t.mosi.getD i.val 0

/-- The outputs of a transaction that passes for a frame. -/
def wireOutputs (t : Transfer) : Option BaseOutputs :=
  if wireCrcOk t.mosi then some (outputsOf (mosiFrame t)) else none

section Loop

variable {F : Type} {total : ℕ} {outs : List BaseOutputs} {a : Activity} {r : LaRec F}
  {t : Transfer}

theorem ofFn_mosiFrame (ok : wireCrcOk t.mosi = true) : List.ofFn (mosiFrame t) = t.mosi := by
  have whole : t.mosi.length = 33 := (of_decide_eq_true ok).1
  apply List.ext_getElem
  · rw [List.length_ofFn, whole]
  · intro i _ inside
    rw [List.getElem_ofFn, mosiFrame, List.getD_eq_getElem _ _ inside]

/-- The LED word, as the decoder and as the rim puts it together. -/
private theorem leds_word (low high : U8) :
    low.toNat ||| high.toNat <<< 8 = (low.setWidth 16 ||| (high.setWidth 16 <<< 8) : U16).toNat := by
  have small : low.toNat < 2 ^ 16 := Nat.lt_trans low.isLt (by decide)
  have shifted : high.toNat <<< 8 < 2 ^ 16 := by
    rw [Nat.shiftLeft_eq]
    have byte := high.isLt
    omega
  have fits : high.toNat < 2 ^ 16 := Nat.lt_trans high.isLt (by decide)
  rw [BitVec.toNat_or, BitVec.toNat_shiftLeft, BitVec.toNat_setWidth, BitVec.toNat_setWidth,
    Nat.mod_eq_of_lt small, Nat.mod_eq_of_lt fits, Nat.mod_eq_of_lt shifted]

/-- The fields the decoder finds are those of the rim. -/
theorem parseFrame_outputs (frame : Frame) : ∃ f, parseFrame (List.ofFn frame) = some f ∧
    f.disp = dispValue (outputsOf frame) ∧ f.leds = (outputsOf frame).leds.toNat ∧
    f.rumble = rumbleValue (outputsOf frame) :=
  ⟨_, parseFrame_eq frame, rfl, leds_word (frame 5) (frame 6), rfl⟩

theorem activityStep_damaged (reports : Reports total outs a) (bad : r.mosiCrcOk = false) :
    ∃ a', activityStep a r = some a' ∧ Reports (total + 1) outs a' := by
  refine ⟨{ a with total := a.total + 1 }, ?_, ?_⟩
  · simp [activityStep, bad]
  · exact { reports with total := congrArg (· + 1) reports.total }

/-- A pair of zeros is no rumble. -/
private theorem rumbleValue_any (out : BaseOutputs) :
    (rumbleValue out).any (· ≠ 0) = true ↔ out.rumble ≠ fun _ => 0 := by
  rw [List.any_eq_true, rumbleValue, ← not_iff_not]
  simp only [List.forall_mem_map, List.forall_mem_ofFn_iff, not_exists, not_and, not_not,
    decide_not, Bool.not_eq_true', decide_eq_false_iff_not]
  constructor
  · exact fun still => funext fun i => BitVec.eq_of_toNat_eq (still i)
  · rintro still i
    rw [still]
    rfl

private theorem exists_snoc {p : BaseOutputs → Prop} {out : BaseOutputs} :
    (∃ x ∈ outs ++ [out], p x) ↔ (∃ x ∈ outs, p x) ∨ p out := by
  simp only [List.mem_append, List.mem_singleton, or_and_right, exists_or, exists_eq_left]

theorem activityStep_frame (reports : Reports total outs a) (ok : r.mosiCrcOk = true)
    (frame : Frame) (hex : r.mosiHex = hexText (List.ofFn frame)) :
    ∃ a', activityStep a r = some a' ∧ Reports (total + 1) (outs ++ [outputsOf frame]) a' := by
  obtain ⟨f, parsed, disp, leds, rumble⟩ := parseFrame_outputs frame
  have read : fromHex r.mosiHex = some (List.ofFn frame) := hex ▸ fromHex_hexText _
  simp only [activityStep, ok, read, parsed, disp, leds, rumble, Bool.not_true, Bool.false_eq_true,
    if_false, Option.bind_eq_bind, Option.bind_some, Option.pure_def, Option.some.injEq,
    exists_eq_left']
  generalize outputsOf frame = out
  constructor
  · exact congrArg (· + 1) reports.total
  · rw [List.length_append, List.length_singleton, ← reports.valid]
  · exact reports.once.insert
  · intro v
    rw [List.mem_insert_iff, reports.disp, exists_snoc, or_comm, eq_comm]
  · intro i
    rw [Nat.testBit_or, Bool.or_eq_true, reports.leds, exists_snoc]
    rfl
  · intro v
    rw [exists_snoc, ← rumbleValue_any, ← reports.rumble]
    -- a pair of zeros is not kept
    split
    next moved => rw [List.mem_insert_iff, or_comm, eq_comm, and_iff_left moved]
    next still => rw [or_iff_left fun both => still both.2]

/-- The loop over the records of some transactions. -/
theorem activityLoop {recs : List (LaRec F)} {seen : List Transfer}
    (same : recs.map (fun r => (r.mosiHex, r.mosiCrcOk)) =
      seen.map fun t => (hexText t.mosi, wireCrcOk t.mosi))
    (reports : Reports total outs a) :
    ∃ a', recs.foldlM activityStep a = some a' ∧
      Reports (total + seen.length) (outs ++ seen.filterMap wireOutputs) a' := by
  -- on the transactions, with a record for each
  induction seen generalizing recs total outs a with
  | nil =>
    rw [List.map_nil, List.map_eq_nil_iff] at same
    subst same
    exact ⟨a, rfl, (List.append_nil outs).symm ▸ reports⟩
  | cons t seen ih =>
    obtain ⟨r, recs, rfl, here, later⟩ := List.map_eq_cons_iff.mp same
    obtain ⟨hex, ok⟩ := Prod.mk.inj here
    have step : ∃ a', activityStep a r = some a' ∧
        Reports (total + 1) (outs ++ (wireOutputs t).toList) a' := by
      cases verdict : wireCrcOk t.mosi with
      | false =>
        rw [wireOutputs, verdict, if_neg Bool.false_ne_true, Option.toList_none, List.append_nil]
        exact activityStep_damaged reports (ok.trans verdict)
      | true =>
        rw [wireOutputs, verdict, if_pos rfl]
        refine activityStep_frame reports (ok.trans verdict) _ ?_
        rw [hex, ofFn_mosiFrame verdict]
    obtain ⟨a₁, stepped, reports₁⟩ := step
    obtain ⟨a₂, ran, reports₂⟩ := ih later reports₁
    refine ⟨a₂, ?_, ?_⟩
    · rw [List.foldlM_cons, stepped]
      exact ran
    · have count : total + (t :: seen).length = total + 1 + seen.length := by
        rw [List.length_cons]
        omega
      have passed : outs ++ (t :: seen).filterMap wireOutputs =
          outs ++ (wireOutputs t).toList ++ seen.filterMap wireOutputs := by
        rw [List.append_assoc, List.filterMap_cons]
        cases wireOutputs t <;> rfl
      rw [count, passed]
      exact reports₂

end Loop

/-! ### Runs -/

/-- The ideal link, observed at the simulator and at the wires. -/
def watched (id : RimId) (now : ℤ) (clockHz cadenceUs jitterUs flushBytes : U32) :
    Machine IdealLink LinkAct (LinkEvent × BenchEvent) where
  start := (linkMachine id now clockHz cadenceUs jitterUs flushBytes).start
  step s a := ((linkMachine id now clockHz cadenceUs jitterUs flushBytes).step s a).map
    fun (t, e) => (t, e, benchEvent s a)

/-- What the simulator did. -/
def console (events : List (LinkEvent × BenchEvent)) : List LinkEvent := events.map Prod.fst

/-- What the analyser saw. -/
def analysed (events : List (LinkEvent × BenchEvent)) : List Transfer :=
  transfers (events.map Prod.snd)

section Runs

variable {id : RimId} {now : ℤ} {clockHz cadenceUs jitterUs flushBytes : U32}
  {events : List (LinkEvent × BenchEvent)} {s : IdealLink}

/-- A transaction passes for a frame when it was sent whole and undamaged. -/
theorem wireOutputs_onWire {out : BaseOutputs} (sends : Sends s.sim out) (index : Fin 2)
    (fill : Bytes 41) : wireOutputs (onWire s index fill) =
      if s.sim.txnLen = 33 ∧ s.sim.injected ≠ .crc then some out else none := by
  have sized := onWire_length s index fill
  -- only 33 bytes can pass for a frame, and a flipped CRC byte does not
  by_cases whole : s.sim.txnLen = 33
  · have mosi := (onWire_whole s index fill whole).1
    have verdict : wireCrcOk (onWire s index fill).mosi = decide (Sealed (frameOf s.sim.mosiTxn)) :=
      mosi ▸ wireCrcOk_frame _
    by_cases damaged : s.sim.injected = .crc
    · rw [wireOutputs, verdict, decide_eq_false (mosiTxn_corrupt s.sim damaged sends.sealed),
        if_neg Bool.false_ne_true, if_neg fun intact => intact.2 damaged]
    · have frame := mosiTxn_intact s.sim damaged
      have sealed : decide (Sealed (frameOf s.sim.mosiTxn)) = true :=
        decide_eq_true (frame ▸ sends.sealed)
      have bytes : mosiFrame (onWire s index fill) = frameOf s.sim.mosi := by
        apply List.ofFn_injective
        rw [ofFn_mosiFrame (verdict.trans sealed), mosi, frame]
      rw [wireOutputs, verdict, sealed, if_pos rfl, if_pos ⟨whole, damaged⟩, bytes, sends.carries]
  · have other : wireCrcOk (onWire s index fill).mosi = false := by
      refine decide_eq_false fun frame => whole ?_
      have length := frame.1
      rw [Transfer.mosi, List.length_map, sized, frameLen] at length
      omega
    rw [wireOutputs, other, if_neg Bool.false_ne_true, if_neg fun intact => whole intact.1]

variable (id now clockHz cadenceUs jitterUs flushBytes) in
/-- What holds after every step. -/
structure Watched (events : List (LinkEvent × BenchEvent)) (s : IdealLink) : Prop where
  link : (linkMachine id now clockHz cadenceUs jitterUs flushBytes).Reaches (console events) s
  clocked : ∀ t ∈ analysed events, t.bytes ≠ []
  driven : (analysed events).filterMap wireOutputs = (driver (console events)).driven

private theorem unseen_step {act : LinkAct} {e : LinkEvent} {out : BaseOutputs}
    (unseen : benchEvent s act = .other) (undriven : ∀ d : Driver, (d.after e).driven = d.driven) :
    (∀ seen ∈ (benchEvent s act).transfer?, seen.bytes ≠ []) ∧
      ∀ d : Driver, d.entered = out → (d.after e).driven =
        d.driven ++ (benchEvent s act).transfer?.toList.filterMap wireOutputs := by
  rw [unseen]
  constructor
  · intro seen member
    cases member
  · intro d _
    exact (undriven d).trans (List.append_nil _).symm

/-- What a step adds to the wires and to the outputs driven. -/
private theorem watched_step_cases {t : IdealLink} {act : LinkAct} {e : LinkEvent} {out : BaseOutputs}
    (sends : Sends s.sim out) (moved : s.step act = some (t, e)) :
    (∀ seen ∈ (benchEvent s act).transfer?, seen.bytes ≠ []) ∧
      ∀ d : Driver, d.entered = out → (d.after e).driven =
        d.driven ++ (benchEvent s act).transfer?.toList.filterMap wireOutputs := by
  cases act with
  -- nothing but a transaction is seen on the wires
  | transact fill cycle =>
    simp only [IdealLink.step] at moved
    split at moved
    · cases moved
    next index waits =>
      cases moved
      have event : benchEvent s (.transact fill cycle) = .clocked (onWire s index fill) := by
        rw [benchEvent, waits]
        rfl
      rw [event]
      constructor
      · rintro _ ⟨⟩
        refine List.ne_nil_of_length_pos ?_
        have some_byte : 1 ≤ s.sim.txnLen := by
          by_cases truncated : s.sim.injected = .trunc
          · exact (txnLen_trunc s.sim truncated).1
          · exact Nat.le_trans (by decide) (txnLen_whole s.sim truncated).1
        rw [onWire_length]
        omega
      · rintro d rfl
        rw [BenchEvent.transfer?, Option.toList_some, List.filterMap_cons,
          wireOutputs_onWire sends index fill, Driver.after]
        split
        · rfl
        · exact (List.append_nil _).symm
  | arm now cycle =>
    simp only [IdealLink.step] at moved
    split at moved <;> cases moved
    exact unseen_step rfl fun _ => rfl
  | command cmd =>
    cases moved
    exact unseen_step rfl fun _ => rfl
  | rim c =>
    simp only [IdealLink.step] at moved
    split at moved <;> cases moved
    exact unseen_step rfl fun _ => rfl

theorem watched_run
    (reached : (watched id now clockHz cadenceUs jitterUs flushBytes).Reaches events s) :
    Watched id now clockHz cadenceUs jitterUs flushBytes events s := by
  refine Machine.ReachesBy.induct (m := watched id now clockHz cadenceUs jitterUs flushBytes)
    (P := Watched id now clockHz cadenceUs jitterUs flushBytes) ?_ ?_ reached
  · have booted : (linkMachine id now clockHz cadenceUs jitterUs flushBytes).Reaches []
        (linkMachine id now clockHz cadenceUs jitterUs flushBytes).start := .start
    exact ⟨booted, List.forall_mem_nil _, rfl⟩
  intro events s act t e inv _ stepped
  obtain ⟨⟨t', link⟩, moved, same⟩ := Option.map_eq_some_iff.mp stepped
  cases same
  have sends := (reconciled_run inv.link).sends
  obtain ⟨clocked, driven⟩ := watched_step_cases sends moved
  -- the new event shows in both lists
  have console' : console (events ++ [(link, benchEvent s act)]) = console events ++ [link] :=
    List.map_append
  have analysed' : analysed (events ++ [(link, benchEvent s act)]) =
      analysed events ++ (benchEvent s act).transfer?.toList := by
    rw [analysed, List.map_append, List.map_singleton, transfers_snoc, ← analysed]
  refine ⟨console' ▸ inv.link.next trivial moved, ?_, ?_⟩
  · rw [analysed', List.forall_mem_append]
    exact ⟨inv.clocked, fun seen member => clocked seen (Option.mem_toList.mp member)⟩
  · rw [analysed', console', List.filterMap_append, inv.driven, driver_snoc,
      driven _ (driver_entered _)]

/-- **The field report is about what was entered.** In every run the analyser's file decodes and
the report goes through; it counts every transaction, and as valid those sent whole and
undamaged; its texts, LED bits and rumble bytes are exactly those in force when such a frame was
sent, and a field is called active when it moved. -/
theorem field_report {F : Type} (float : Text → Option F) (time : ℕ → ℕ → Text) {t0 : ℕ → F}
    (timed : ∀ n, float (time n 0) = some (t0 n))
    (reached : (watched id now clockHz cadenceUs jitterUs flushBytes).Reaches events s) :
    let outs := (driver (console events)).driven
    ∃ recs a, laDecode float (laFile time (analysed events)) = some recs ∧
      fieldActivity recs = some a ∧ Reports (analysed events).length outs a ∧
      (a.dispActive = true ↔ ∃ out ∈ outs, ∃ out' ∈ outs, out.disp ≠ out'.disp) ∧
      (a.ledsActive = true ↔ ∃ out ∈ outs, out.leds ≠ 0) ∧
      (a.rumbleActive = true ↔ ∃ out ∈ outs, out.rumble ≠ fun _ => 0) := by
  intro outs
  have inv := watched_run reached
  obtain ⟨a, ran, reports⟩ := activityLoop
    (map_laRecs (h := fun t => (hexText t.mosi, wireCrcOk t.mosi)) t0 (fun _ _ => rfl)
      (analysed events)) reports_start
  rw [Nat.zero_add, List.nil_append, inv.driven] at reports
  exact ⟨_, a, laDecode_laFile timed inv.clocked, ran, reports, reports_dispActive reports,
    reports_ledsActive reports, reports_rumbleActive reports⟩

/-- Two texts in whole frames; the LEDs are only in a frame that was corrupted. -/
def reportRun : List LinkAct :=
  [.command (.disp (some ['A'])), .arm 0 0, .transact (fun _ => 0) 0,
    .command (.disp (some ['C'])), .arm 1 0, .transact (fun _ => 0) 0, .command (.leds 5),
    .command (.fault "crc" (some 1)), .arm 2 0, .transact (fun _ => 0) 0]

theorem field_report_run : ∃ events s recs a,
    (watched 3 0 500000 2000 0 0).run (watched 3 0 500000 2000 0 0).start reportRun =
      some (s, events) ∧
    laDecode (digitsValue 10) (laFile (fun _ _ => ['0']) (analysed events)) = some recs ∧
    fieldActivity recs = some a ∧ a.total = 3 ∧ a.valid = 2 ∧ a.dispActive = true ∧
    a.ledsActive = false := by
  have enabled : ((watched 3 0 500000 2000 0 0).run (watched 3 0 500000 2000 0 0).start
      reportRun).map (fun (_, events) => ((analysed events).length,
        (driver (console events)).driven.map fun out => (out.disp, out.leds))) =
      some (3, [(![0x77, 0, 0], 0), (![0x39, 0, 0], 0)]) := by
    decide +kernel
  obtain ⟨⟨s, events⟩, ran, fields⟩ := Option.map_eq_some_iff.mp enabled
  obtain ⟨count, driven⟩ := Prod.mk.inj fields
  obtain ⟨first, rest, split, here, later⟩ := List.map_eq_cons_iff.mp driven
  obtain ⟨second, rfl, there⟩ := List.map_eq_singleton_iff.mp later
  obtain ⟨disp₁, leds₁⟩ := Prod.mk.inj here
  obtain ⟨disp₂, leds₂⟩ := Prod.mk.inj there
  obtain ⟨recs, a, decoded, reported, reports, disp, leds, -⟩ :=
    field_report (digitsValue 10) (fun _ _ => ['0']) (fun _ => rfl) (Machine.reaches_of_run ran)
  rw [split] at reports disp leds
  refine ⟨events, s, recs, a, ran, decoded, reported, reports.total.trans count, reports.valid,
    disp.mpr ⟨first, .head _, second, .tail _ (.head _), ?_⟩, ?_⟩
  · rw [disp₁, disp₂]
    decide
  · rw [Bool.eq_false_iff, Ne, leds]
    simp [leds₁, leds₂]

end Runs

end FanatecWheel.BaseSim
