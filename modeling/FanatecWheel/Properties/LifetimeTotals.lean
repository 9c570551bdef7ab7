import FanatecWheel.App.Lifetime
import FanatecWheel.Properties.HealthTotals
import FanatecWheel.Properties.SettingsPersistence

/-!
# What is kept from boot to boot

A boot that commits its record passes on everything that happened up to its last commit; one
that never does is forgotten, its power cycle included. The record in the flash is at any time
the account of the boots that were passed on.
-/

namespace FanatecWheel.App

open Foundation Rimlink

/-! ### The account -/

/-- What a counter that misses nothing has counted; of the link all that happened. -/
structure Ledger where
  cycles : ℕ
  mates : ℕ
  wdtResets : ℕ
  links : List RxEvent

namespace Ledger

def empty : Ledger := ⟨0, 0, 0, []⟩

def boot (l : Ledger) (wdtCause : Bool) : Ledger :=
  { l with cycles := l.cycles + 1, wdtResets := l.wdtResets + wdtCause.toNat }

def after (l : Ledger) : HealthEvent → Ledger
  | .link e => { l with links := l.links ++ [e] }
  | .mate => { l with mates := l.mates + 1 }
  | .folded _ => l

end Ledger

/-- The account of what runs, and the one that the flash keeps. -/
structure Ledgers where
  live : Ledger
  kept : Ledger

def Ledgers.after (l : Ledgers) : LifeEvent → Ledgers
  | .ran e => { l with live := l.live.after e }
  | .committed _ ret => if ret = 0 then { l with kept := l.live } else l
  | .settings => l
  -- what was not committed is gone
  | .booted wdtCause => { l with live := l.kept.boot wdtCause }

/-- Both accounts after a life that began with a boot. -/
def ledgers (wdtCause : Bool) (events : List LifeEvent) : Ledgers :=
  events.foldl Ledgers.after ⟨Ledger.empty.boot wdtCause, .empty⟩

theorem ledgers_snoc (wdtCause : Bool) (events : List LifeEvent) (e : LifeEvent) :
    ledgers wdtCause (events ++ [e]) = (ledgers wdtCause events).after e := by
  simp only [ledgers, List.foldl_append, List.foldl_cons, List.foldl_nil]

/-- A record that agrees with an account: the counters modulo `2 ^ 32`, the totals never above
what happened and equal to it unless the statistics were reset. -/
structure Agrees (hc : HealthCounters) (l : Ledger) : Prop where
  cycles : hc.powerCycles = BitVec.ofNat 32 l.cycles
  mates : hc.mateEvents = BitVec.ofNat 32 l.mates
  wdtResets : hc.wdtResets = BitVec.ofNat 32 l.wdtResets
  thermal : hc.thermalEvents = 0
  txn : Counts RxEvent.isFull 0 hc.txnTotal l.links
  err : Counts RxEvent.isError 0 hc.errTotal l.links

theorem agrees_empty : Agrees .zero .empty :=
  ⟨rfl, rfl, rfl, rfl, ⟨Nat.le_refl _, fun _ => rfl⟩, ⟨Nat.le_refl _, fun _ => rfl⟩⟩

/-- `health_init` counts the boot. -/
theorem agrees_boot {loaded : Option HealthCounters} {l : Ledger}
    (agrees : Agrees (loaded.getD .zero) l) (wdtCause : Bool) :
    Agrees (healthInit ⟨.zero, .zero⟩ loaded wdtCause).hc (l.boot wdtCause) := by
  obtain ⟨cycles, mates, wdtResets, thermal, txn, err⟩ := agrees
  have counted : (loaded.getD .zero).powerCycles + 1 = BitVec.ofNat 32 (l.cycles + 1) := by
    rw [count_succ l.cycles, cycles]
    rfl
  cases wdtCause with
  | false => exact ⟨counted, mates, wdtResets, thermal, txn, err⟩
  | true =>
    -- the watchdog is counted on top of the power cycle
    refine ⟨counted, mates, ?_, thermal, txn, err⟩
    change (loaded.getD .zero).wdtResets + 1 = BitVec.ofNat 32 (l.wdtResets + 1)
    rw [count_succ l.wdtResets, wdtResets]
    rfl

/-! ### The flash -/

/-- The settings never write the record. -/
theorem healthLoad_settings (rs : Rs) (answer : String → I32) (store : Store) (subtree : String) :
    healthLoad (rimSettingsCommit rs answer store subtree).1 = healthLoad store := by
  -- the record lies outside the subtree of the settings
  have apart (f : Field) : healthKey ≠ "rim/" ++ f.key := by
    cases f <;> simp only [healthKey, Field.key, String.reduceAppend, ne_eq, String.reduceEq,
      not_false_eq_true]
  have untouched (fields : List Field) :
      (saveAll answer store (fieldWrites rs fields)).1.lookup healthKey =
        store.lookup healthKey := by
    induction fields using List.reverseRecOn with
    | nil => rfl
    | append_singleton fields f ih =>
      simp only [fieldWrites, List.map_append, List.map_singleton, saveAll, List.foldl_append,
        List.foldl_cons, List.foldl_nil, saveNext, settingsSaveOne] at ih ⊢
      split
      · rw [AList.lookup_insert_ne (apart f), ih]
      · exact ih
  rcases rimSettingsCommit_cases rs answer store subtree with ⟨-, ran⟩ | ⟨ret, -, ran⟩
  · rw [ran, healthLoad, untouched, ← healthLoad]
  · rw [ran]

/-- A commit of the record that succeeds is what is loaded, one that fails changes nothing. -/
theorem healthLoad_healthSave (answer : String → I32) (store : Store) (hc : HealthCounters) :
    healthLoad (healthSave answer store hc).1 =
      if (healthSave answer store hc).2 = 0 then some hc else healthLoad store := by
  unfold healthSave settingsSaveOne
  split
  next saved =>
    rw [if_pos rfl, healthLoad, AList.lookup_insert, Option.bind_some, healthSet_healthImage]
  next failed => rfl

/-! ### The run -/

/-- Folds that count right, as within one boot. -/
def LifeSound (d : Device) : LifeAct → Prop
  | .run act => Sound d.sys act
  | .commit _ => FoldSound d.sys
  | _ => True

instance (d : Device) (act : LifeAct) : Decidable (LifeSound d act) :=
  match act with
  | .run act => inferInstanceAs (Decidable (Sound d.sys act))
  | .commit _ => inferInstanceAs (Decidable (FoldSound d.sys))
  | .settingsCommit _ _ _ => isTrue trivial
  | .reboot _ _ _ => isTrue trivial

/-- The record in the flash agrees with what is kept, the one in memory with what happened up
to the last fold. -/
structure LifeInv (l : Ledgers) (d : Device) : Prop where
  kept : Agrees ((healthLoad d.store).getD .zero) l.kept
  counted : d.sys.now.rxCounts = d.sys.since.foldl RxCounts.after d.sys.health.last.rxCounts
  live : ∃ past, l.live.links = past ++ d.sys.since ∧
    Agrees d.sys.health.hc { l.live with links := past }

section Steps

variable {l : Ledgers} {d : Device}

/-- A boot starts from what is kept. -/
private theorem lifeInv_boot {store : Store} {kept : Ledger}
    (stored : Agrees ((healthLoad store).getD .zero) kept) (id : RimId) (now : ℤ)
    (wdtCause : Bool) : LifeInv ⟨kept.boot wdtCause, kept⟩ (.boot store id now wdtCause) := by
  refine ⟨stored, ?_, kept.links, (List.append_nil _).symm, agrees_boot stored wdtCause⟩
  cases healthLoad store <;> cases wdtCause <;> rfl

/-- A fold takes in what happened since the last one. -/
private theorem agrees_fold (inv : LifeInv l d) (sound : FoldSound d.sys) :
    Agrees (foldStats d.sys.health d.sys.now).hc l.live := by
  obtain ⟨past, links, agrees⟩ := inv.live
  -- both totals grow by what the link counted since the last fold
  obtain ⟨addedTxn, addedErr⟩ := foldStats_hc d.sys.health d.sys.now
  have txn := (counts_fold tally_txn agrees.txn inv.counted sound.fewTxn sound.roomTxn
    sound.caughtTxn).1
  have err := (counts_fold tally_err agrees.err inv.counted sound.fewErr sound.roomErr
    sound.caughtErr).1
  rw [← addedTxn, ← links] at txn
  rw [← addedErr, ← links] at err
  exact ⟨agrees.cycles, agrees.mates, agrees.wdtResets, agrees.thermal, txn, err⟩

private theorem lifeInv_fold (inv : LifeInv l d) (sound : FoldSound d.sys) {store : Store}
    {kept : Ledger} (stored : Agrees ((healthLoad store).getD .zero) kept) :
    LifeInv ⟨l.live, kept⟩
      ⟨store, { d.sys with health := foldStats d.sys.health d.sys.now, since := [] }⟩ :=
  ⟨stored, rfl, l.live.links, (List.append_nil _).symm, agrees_fold inv sound⟩

private theorem lifeInv_run (inv : LifeInv l d) {act : HealthAct} (sound : Sound d.sys act)
    {sys : HealthSys} {e : HealthEvent} (stepped : d.sys.step act = some (sys, e)) :
    LifeInv { l with live := l.live.after e } { d with sys := sys } := by
  cases act with
  | link act =>
    simp only [HealthSys.step, Option.map_eq_some_iff, Prod.mk.injEq] at stepped
    obtain ⟨⟨rx, event⟩, moved, rfl, rfl⟩ := stepped
    obtain ⟨past, links, agrees⟩ := inv.live
    refine ⟨inv.kept, ?_, past, ?_, agrees⟩
    · have counted := inv.counted
      simp only [HealthSys.now, statsGet] at counted ⊢
      rw [List.foldl_append, List.foldl_cons, List.foldl_nil, step_counts moved, counted]
    · rw [Ledger.after, links, List.append_assoc]
  | healthGet =>
    cases stepped
    exact lifeInv_fold inv sound inv.kept
  | healthCommit =>
    cases stepped
    exact lifeInv_fold inv sound inv.kept
  | noteMate =>
    cases stepped
    obtain ⟨past, links, agrees⟩ := inv.live
    refine ⟨inv.kept, inv.counted, past, links, agrees.cycles, ?_, agrees.wdtResets,
      agrees.thermal, agrees.txn, agrees.err⟩
    change d.sys.health.hc.mateEvents + 1 = BitVec.ofNat 32 (l.live.mates + 1)
    rw [count_succ l.live.mates, agrees.mates]
    rfl

/-- A commit puts the account of what runs in the place of the kept one, if it succeeds. -/
private theorem lifeInv_commit (inv : LifeInv l d) (sound : FoldSound d.sys)
    (answer : String → I32) : LifeInv (l.after (d.commit answer).2) (d.commit answer).1 := by
  have folded : Agrees (healthCommit d.sys.health d.sys.now).2 l.live := agrees_fold inv sound
  -- the fold happens in any case, only the flash may refuse
  have loaded := healthLoad_healthSave answer d.store (healthCommit d.sys.health d.sys.now).2
  change LifeInv (if (healthSave answer d.store (healthCommit d.sys.health d.sys.now).2).2 = 0
    then { l with kept := l.live } else l) _
  split
  next saved =>
    rw [if_pos saved] at loaded
    refine lifeInv_fold inv sound ?_
    rw [loaded]
    exact folded
  next failed =>
    rw [if_neg failed] at loaded
    refine lifeInv_fold inv sound ?_
    rw [loaded]
    exact inv.kept

private theorem lifeInv_step (inv : LifeInv l d) {act : LifeAct} (sound : LifeSound d act)
    {t : Device} {e : LifeEvent} (stepped : d.step act = some (t, e)) :
    LifeInv (l.after e) t := by
  cases act with
  | run act =>
    simp only [Device.step] at stepped
    split at stepped
    · cases stepped
    · obtain ⟨⟨sys, event⟩, moved, same⟩ := Option.map_eq_some_iff.mp stepped
      cases same
      exact lifeInv_run inv sound moved
  | commit answer =>
    cases stepped
    exact lifeInv_commit inv sound answer
  | settingsCommit rs answer subtree =>
    cases stepped
    refine ⟨?_, inv.counted, inv.live⟩
    rw [healthLoad_settings]
    exact inv.kept
  | reboot id now wdtCause =>
    cases stepped
    exact lifeInv_boot inv.kept id now wdtCause

end Steps

/-- **Lifetime counters.** Over any number of boots, failed commits and power losses at any
moment, in every run whose folds are sound: the record that the next boot will load agrees with
the account that is kept, and after a fold the record in memory with the account of what runs. -/
theorem lifetime_totals {id : RimId} {now : ℤ} {wdtCause : Bool} {events : List LifeEvent}
    {d : Device} (reached : (lifetime id now wdtCause).ReachesBy LifeSound events d) :
    Agrees ((healthLoad d.store).getD .zero) (ledgers wdtCause events).kept ∧
      (d.sys.since = [] → Agrees d.sys.health.hc (ledgers wdtCause events).live) := by
  have inv : LifeInv (ledgers wdtCause events) d := by
    refine Machine.ReachesBy.induct (P := fun events d => LifeInv (ledgers wdtCause events) d) ?_
      (fun _ _ _ _ _ inv sound stepped => ?_) reached
    · have blank : Agrees ((healthLoad ∅).getD .zero) .empty := agrees_empty
      exact lifeInv_boot blank id now wdtCause
    · rw [ledgers_snoc]
      exact lifeInv_step inv sound stepped
  refine ⟨inv.kept, fun folded => ?_⟩
  obtain ⟨past, links, agrees⟩ := inv.live
  rw [folded, List.append_nil] at links
  rw [← links] at agrees
  exact agrees

/-- A boot that commits, one that the flash refuses, and one more. -/
def threeBoots : List LifeAct :=
  [.run (.link (.call (fun _ => 0) 33 0)), .run .noteMate, .commit fun _ => 0,
    .reboot 3 0 true, .run (.link (.call (fun _ => 0) 33 0)), .commit fun _ => 5,
    .reboot 3 0 false, .commit fun _ => 0]

theorem lifetime_totals_run : ∃ events d,
    (lifetime 3 0 false).runBy LifeSound (lifetime 3 0 false).start threeBoots = some (d, events) ∧
      Agrees ((healthLoad d.store).getD .zero) (ledgers false events).kept := by
  have enabled : ((lifetime 3 0 false).runBy LifeSound (lifetime 3 0 false).start
      threeBoots).isSome := by
    decide +kernel
  obtain ⟨⟨d, events⟩, ran⟩ := Option.isSome_iff_exists.mp enabled
  exact ⟨events, d, ran, (lifetime_totals (Machine.reachesBy_of_run ran)).1⟩

end FanatecWheel.App
