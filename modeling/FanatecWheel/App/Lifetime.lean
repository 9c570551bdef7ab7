import FanatecWheel.App.Health
import FanatecWheel.App.SettingsStore
import FanatecWheel.Foundation.ByteOrder

/-!
# Health counters from boot to boot

`app/src/health.c` with the settings backend: the record goes into the store with a commit,
whatever else is saved there, and `health_init` takes it out at the next boot. Power can be
lost at any time.
-/

namespace FanatecWheel.App

open Foundation Rimlink

/-- `struct health_counters` as it lies in memory. -/
def healthImage (hc : HealthCounters) : List U8 :=
  wordBytes hc.powerCycles ++ (wordBytes hc.mateEvents ++ (wordBytes hc.txnTotal ++
    (wordBytes hc.errTotal ++ (wordBytes hc.wdtResets ++ (wordBytes hc.thermalEvents ++ [])))))

def healthOf (image : List U8) : HealthCounters where
  powerCycles := wordAt 32 image 0
  mateEvents := wordAt 32 image 4
  txnTotal := wordAt 64 image 8
  errTotal := wordAt 64 image 16
  wdtResets := wordAt 32 image 24
  thermalEvents := wordAt 32 image 28

def healthKey : String := "rimh/counters"

/-- `health_set`: a record of another size is refused. -/
def healthSet (image : List U8) : Option HealthCounters :=
  if image.length = 32 then some (healthOf image) else none

/-- `settings_load_subtree("rimh")`. -/
def healthLoad (store : Store) : Option HealthCounters := (store.lookup healthKey).bind healthSet

/-- `settings_save_one` of the record, with what the backend answers. -/
def healthSave (answer : String → I32) (store : Store) (hc : HealthCounters) : Store × I32 :=
  settingsSaveOne answer store healthKey (healthImage hc)

theorem healthOf_healthImage (hc : HealthCounters) : healthOf (healthImage hc) = hc := by
  have mate : wordAt 32 (healthImage hc) 4 = hc.mateEvents :=
    (wordAt_skip _ _ 0).trans (wordAt_here ⟨4, rfl⟩ _ _)
  have txn : wordAt 64 (healthImage hc) 8 = hc.txnTotal :=
    (wordAt_skip _ _ 4).trans ((wordAt_skip _ _ 0).trans (wordAt_here ⟨8, rfl⟩ _ _))
  have err : wordAt 64 (healthImage hc) 16 = hc.errTotal :=
    (wordAt_skip _ _ 12).trans ((wordAt_skip _ _ 8).trans ((wordAt_skip _ _ 0).trans
      (wordAt_here ⟨8, rfl⟩ _ _)))
  have wdt : wordAt 32 (healthImage hc) 24 = hc.wdtResets :=
    (wordAt_skip _ _ 20).trans ((wordAt_skip _ _ 16).trans ((wordAt_skip _ _ 8).trans
      ((wordAt_skip _ _ 0).trans (wordAt_here ⟨4, rfl⟩ _ _))))
  have thermal : wordAt 32 (healthImage hc) 28 = hc.thermalEvents :=
    (wordAt_skip _ _ 24).trans ((wordAt_skip _ _ 20).trans ((wordAt_skip _ _ 12).trans
      ((wordAt_skip _ _ 4).trans ((wordAt_skip _ _ 0).trans (wordAt_here ⟨4, rfl⟩ _ _)))))
  rw [healthOf, mate, txn, err, wdt, thermal, healthImage, wordAt_here ⟨4, rfl⟩]

/-- What was saved is what is loaded. -/
theorem healthSet_healthImage (hc : HealthCounters) : healthSet (healthImage hc) = some hc := by
  have sized : (healthImage hc).length = 32 := by
    simp only [healthImage, List.length_append, length_wordBytes, List.length_nil]
  rw [healthSet, if_pos sized, healthOf_healthImage]

/-! ### One device, from its first boot on -/

/-- The flash and what runs since the last boot. -/
structure Device where
  store : Store
  sys : HealthSys

inductive LifeAct
  /-- The link, `rim health` or a mate event. -/
  | run (act : HealthAct)
  /-- The 60 s work item. -/
  | commit (answer : String → I32)
  /-- `rim save` and `rim lock`. -/
  | settingsCommit (rs : Rs) (answer : String → I32) (subtree : String)
  /-- Power is lost or the watchdog fires; the uptime when the link is up again. -/
  | reboot (id : RimId) (now : ℤ) (wdtCause : Bool)

inductive LifeEvent
  | ran (e : HealthEvent)
  | committed (hc : HealthCounters) (ret : I32)
  | settings
  | booted (wdtCause : Bool)

namespace Device

/-- `main` up to `health_init`: only the flash is left of what was before. -/
def boot (store : Store) (id : RimId) (now : ℤ) (wdtCause : Bool) : Device where
  store := store
  sys := (healthMachine id now (healthLoad store) wdtCause).start

variable (d : Device)

/-- `health_commit`. -/
def commit (answer : String → I32) : Device × LifeEvent :=
  let committed := App.healthCommit d.sys.health d.sys.now
  let saved := healthSave answer d.store committed.2
  (⟨saved.1, { d.sys with health := committed.1, since := [] }⟩, .committed committed.2 saved.2)

def step : LifeAct → Option (Device × LifeEvent)
  | .run act =>
    match act with
    | .healthCommit => none
    | act => (d.sys.step act).map fun (sys, e) => ({ d with sys := sys }, .ran e)
  | .commit answer => some (d.commit answer)
  | .settingsCommit rs answer subtree =>
    some ({ d with store := (rimSettingsCommit rs answer d.store subtree).1 }, .settings)
  | .reboot id now wdtCause => some (boot d.store id now wdtCause, .booted wdtCause)

end Device

/-- A device taken out of its box. -/
def lifetime (id : RimId) (now : ℤ) (wdtCause : Bool) : Machine Device LifeAct LifeEvent where
  start := .boot ∅ id now wdtCause
  step := Device.step

end FanatecWheel.App
