import FanatecWheel.App.InputShell
import FanatecWheel.App.SettingsStore
import FanatecWheel.Foundation.Trace

/-!
# Settings across reboots

The setters keep the settings valid, the commits write them key by key and may
fail at any key, and a reboot starts from the defaults and loads what is stored.
The reader trusts the store, so that the store must hold nothing but images of
valid settings: every key holds the field as it was at the last save of that key.
-/

namespace FanatecWheel.App

open Foundation

/-! ### The firmware, its store and its reboots -/

/-- The input service with the settings it works on, the rest of `rs`, and the
store. -/
structure SettingsSys where
  svc : InputSvc
  schema : U8
  locked : Bool
  store : Store

/-- A setter, a tick (the chord sets the clutch mode), `rim lock` with its argument,
a commit, or a reboot with the order in which the stored keys are delivered. The
backend answers each save. -/
inductive SettingsAct
  | input (c : InputCall)
  | tick (x : Samples)
  | lock (arg : Option String) (answer : String → I32)
  | commit (subtree : String) (answer : String → I32)
  | reboot (order : List String) (levels : Fin 4 → AbLevel)

/-- A commit with the settings it saved from, the keys it saved and what it returned;
a reboot; or neither. -/
inductive SettingsEvent
  | committed (rs : Rs) (saved : List String) (ret : I32)
  | rebooted
  | silent

namespace SettingsSys

variable (s : SettingsSys)

def rs : Rs := { s.svc.settings with schema := s.schema, locked := s.locked }

/-- The keys of a commit that the backend saved. -/
def savedKeys (rs : Rs) (answer : String → I32) (subtree : String) : List String :=
  match commitWrites rs subtree with
  | .error _ => []
  | .ok writes => (writes.map Prod.fst).filter fun key => answer key = 0

def commit (subtree : String) (answer : String → I32) : SettingsSys × SettingsEvent :=
  let committed := rimSettingsCommit s.rs answer s.store subtree
  ({ s with store := committed.1 },
    .committed s.rs (savedKeys s.rs answer subtree) committed.2)

/-- `cmd_rim_lock`: the lock is engaged before it is persisted. -/
def cmdRimLock (arg : Option String) (answer : String → I32) : SettingsSys × SettingsEvent :=
  match arg with
  | none => (s, .silent)
  | some word =>
    if word ≠ "status" then { s with locked := word = "on" }.commit "lock" answer
    else (s, .silent)

/-- The compiled defaults, `rim_settings_init`, then `input_svc_init`. -/
def reboot (order : List String) (levels : Fin 4 → AbLevel) : SettingsSys :=
  let rs := settingsLoadSubtree s.store order .default
  { s with
    svc := inputSvcInit rs.toRimSettings levels
    schema := rs.schema
    locked := rs.locked }

/-- A reboot delivers every stored key. -/
def step : SettingsAct → Option (SettingsSys × SettingsEvent)
  | .input c => some ({ s with svc := inputCall s.svc c }, .silent)
  | .tick x => some ({ s with svc := (inputTick s.svc x).1 }, .silent)
  | .lock arg answer => some (s.cmdRimLock arg answer)
  | .commit subtree answer => some (s.commit subtree answer)
  | .reboot order levels =>
    if s.store.keys ⊆ order.map ("rim/" ++ ·) then some (s.reboot order levels, .rebooted)
    else none

end SettingsSys

/-- From the first boot on, with nothing stored. -/
def settingsMachine (levels : Fin 4 → AbLevel) :
    Machine SettingsSys SettingsAct SettingsEvent where
  start := {
    svc := inputSvcInit .default levels
    schema := schemaVersion
    locked := false
    store := ∅ }
  step := SettingsSys.step

/-! ### The persisted fields -/

/-- The fields that are persisted. -/
inductive Field
  | schema | clutchCal | dpadThr | dpadHyst | buttonMap | encoderSel | axisMap
  | clutchMode | bitePoint | locked
deriving DecidableEq

/-- The key the reader knows the field by. -/
def Field.key : Field → String
  | .schema => "schema"
  | .clutchCal => "cal/clutch"
  | .dpadThr => "cal/dpad_thr"
  | .dpadHyst => "cal/dpad_hyst"
  | .buttonMap => "map/buttons"
  | .encoderSel => "map/encoder"
  | .axisMap => "map/axis"
  | .clutchMode => "mode/clutch"
  | .bitePoint => "mode/bite"
  | .locked => "lock"

/-- The two settings have the same value of the field. -/
def Field.Same : Field → Rs → Rs → Prop
  | .schema, a, b => a.schema = b.schema
  | .clutchCal, a, b => a.clutchCal = b.clutchCal
  | .dpadThr, a, b => a.dpadThr = b.dpadThr
  | .dpadHyst, a, b => a.dpadHyst = b.dpadHyst
  | .buttonMap, a, b => a.buttonMap = b.buttonMap
  | .encoderSel, a, b => a.encoderSel = b.encoderSel
  | .axisMap, a, b => a.axisMap = b.axisMap
  | .clutchMode, a, b => a.clutchMode = b.clutchMode
  | .bitePoint, a, b => a.bitePoint = b.bitePoint
  | .locked, a, b => a.locked = b.locked

/-- The image the writer saves for the field. -/
def Field.image (rs : Rs) : Field → List U8
  | .schema => [rs.schema]
  | .clutchCal => clutchCalsImage rs.clutchCal
  | .dpadThr => wordsImage rs.dpadThr
  | .dpadHyst => wordImage rs.dpadHyst
  | .buttonMap => List.ofFn rs.buttonMap
  | .encoderSel => [rs.encoderSel]
  | .axisMap => [rs.axisMap]
  | .clutchMode => [rs.clutchMode]
  | .bitePoint => [rs.bitePoint]
  | .locked => [if rs.locked then 1 else 0]

theorem Field.Same.refl (f : Field) (rs : Rs) : f.Same rs rs := by cases f <;> rfl

theorem Field.Same.trans {f : Field} {a b c : Rs} (first : f.Same a b) (second : f.Same b c) :
    f.Same a c := by
  cases f <;> exact Eq.trans first second

theorem Field.key_inj {f g : Field} (same : "rim/" ++ f.key = "rim/" ++ g.key) : f = g := by
  rw [String.append_right_inj] at same
  cases f <;> cases g <;> first | rfl | simp only [Field.key, String.reduceEq] at same

/-! ### Writer and reader -/

theorem wordOf_image (v : U16) : wordOf (v.setWidth 8) ((v >>> 8).setWidth 8) = v := by
  apply BitVec.eq_of_getLsbD_eq
  intro i inside
  simp only [wordOf, BitVec.getLsbD_or, BitVec.getLsbD_shiftLeft, BitVec.getLsbD_setWidth,
    BitVec.getLsbD_ushiftRight]
  by_cases below : i < 8
  · simp [below, inside]
  · have place : 8 + (i - 8) = i := by omega
    have high : i - 8 < 8 := by omega
    have within : i - 8 < 16 := by omega
    simp [below, inside, place, high, within]

private theorem clutchCals_image (cal : Fin 2 → ClutchCal) :
    (fun ch : Fin 2 => clutchCalOf (clutchCalsImage cal) (8 * ch)) = cal := by
  funext ch
  have fields : ∀ c : ClutchCal, c = {
      min := wordOf (c.min.setWidth 8) ((c.min >>> 8).setWidth 8)
      max := wordOf (c.max.setWidth 8) ((c.max >>> 8).setWidth 8)
      guard := wordOf (c.guard.setWidth 8) ((c.guard >>> 8).setWidth 8)
      deadzone := c.deadzone } := by
    intro c
    simp only [wordOf_image]
  fin_cases ch
  · exact (fields (cal 0)).symm
  · exact (fields (cal 1)).symm

private theorem words_image (thr : Fin 7 → U16) :
    (fun i : Fin 7 => wordOf (byteAt (wordsImage thr) (2 * i))
      (byteAt (wordsImage thr) (2 * i + 1))) = thr := by
  funext i
  fin_cases i <;> exact wordOf_image _

private theorem bytes_image (map : Fin 6 → U8) :
    (fun i : Fin 6 => byteAt (List.ofFn map) i) = map := by
  funext i
  fin_cases i <;> rfl

private theorem flag_image (b : Bool) : decide (byteAt [if b then 1 else 0] 0 ≠ 0) = b := by
  cases b <;> rfl

/-- One key of the reader. -/
private theorem same_key {f : Field} {rs loaded : Rs} {key known : String} {image : List U8}
    {size : ℕ} {otherwise : Rs × I32} (here : key = known → f.Same loaded rs)
    (next : f.Same otherwise.1 rs) :
    f.Same (if key = known then load image size rs loaded else otherwise).1 rs := by
  split
  next own =>
    unfold load
    split
    · exact here own
    · exact .refl f rs
  · exact next

/-- The reader of a key touches no other field. -/
theorem rimSet_other (f : Field) (rs : Rs) (key : String) (image : List U8) (other : key ≠ f.key) :
    f.Same (rimSet rs key image).1 rs := by
  unfold rimSet
  refine same_key ?schema (same_key ?clutch (same_key ?thr (same_key ?hyst (same_key ?buttons
    (same_key ?encoder (same_key ?axis (same_key ?mode (same_key ?bite (same_key ?lock
      (.refl f rs))))))))))
  -- the key of the field itself is excluded
  case schema =>
    intro own
    split
    · cases f <;> first | rfl | exact absurd own other
    · exact .refl f rs
  all_goals
    intro own
    cases f <;> first | rfl | exact absurd own other

/-- **Round trip.** The reader takes back what the writer saved for the field, if the
schema is the current one. -/
theorem rimSet_image (f : Field) (rs saved : Rs) (current : rs.schema = schemaVersion)
    (version : saved.schema = schemaVersion) :
    f.Same (rimSet rs f.key (f.image saved)).1 saved := by
  cases f with
  | schema => simpa [Field.Same, rimSet, load, Field.image, Field.key, byteAt, version] using current
  | clutchCal => exact clutchCals_image saved.clutchCal
  | dpadThr => exact words_image saved.dpadThr
  | dpadHyst => exact wordOf_image saved.dpadHyst
  | buttonMap =>
    have sized : (List.ofFn saved.buttonMap).length = 6 := List.length_ofFn
    simpa [Field.Same, rimSet, load, Field.image, Field.key, sized] using
      bytes_image saved.buttonMap
  | encoderSel => rfl
  | axisMap => rfl
  | clutchMode => rfl
  | bitePoint => rfl
  | locked => exact flag_image saved.locked

/-- The fields of each subtree of the writer, in its order. -/
def subtreeFields (subtree : String) : List Field :=
  if subtree = "cal" then [.clutchCal, .dpadThr, .dpadHyst, .schema]
  else if subtree = "map" then [.buttonMap, .encoderSel, .axisMap, .schema]
  else if subtree = "mode" then [.clutchMode, .bitePoint, .schema]
  else if subtree = "lock" then [.locked, .schema]
  else []

private theorem commitWrites_ok {rs : Rs} {subtree : String} {writes : List (String × List U8)}
    (allowed : commitWrites rs subtree = .ok writes) :
    subtree ∈ ["cal", "map", "mode", "lock"] := by
  unfold commitWrites at allowed
  by_contra unknown
  simp only [List.mem_cons, List.not_mem_nil, or_false, not_or] at unknown
  obtain ⟨cal, map, mode, lock⟩ := unknown
  simp only [cal, map, mode, lock, if_false] at allowed
  split at allowed <;> cases allowed

/-- The writer's keys are those of the reader, each with the image of its field. -/
theorem commitWrites_eq {rs : Rs} {subtree : String} {writes : List (String × List U8)}
    (allowed : commitWrites rs subtree = .ok writes) :
    writes = (subtreeFields subtree).map fun f => ("rim/" ++ f.key, f.image rs) := by
  have known := commitWrites_ok allowed
  simp only [List.mem_cons, List.not_mem_nil, or_false] at known
  unfold commitWrites at allowed
  split at allowed
  · cases allowed
  · rcases known with rfl | rfl | rfl | rfl <;>
    · cases allowed
      rfl

/-- The writes of a list of fields. -/
def fieldWrites (rs : Rs) (fields : List Field) : List (String × List U8) :=
  fields.map fun f => ("rim/" ++ f.key, f.image rs)

private theorem lookup_saveNext (answer : String → I32) (sofar : Store × I32) (rs : Rs)
    (f g : Field) :
    (saveNext answer sofar ("rim/" ++ g.key, g.image rs)).1.lookup ("rim/" ++ f.key) =
      if f = g ∧ answer ("rim/" ++ f.key) = 0 then some (f.image rs)
      else sofar.1.lookup ("rim/" ++ f.key) := by
  simp only [saveNext, settingsSaveOne]
  by_cases same : f = g
  · subst same
    split
    · simp only [AList.lookup_insert, true_and, *, if_true]
    · simp only [true_and, *, if_false]
  · have other : "rim/" ++ f.key ≠ "rim/" ++ g.key := fun keys => same (Field.key_inj keys)
    split
    · simp only [AList.lookup_insert_ne other, same, false_and, if_false]
    · simp only [same, false_and, if_false]

/-- After a row of saves each key that was saved holds the image, every other key what
it held. -/
theorem lookup_saveAll (answer : String → I32) (store : Store) (rs : Rs) (fields : List Field)
    (f : Field) :
    (saveAll answer store (fieldWrites rs fields)).1.lookup ("rim/" ++ f.key) =
      if f ∈ fields ∧ answer ("rim/" ++ f.key) = 0 then some (f.image rs)
      else store.lookup ("rim/" ++ f.key) := by
  induction fields using List.reverseRecOn with
  | nil => simp [saveAll, fieldWrites]
  | append_singleton fields g ih =>
    have step := lookup_saveNext answer (saveAll answer store (fieldWrites rs fields)) rs f g
    rw [ih] at step
    simp only [saveAll, fieldWrites, List.map_append, List.map_singleton, List.foldl_append,
      List.foldl_cons, List.foldl_nil, List.mem_append, List.mem_singleton] at step ⊢
    rw [step]
    by_cases saved : answer ("rim/" ++ f.key) = 0
    · by_cases last : f = g
      · simp only [last, or_true, true_and]
        split
        · rfl
        next refused => exact absurd (last ▸ saved) refused
      · simp only [last, false_and, if_false, or_false]
    · simp only [saved, and_false, if_false]

/-- A row of saves returns zero only if every save did. -/
theorem saveAll_zero {answer : String → I32} {store : Store} {writes : List (String × List U8)}
    (zero : (saveAll answer store writes).2 = 0) : ∀ w ∈ writes, answer w.1 = 0 := by
  induction writes using List.reverseRecOn with
  | nil => simp
  | append_singleton writes w ih =>
    simp only [saveAll, List.foldl_append, List.foldl_cons, List.foldl_nil, saveNext,
      settingsSaveOne] at zero ih
    obtain ⟨before, last⟩ := BitVec.or_eq_zero_iff.mp zero
    intro v member
    rcases List.mem_append.mp member with earlier | same
    · exact ih before v earlier
    · rw [List.mem_singleton.mp same]
      split at last
      · assumption
      · exact last

/-- A commit of a subtree is the row of saves of its fields. -/
theorem rimSettingsCommit_cases (rs : Rs) (answer : String → I32) (store : Store)
    (subtree : String) :
    (commitWrites rs subtree = .ok (fieldWrites rs (subtreeFields subtree)) ∧
      rimSettingsCommit rs answer store subtree =
        saveAll answer store (fieldWrites rs (subtreeFields subtree))) ∨
    ∃ ret, commitWrites rs subtree = .error ret ∧
      rimSettingsCommit rs answer store subtree = (store, ret) := by
  unfold rimSettingsCommit
  cases allowed : commitWrites rs subtree with
  | error ret => exact .inr ⟨ret, rfl, rfl⟩
  | ok writes =>
    have listed := commitWrites_eq allowed
    exact .inl ⟨congrArg Except.ok listed, congrArg (saveAll answer store) listed⟩

private theorem commitWrites_error {rs : Rs} {subtree : String} {ret : I32}
    (refused : commitWrites rs subtree = .error ret) : ret ≠ 0 := by
  unfold commitWrites at refused
  repeat' split at refused
  all_goals
    cases refused
    try decide

/-- A commit that returns zero has saved every key of the subtree. -/
theorem commit_zero (rs : Rs) (answer : String → I32) (store : Store) (subtree : String)
    (zero : (rimSettingsCommit rs answer store subtree).2 = 0) :
    subtree ∈ ["cal", "map", "mode", "lock"] ∧
      ∀ f ∈ subtreeFields subtree, answer ("rim/" ++ f.key) = 0 ∧
        (rimSettingsCommit rs answer store subtree).1.lookup ("rim/" ++ f.key) =
          some (f.image rs) := by
  rcases rimSettingsCommit_cases rs answer store subtree with ⟨writes, ran⟩ | ⟨ret, refused, ran⟩
  · rw [ran] at zero
    have saved := saveAll_zero zero
    refine ⟨commitWrites_ok writes, fun f member => ?_⟩
    have success : answer ("rim/" ++ f.key) = 0 :=
      saved _ (List.mem_map.mpr ⟨f, member, rfl⟩)
    rw [ran, lookup_saveAll, if_pos ⟨member, success⟩]
    exact ⟨success, rfl⟩
  · rw [ran] at zero
    exact absurd zero (commitWrites_error refused)

/-! ### Loading -/

private theorem loadKey_other (f : Field) (store : Store) (rs : Rs) (key : String)
    (other : key ≠ f.key) : f.Same (loadKey store rs key) rs := by
  unfold loadKey
  split
  · exact rimSet_other f rs key _ other
  · exact .refl f rs

private theorem loadKey_schema (store : Store) (rs : Rs) (key : String)
    (current : rs.schema = schemaVersion)
    (version : ∀ image, store.lookup "rim/schema" = some image → image = [schemaVersion]) :
    (loadKey store rs key).schema = schemaVersion := by
  by_cases own : key = "schema"
  · subst own
    unfold loadKey
    split
    next image found => simp [version image found, rimSet, load, byteAt, current]
    · exact current
  · have kept : (loadKey store rs key).schema = rs.schema := loadKey_other .schema store rs key own
    exact kept.trans current

/-- What a load makes of a field: nothing if its key is absent, and what was saved if
the key holds the image and is delivered. -/
private theorem loaded_field (f : Field) (store : Store) (order : List String) (rs : Rs)
    (current : rs.schema = schemaVersion)
    (version : ∀ image, store.lookup "rim/schema" = some image → image = [schemaVersion]) :
    (store.lookup ("rim/" ++ f.key) = none → f.Same (settingsLoadSubtree store order rs) rs) ∧
    ∀ saved : Rs, saved.schema = schemaVersion →
      store.lookup ("rim/" ++ f.key) = some (f.image saved) →
      f.key ∈ order ∨ f.Same rs saved → f.Same (settingsLoadSubtree store order rs) saved := by
  induction order generalizing rs with
  | nil => exact ⟨fun _ => .refl f rs, fun saved _ _ reached => reached.resolve_left (by simp)⟩
  | cons key rest ih =>
    have later := ih (loadKey store rs key) (loadKey_schema store rs key current version)
    refine ⟨fun absent => (later.1 absent).trans ?_, fun saved version' found reached => ?_⟩
    · by_cases own : key = f.key
      · subst own
        simp only [loadKey, absent]
        exact .refl f rs
      · exact loadKey_other f store rs key own
    · apply later.2 saved version' found
      by_cases own : key = f.key
      · right
        subst own
        simp only [loadKey, found]
        exact rimSet_image f rs saved current version'
      -- the key of another field: what was known about this one still holds
      · exact reached.imp
          (fun member => (List.mem_cons.mp member).resolve_left fun same => own same.symm)
          fun same => (loadKey_other f store rs key own).trans same

/-! ### The invariant -/

/-- The settings at the last commit that saved the field's key. -/
def lastSaved (f : Field) (events : List SettingsEvent) : Option Rs :=
  events.foldl (fun last e => match e with
    | .committed rs saved _ => if "rim/" ++ f.key ∈ saved then some rs else last
    | _ => last) none

private theorem lastSaved_snoc (f : Field) (events : List SettingsEvent) (e : SettingsEvent) :
    lastSaved f (events ++ [e]) =
      match e with
      | .committed rs saved _ =>
        if "rim/" ++ f.key ∈ saved then some rs else lastSaved f events
      | _ => lastSaved f events := by
  simp only [lastSaved, List.foldl_append, List.foldl_cons, List.foldl_nil]

/-- Settings that are valid and of the current schema. -/
structure Rs.Sound (rs : Rs) : Prop where
  valid : rs.toRimSettings.Valid
  version : rs.schema = schemaVersion

/-- The settings at work are sound, and every key of the store holds the image of
sound settings, those of its last save. -/
structure SettingsInv (events : List SettingsEvent) (s : SettingsSys) : Prop where
  sound : s.rs.Sound
  saved : ∀ f rs, lastSaved f events = some rs → rs.Sound
  stored : ∀ f : Field, s.store.lookup ("rim/" ++ f.key) =
    (lastSaved f events).map fun rs => f.image rs

section Steps

variable {events : List SettingsEvent} {s : SettingsSys}

/-- A step that saves nothing and leaves sound settings. -/
private theorem settingsInv_silent (inv : SettingsInv events s) {t : SettingsSys}
    {e : SettingsEvent} (nothing : ∀ f, lastSaved f (events ++ [e]) = lastSaved f events)
    (kept : t.store = s.store) (sound : t.rs.Sound) : SettingsInv (events ++ [e]) t := by
  refine ⟨sound, fun f rs last => inv.saved f rs ?_, fun f => ?_⟩
  · rw [← nothing f]
    exact last
  · rw [nothing f, kept]
    exact inv.stored f

/-- The keys a commit reports are those it saved. -/
private theorem mem_savedKeys (rs : Rs) (answer : String → I32) (store : Store) (subtree : String)
    (f : Field) :
    (rimSettingsCommit rs answer store subtree).1.lookup ("rim/" ++ f.key) =
      if "rim/" ++ f.key ∈ SettingsSys.savedKeys rs answer subtree then some (f.image rs)
      else store.lookup ("rim/" ++ f.key) := by
  rcases rimSettingsCommit_cases rs answer store subtree with ⟨writes, ran⟩ | ⟨ret, refused, ran⟩
  · have listed : "rim/" ++ f.key ∈ SettingsSys.savedKeys rs answer subtree ↔
        f ∈ subtreeFields subtree ∧ answer ("rim/" ++ f.key) = 0 := by
      simp only [SettingsSys.savedKeys, writes, fieldWrites, List.map_map, List.mem_filter,
        List.mem_map, decide_eq_true_eq]
      refine and_congr_left fun _ => ⟨?_, fun member => ⟨f, member, rfl⟩⟩
      rintro ⟨g, member, keys⟩
      exact Field.key_inj keys ▸ member
    rw [ran, lookup_saveAll]
    simp only [listed]
  · simp only [ran, SettingsSys.savedKeys, refused, List.not_mem_nil, if_false]

private theorem settingsInv_commit (inv : SettingsInv events s) (subtree : String)
    (answer : String → I32) :
    SettingsInv (events ++ [(s.commit subtree answer).2]) (s.commit subtree answer).1 := by
  refine ⟨inv.sound, fun f rs last => ?_, fun f => ?_⟩
  · rw [lastSaved_snoc] at last
    simp only [SettingsSys.commit] at last
    split at last
    · cases last
      exact inv.sound
    · exact inv.saved f rs last
  · rw [lastSaved_snoc]
    simp only [SettingsSys.commit, mem_savedKeys, inv.stored f]
    split <;> rfl

/-- A reboot brings back every field as it was last saved. -/
theorem settingsInv_reload (inv : SettingsInv events s) {order : List String}
    (delivered : s.store.keys ⊆ order.map ("rim/" ++ ·)) (f : Field) :
    f.Same (settingsLoadSubtree s.store order .default) ((lastSaved f events).getD .default) := by
  have version : ∀ image, s.store.lookup "rim/schema" = some image → image = [schemaVersion] := by
    intro image found
    have stored := inv.stored .schema
    rw [show "rim/" ++ Field.schema.key = "rim/schema" from rfl, found] at stored
    obtain ⟨rs, last, same⟩ := Option.map_eq_some_iff.mp stored.symm
    rw [← same, Field.image, (inv.saved _ rs last).version]
  obtain ⟨absent, present⟩ := loaded_field f s.store order .default rfl version
  cases last : lastSaved f events with
  | none => exact absent (by rw [inv.stored f, last]; rfl)
  | some rs =>
    have found : s.store.lookup ("rim/" ++ f.key) = some (f.image rs) := by
      rw [inv.stored f, last]
      rfl
    refine present rs (inv.saved f rs last).version found (.inl ?_)
    -- the key is stored, so the backend delivers it
    have member : "rim/" ++ f.key ∈ s.store := AList.lookup_isSome.mp (by rw [found]; rfl)
    obtain ⟨key, listed, keys⟩ := List.mem_map.mp (delivered (AList.mem_keys.mp member))
    rw [String.append_right_inj] at keys
    exact keys ▸ listed

private theorem settingsInv_reboot (inv : SettingsInv events s) {order : List String}
    (delivered : s.store.keys ⊆ order.map ("rim/" ++ ·)) (levels : Fin 4 → AbLevel) :
    SettingsInv (events ++ [.rebooted]) (s.reboot order levels) := by
  have loaded := settingsInv_reload inv delivered
  have sound : ∀ f, ((lastSaved f events).getD .default).Sound := by
    intro f
    cases last : lastSaved f events with
    | none => exact ⟨RimSettings.default_valid, rfl⟩
    | some rs => exact inv.saved f rs last
  -- each field of the new state is the one saved last, which was sound when it was saved
  refine settingsInv_silent inv (fun f => lastSaved_snoc f events _) rfl ⟨⟨?_, ?_, ?_⟩, ?_⟩
  · intro i j later
    have same := loaded .dpadThr
    simp only [Field.Same] at same
    simpa only [SettingsSys.rs, SettingsSys.reboot, inputSvcInit, same] using
      (sound .dpadThr).valid.descending i j later
  · intro i
    have same := loaded .buttonMap
    simp only [Field.Same] at same
    simpa only [SettingsSys.rs, SettingsSys.reboot, inputSvcInit, same] using
      (sound .buttonMap).valid.mapped i
  · have same := loaded .clutchMode
    simp only [Field.Same] at same
    simpa only [SettingsSys.rs, SettingsSys.reboot, inputSvcInit, same] using
      (sound .clutchMode).valid.mode
  · have same := loaded .schema
    simp only [Field.Same] at same
    simpa only [SettingsSys.rs, SettingsSys.reboot, same] using (sound .schema).version

theorem settingsInv_step (inv : SettingsInv events s) {act : SettingsAct}
    {t : SettingsSys} {e : SettingsEvent} (stepped : s.step act = some (t, e)) :
    SettingsInv (events ++ [e]) t := by
  cases act with
  | input c =>
    cases stepped
    exact settingsInv_silent inv (fun f => lastSaved_snoc f events _) rfl
      ⟨inputCall_valid inv.sound.valid c, inv.sound.version⟩
  | tick x =>
    cases stepped
    exact settingsInv_silent inv (fun f => lastSaved_snoc f events _) rfl
      ⟨inputTick_valid inv.sound.valid x, inv.sound.version⟩
  | lock arg answer =>
    cases arg with
    | none =>
      cases stepped
      exact settingsInv_silent inv (fun f => lastSaved_snoc f events _) rfl inv.sound
    | some word =>
      simp only [SettingsSys.step, SettingsSys.cmdRimLock, Option.some.injEq] at stepped
      split at stepped
      · -- the lock itself is no part of the invariant
        have engaged : SettingsInv events { s with locked := word = "on" } :=
          ⟨⟨inv.sound.valid, inv.sound.version⟩, inv.saved, inv.stored⟩
        have committed := settingsInv_commit engaged "lock" answer
        rw [stepped] at committed
        exact committed
      · cases stepped
        exact settingsInv_silent inv (fun f => lastSaved_snoc f events _) rfl inv.sound
  | commit subtree answer =>
    simp only [SettingsSys.step, Option.some.injEq] at stepped
    have committed := settingsInv_commit inv subtree answer
    rw [stepped] at committed
    exact committed
  | reboot order levels =>
    simp only [SettingsSys.step] at stepped
    split at stepped
    next delivered =>
      cases stepped
      exact settingsInv_reboot inv delivered levels
    · cases stepped

end Steps

theorem settingsInv_start (levels : Fin 4 → AbLevel) :
    SettingsInv [] (settingsMachine levels).start :=
  ⟨⟨RimSettings.default_valid, rfl⟩, fun _ _ last => (by cases last), fun _ => rfl⟩

/-! ### Persistence -/

/-- **Persistence.** In every reachable state the settings are valid; a reboot leaves
every persisted field as it was at the last save of its key, or at its default; a
commit returns zero only if it saved every key of the subtree; and under the lock it
refuses every subtree but its own and leaves the store alone. -/
theorem settings_persist {levels : Fin 4 → AbLevel} {events : List SettingsEvent}
    {s : SettingsSys} (reached : (settingsMachine levels).Reaches events s) :
    s.svc.settings.Valid ∧
    (∀ order levels' t e, s.step (.reboot order levels') = some (t, e) →
      ∀ f : Field, f.Same t.rs ((lastSaved f events).getD .default)) ∧
    (∀ subtree answer, (rimSettingsCommit s.rs answer s.store subtree).2 = 0 →
      subtree ∈ ["cal", "map", "mode", "lock"] ∧
      ∀ f ∈ subtreeFields subtree, answer ("rim/" ++ f.key) = 0 ∧
        (rimSettingsCommit s.rs answer s.store subtree).1.lookup ("rim/" ++ f.key) =
          some (f.image s.rs)) ∧
    (s.locked = true → ∀ subtree answer, subtree ≠ "lock" →
      rimSettingsCommit s.rs answer s.store subtree = (s.store, -eacces)) := by
  have inv : SettingsInv events s := reached.induct (settingsInv_start levels)
    fun _ _ _ _ _ inv _ stepped => settingsInv_step inv stepped
  refine ⟨inv.sound.valid, fun order levels' t e stepped f => ?_, fun subtree answer zero => ?_,
    fun locked subtree answer other => ?_⟩
  · simp only [SettingsSys.step] at stepped
    split at stepped
    next delivered =>
      cases stepped
      exact settingsInv_reload inv delivered f
    · cases stepped
  · exact commit_zero s.rs answer s.store subtree zero
  · simp only [rimSettingsCommit, commitWrites, SettingsSys.rs, locked, other, ne_eq,
      not_false_eq_true, and_self, if_true]

/-- Map one button, save the map with the axis key failing, change the mode without
saving it, reboot. -/
theorem settings_persist_run : ∃ events s,
    (settingsMachine fun _ => ⟨false, false⟩).run
        (settingsMachine fun _ => ⟨false, false⟩).start
        [.input (.mapSet 0 22), .commit "map" fun key => if key = "rim/map/axis" then -5 else 0,
          .input (.clutchModeSet 1 40), .reboot ["schema", "map/encoder", "map/buttons"]
            fun _ => ⟨false, false⟩] = some (s, events) ∧
    s.svc.settings.buttonMap 0 = 22 ∧ s.svc.settings.clutchMode = 0 ∧ s.svc.settings.Valid := by
  have ran : ((settingsMachine fun _ => ⟨false, false⟩).run
      (settingsMachine fun _ => ⟨false, false⟩).start
      [.input (.mapSet 0 22), .commit "map" fun key => if key = "rim/map/axis" then -5 else 0,
        .input (.clutchModeSet 1 40), .reboot ["schema", "map/encoder", "map/buttons"]
          fun _ => ⟨false, false⟩]).map
      (fun (s, _) => (s.svc.settings.buttonMap 0, s.svc.settings.clutchMode)) = some (22, 0) := by
    decide +kernel
  obtain ⟨⟨s, events⟩, reached, fields⟩ := Option.map_eq_some_iff.mp ran
  simp only [Prod.mk.injEq] at fields
  exact ⟨events, s, reached, fields.1, fields.2, (settings_persist (Machine.reaches_of_run reached)).1⟩

end FanatecWheel.App
