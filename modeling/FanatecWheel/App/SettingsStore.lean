import Mathlib.Data.List.AList
import FanatecWheel.App.RimSettings

/-!
# Settings in the key/value store

`app/src/rim_settings.c`: the writer, `rim_settings_commit`, and the reader,
`rim_set`, are two lists of keys. The settings backend is a map from keys to the
bytes saved under them; each `settings_save_one` writes its key or fails and
leaves it. Objects are saved as they lie in memory, lowest byte first.
-/

namespace FanatecWheel.App

/-- `RIM_SETTINGS_SCHEMA_VERSION`. -/
def schemaVersion : U8 := 2

/-- The static `rs`: the settings, their schema version and the config lock. -/
structure Rs extends RimSettings where
  schema : U8
  locked : Bool

/-- The initialiser of `rs`. -/
def Rs.default : Rs := { RimSettings.default with schema := schemaVersion, locked := false }

def enoent : I32 := 2

def eacces : I32 := 13

def einval : I32 := 22

/-! ### Objects as bytes -/

def wordImage (v : U16) : List U8 := [v.setWidth 8, (v >>> 8).setWidth 8]

def wordOf (lo hi : U8) : U16 := lo.setWidth 16 ||| hi.setWidth 16 <<< 8

/-- `struct clutch_cal`, with the byte that pads it. -/
def clutchCalImage (cal : ClutchCal) : List U8 :=
  wordImage cal.min ++ wordImage cal.max ++ wordImage cal.guard ++ [cal.deadzone, 0]

def byteAt (image : List U8) (i : ℕ) : U8 := image[i]?.getD 0

/-- The `struct clutch_cal` at an offset. -/
def clutchCalOf (image : List U8) (offset : ℕ) : ClutchCal where
  min := wordOf (byteAt image offset) (byteAt image (offset + 1))
  max := wordOf (byteAt image (offset + 2)) (byteAt image (offset + 3))
  guard := wordOf (byteAt image (offset + 4)) (byteAt image (offset + 5))
  deadzone := byteAt image (offset + 6)

def clutchCalsImage (cal : Fin 2 → ClutchCal) : List U8 :=
  clutchCalImage (cal 0) ++ clutchCalImage (cal 1)

def wordsImage (thr : Fin 7 → U16) : List U8 := (List.ofFn thr).flatMap wordImage

/-! ### Saving -/

/-- The settings backend. -/
abbrev Store := AList fun _ : String => List U8

/-- `settings_save_one` with what the backend answers for the key; zero is success. -/
def settingsSaveOne (answer : String → I32) (store : Store) (key : String) (image : List U8) :
    Store × I32 :=
  if answer key = 0 then (store.insert key image, 0) else (store, answer key)

/-- `ret |= settings_save_one(..)`. -/
def saveNext (answer : String → I32) (sofar : Store × I32) (write : String × List U8) :
    Store × I32 :=
  let saved := settingsSaveOne answer sofar.1 write.1 write.2
  (saved.1, sofar.2 ||| saved.2)

def saveAll (answer : String → I32) (store : Store) (writes : List (String × List U8)) :
    Store × I32 :=
  writes.foldl (saveNext answer) (store, 0)

/-- What `rim_settings_commit` saves, in its order, or the error it returns at once. -/
def commitWrites (rs : Rs) (subtree : String) : Except I32 (List (String × List U8)) :=
  let schema : List (String × List U8) := [("rim/schema", [rs.schema])]
  if rs.locked ∧ subtree ≠ "lock" then .error (-eacces)
  else if subtree = "cal" then .ok ([
    ("rim/cal/clutch", clutchCalsImage rs.clutchCal),
    ("rim/cal/dpad_thr", wordsImage rs.dpadThr),
    ("rim/cal/dpad_hyst", wordImage rs.dpadHyst)] ++ schema)
  else if subtree = "map" then .ok ([
    ("rim/map/buttons", List.ofFn rs.buttonMap),
    ("rim/map/encoder", [rs.encoderSel]),
    ("rim/map/axis", [rs.axisMap])] ++ schema)
  else if subtree = "mode" then .ok ([
    ("rim/mode/clutch", [rs.clutchMode]),
    ("rim/mode/bite", [rs.bitePoint])] ++ schema)
  else if subtree = "lock" then .ok ([("rim/lock", [if rs.locked then 1 else 0])] ++ schema)
  else .error (-einval)

def rimSettingsCommit (rs : Rs) (answer : String → I32) (store : Store) (subtree : String) :
    Store × I32 :=
  match commitWrites rs subtree with
  | .error ret => (store, ret)
  | .ok writes => saveAll answer store writes

/-! ### Loading -/

/-- `migrate`: a stub that only sets the version. -/
def migrate (rs : Rs) : Rs := { rs with schema := schemaVersion }

/-- `LOAD`: the destination is written when the length fits; a stored value can be
read. -/
def load (image : List U8) (size : ℕ) (rs loaded : Rs) : Rs × I32 :=
  if image.length = size then (loaded, 0) else (rs, -enoent)

/-- `rim_set`, called with what follows `rim/` in the key. -/
def rimSet (rs : Rs) (key : String) (image : List U8) : Rs × I32 :=
  if key = "schema" then
    load image 1 rs (if byteAt image 0 ≠ schemaVersion then migrate rs else rs)
  else if key = "cal/clutch" then
    load image 16 rs { rs with clutchCal := fun ch => clutchCalOf image (8 * ch) }
  else if key = "cal/dpad_thr" then
    load image 14 rs { rs with
      dpadThr := fun i => wordOf (byteAt image (2 * i)) (byteAt image (2 * i + 1)) }
  else if key = "cal/dpad_hyst" then
    load image 2 rs { rs with dpadHyst := wordOf (byteAt image 0) (byteAt image 1) }
  else if key = "map/buttons" then
    load image 6 rs { rs with buttonMap := fun i => byteAt image i }
  else if key = "map/encoder" then load image 1 rs { rs with encoderSel := byteAt image 0 }
  else if key = "map/axis" then load image 1 rs { rs with axisMap := byteAt image 0 }
  else if key = "mode/clutch" then load image 1 rs { rs with clutchMode := byteAt image 0 }
  else if key = "mode/bite" then load image 1 rs { rs with bitePoint := byteAt image 0 }
  else if key = "lock" then load image 1 rs { rs with locked := byteAt image 0 ≠ 0 }
  else (rs, -enoent)

/-- The handler's call for one stored key. -/
def loadKey (store : Store) (rs : Rs) (key : String) : Rs :=
  match store.lookup ("rim/" ++ key) with
  | some image => (rimSet rs key image).1
  | none => rs

/-- `settings_load_subtree("rim")`, in the order in which the backend delivers the
keys. -/
def settingsLoadSubtree (store : Store) (order : List String) (rs : Rs) : Rs :=
  order.foldl (loadKey store) rs

end FanatecWheel.App
