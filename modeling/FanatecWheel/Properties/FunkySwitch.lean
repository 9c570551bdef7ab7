import FanatecWheel.App.Switches
import FanatecWheel.Foundation.Counter
import FanatecWheel.Foundation.Trace

/-!
# The two channels of the funky switch

The direction contacts and the push contact go through two debounces that share a record and
nothing else. What the decoder shows of the directions is a function of the last two equal
masks, with a fault for every episode of opposite contacts.
-/

namespace FanatecWheel.App

open Foundation

/-- What the decoder shows of the direction contacts. -/
structure DirOutput where
  dir : FunkyDir
  fault : Bool
  faultCount : U32
deriving DecidableEq

def dirOutput (f : Funky) : DirOutput := ⟨funkyDirGet f, f.fault, f.faultCount⟩

/-- One sample of the contacts, with what the decoder shows after it. -/
def funkyStep (f : Funky) (sample : U8 × Bool) : Funky × (DirOutput × Bool) :=
  let f := funkyFeed f sample.1 sample.2
  (f, (dirOutput f, funkyPushGet f))

/-- The four contacts of a mask. -/
def contacts (mask : U8) : U8 := mask &&& 0x0F

/-- The contacts of the last two equal masks, none before. -/
def stableMask (masks : List U8) : U8 := lastRepeated 0 (masks.map contacts)

/-- How often the flag has gone up. -/
def rises (flags : List Bool) : ℕ := (successive false flags).count (false, true)

/-- The contact of a direction is the only one that is closed. -/
def SingleContact (mask : U8) : Prop :=
  mask = funkyMUp ∨ mask = funkyMDown ∨ mask = funkyMLeft ∨ mask = funkyMRight

/-- Every contact of the set is closed. -/
def Closed (mask contacts : U8) : Prop := mask &&& contacts = contacts

/-! ### The directions of one mask -/

theorem oppositeChord_iff (mask : U8) :
    oppositeChord mask = true ↔
      Closed mask (funkyMUp ||| funkyMDown) ∨ Closed mask (funkyMLeft ||| funkyMRight) := by
  simp only [oppositeChord, Closed, decide_eq_true_eq, Bool.decide_or, Bool.or_eq_true]

theorem oppositeChord_none : oppositeChord 0 = false := by decide

/-- A direction is shown for one contact and for nothing else. -/
theorem funkyDirGet_ne_idle {f : Funky} (flag : f.fault = oppositeChord f.dirStable) :
    funkyDirGet f ≠ .idle ↔ SingleContact f.dirStable := by
  unfold funkyDirGet
  rw [flag]
  constructor
  · intro shown
    unfold SingleContact
    split at shown
    · exact absurd rfl shown
    · grind
  · rintro (up | down | left | right)
    · rw [up]
      decide
    · rw [down]
      decide
    · rw [left]
      decide
    · rw [right]
      decide

/-! ### The channels do not meet -/

/-- The two decoders agree on all that comes from the direction contacts. -/
structure SameDirections (f g : Funky) : Prop where
  rawPrev : f.dirRawPrev = g.dirRawPrev
  stable : f.dirStable = g.dirStable
  fault : f.fault = g.fault
  count : f.faultCount = g.faultCount

private theorem funkyFeed_directions {f g : Funky} (same : SameDirections f g) (mask : U8)
    (push push' : Bool) : SameDirections (funkyFeed f mask push) (funkyFeed g mask push') := by
  obtain ⟨rawPrev, stable, fault, count⟩ := same
  constructor
  · rfl
  · simp only [funkyFeed, rawPrev, stable]
  · simp only [funkyFeed, rawPrev, stable]
  · simp only [funkyFeed, rawPrev, stable, fault, count]

private theorem dirOutput_congr {f g : Funky} (same : SameDirections f g) :
    dirOutput f = dirOutput g := by
  obtain ⟨_, stable, fault, count⟩ := same
  simp only [dirOutput, funkyDirGet, stable, fault, count]

/-- Streams with the same masks show the same directions, faults and counts. -/
theorem directions_of_masks {samples samples' : List (U8 × Bool)}
    (masks : samples.map Prod.fst = samples'.map Prod.fst) :
    (trace funkyStep funkyInit samples).map Prod.fst =
      (trace funkyStep funkyInit samples').map Prod.fst := by
  have next (f g : Funky) (s s' : U8 × Bool) (same : SameDirections f g) (mask : s.1 = s'.1) :
      dirOutput (funkyFeed f s.1 s.2) = dirOutput (funkyFeed g s'.1 s'.2) ∧
        SameDirections (funkyFeed f s.1 s.2) (funkyFeed g s'.1 s'.2) := by
    have kept := funkyFeed_directions same s.1 s.2 s'.2
    rw [← mask]
    exact ⟨dirOutput_congr kept, kept⟩
  exact (trace_observed next ⟨rfl, rfl, rfl, rfl⟩ masks).1

/-- The debounce of the push contact alone. -/
def pushDebounce (f : Funky) : Debounce := ⟨f.pushStable, f.pushRawPrev⟩

/-- The push output is that of a debounce of its own. -/
theorem push_debounced (samples : List (U8 × Bool)) :
    (trace funkyStep funkyInit samples).map Prod.snd =
      trace debounceFeed ⟨false, false⟩ (samples.map Prod.snd) := by
  have next (f : Funky) (d : Debounce) (s : U8 × Bool) (push : Bool) (same : pushDebounce f = d)
      (fed : s.2 = id push) :
      (funkyStep f s).2.2 = id (debounceFeed d push).2 ∧
        pushDebounce (funkyStep f s).1 = (debounceFeed d push).1 := by
    subst same fed
    exact ⟨rfl, rfl⟩
  have start : pushDebounce funkyInit = ⟨false, false⟩ := rfl
  have observed := (trace_observed next start (List.map_id (samples.map Prod.snd)).symm).1
  rwa [List.map_id] at observed

/-- Streams with the same pushes show the same push. -/
theorem push_of_pushes {samples samples' : List (U8 × Bool)}
    (pushes : samples.map Prod.snd = samples'.map Prod.snd) :
    (trace funkyStep funkyInit samples).map Prod.snd =
      (trace funkyStep funkyInit samples').map Prod.snd := by
  rw [push_debounced, push_debounced, pushes]

/-! ### The directions as a function of the masks -/

theorem rises_snoc (flags : List Bool) (flag : Bool) :
    rises (flags ++ [flag]) = rises flags + if flag && !flags.getLastD false then 1 else 0 := by
  rw [rises, successive_snoc, List.count_append, List.count_singleton, rises]
  cases flag <;> cases flags.getLastD false <;> rfl

/-- The fault flag after each sample. -/
def faults (outs : List (DirOutput × Bool)) : List Bool := outs.map fun out => out.1.fault

/-- What the samples and the outputs so far say of the decoder. -/
structure FunkyHistory (samples : List (U8 × Bool)) (outs : List (DirOutput × Bool)) (f : Funky) :
    Prop where
  rawPrev : f.dirRawPrev = ((samples.map Prod.fst).map contacts).getLastD 0
  stable : f.dirStable = stableMask (samples.map Prod.fst)
  flag : f.fault = oppositeChord f.dirStable
  shown : f.fault = (faults outs).getLastD false
  count : f.faultCount = BitVec.ofNat 32 (rises (faults outs))

private theorem funkyHistory_step {samples : List (U8 × Bool)} {outs : List (DirOutput × Bool)}
    {f : Funky} (history : FunkyHistory samples outs f) (s : U8 × Bool) :
    FunkyHistory (samples ++ [s]) (outs ++ [(funkyStep f s).2]) (funkyStep f s).1 := by
  have shown : faults (outs ++ [(funkyStep f s).2]) =
      faults outs ++ [(funkyStep f s).1.fault] := by
    rw [faults, List.map_append]
    rfl
  constructor
  · rw [List.map_append, List.map_append]
    exact List.getLastD_concat.symm
  · rw [stableMask, List.map_append, List.map_append, List.map_singleton, List.map_singleton,
      lastRepeated_snoc, ← history.rawPrev]
    -- the code also asks for a change, without which the new value is the old one
    have held : lastRepeated 0 ((samples.map Prod.fst).map contacts) = f.dirStable :=
      history.stable.symm
    rw [held]
    change (if contacts s.1 = f.dirRawPrev ∧ contacts s.1 ≠ f.dirStable then contacts s.1
      else f.dirStable) = _
    grind
  · rfl
  · rw [shown]
    exact List.getLastD_concat.symm
  · rw [shown, rises_snoc, ← history.shown]
    change (if (funkyStep f s).1.fault && !f.fault then f.faultCount + 1 else f.faultCount) = _
    rw [history.count]
    split
    next => exact (count_succ _).symm
    next => rw [Nat.add_zero]

theorem funky_history (samples : List (U8 × Bool)) :
    FunkyHistory samples (trace funkyStep funkyInit samples)
      (final funkyStep funkyInit samples) := by
  have start : FunkyHistory [] [] funkyInit := ⟨rfl, rfl, oppositeChord_none.symm, rfl, rfl⟩
  exact run_induction funkyStep start (fun _ _ _ s history => funkyHistory_step history s) samples

/-- The two channels of the switch are independent, and each is a function of its stream: the
push is debounced, a direction is the only contact of the last two equal masks, and the fault
count is the number of the fault's episodes, modulo the width of the counter. -/
theorem funky_channels (samples : List (U8 × Bool)) :
    let outs := trace funkyStep funkyInit samples
    let f := final funkyStep funkyInit samples
    let mask := stableMask (samples.map Prod.fst)
    (∀ other : List (U8 × Bool), other.map Prod.fst = samples.map Prod.fst →
      (trace funkyStep funkyInit other).map Prod.fst = outs.map Prod.fst) ∧
    (∀ other : List (U8 × Bool), other.map Prod.snd = samples.map Prod.snd →
      (trace funkyStep funkyInit other).map Prod.snd = outs.map Prod.snd) ∧
    outs.map Prod.snd = trace debounceFeed ⟨false, false⟩ (samples.map Prod.snd) ∧
    f.dirStable = mask ∧
    (funkyDirGet f ≠ .idle → SingleContact mask) ∧
    (Closed mask (funkyMUp ||| funkyMDown) ∨ Closed mask (funkyMLeft ||| funkyMRight) →
      funkyDirGet f = .idle ∧ f.fault = true) ∧
    f.faultCount = BitVec.ofNat 32 (rises (faults outs)) := by
  intro outs f mask
  have history : FunkyHistory samples outs f := funky_history samples
  have stable : f.dirStable = mask := history.stable
  refine ⟨fun other same => directions_of_masks same, fun other same => push_of_pushes same,
    push_debounced samples, stable, ?_, ?_, history.count⟩
  · intro shown
    rw [← stable]
    exact (funkyDirGet_ne_idle history.flag).mp shown
  · intro opposite
    rw [← stable, ← oppositeChord_iff] at opposite
    have fault : f.fault = true := by rw [history.flag, opposite]
    exact ⟨if_pos fault, fault⟩

/-! ### The counter wraps -/

/-- Two samples of the contacts up and down, then two without contact. -/
def chordEpisode : List (U8 × Bool) := [(3, false), (3, false), (0, false), (0, false)]

/-- The idle decoder after some faults. -/
private def quietFunky (count : U32) : Funky := { funkyInit with faultCount := count }

private theorem final_chordEpisode (count : U32) :
    final funkyStep (quietFunky count) chordEpisode = quietFunky (count + 1) := by
  simp [final, chordEpisode, funkyStep, funkyFeed, quietFunky, funkyInit, oppositeChord, funkyMUp,
    funkyMDown, funkyMLeft, funkyMRight]

private theorem faults_chordEpisode (count : U32) :
    faults (trace funkyStep (quietFunky count) chordEpisode) = [false, true, true, false] := by
  simp [faults, trace, chordEpisode, funkyStep, funkyFeed, quietFunky, funkyInit, oppositeChord,
    dirOutput, funkyMUp, funkyMDown, funkyMLeft, funkyMRight]

private theorem faults_episodes (n : ℕ) (count : U32) :
    faults (trace funkyStep (quietFunky count) (List.replicate n chordEpisode).flatten) =
      (List.replicate n [false, true, true, false]).flatten := by
  induction n generalizing count with
  | zero => rfl
  | succ n ih =>
    rw [List.replicate_succ, List.flatten_cons, trace_append, final_chordEpisode, faults,
      List.map_append]
    rw [← faults, ← faults, ih, faults_chordEpisode, List.replicate_succ, List.flatten_cons]

private theorem rises_episodes (n : ℕ) :
    rises (List.replicate n [false, true, true, false]).flatten = n := by
  induction n with
  | zero => rfl
  | succ n ih =>
    rw [List.replicate_succ, List.flatten_cons, rises, successive_append, List.count_append]
    exact (congrArg (1 + ·) ih).trans (Nat.add_comm 1 n)

/-- After 2^32 episodes of a fault the count is back at zero. -/
theorem faultCount_wraps :
    let samples := (List.replicate (2 ^ 32) chordEpisode).flatten
    (final funkyStep funkyInit samples).faultCount.toNat = 0 ∧
      rises (faults (trace funkyStep funkyInit samples)) = 2 ^ 32 := by
  intro samples
  have episodes : rises (faults (trace funkyStep funkyInit samples)) = 2 ^ 32 := by
    have start : funkyInit = quietFunky 0 := rfl
    rw [start, faults_episodes, rises_episodes]
  refine ⟨?_, episodes⟩
  rw [(funky_history samples).count, episodes, BitVec.toNat_ofNat, Nat.mod_self]

end FanatecWheel.App
