import Mathlib.Tactic.FinCases
import FanatecWheel.App.Clutch
import FanatecWheel.Foundation.Trace

/-!
# The launch hold of the dual clutch

The paddle pulled first is the master, and while the second paddle is pulled too the
output is that of the master, but not below the bite point. A master at or below the
active threshold counts as released, and the second paddle takes its place.
-/

namespace FanatecWheel.App

open Foundation

/-- One call with the values of the two paddles. -/
def combineStep (d : DualClutch) (c : Bytes 2) : DualClutch × U8 :=
  dualClutchCombine d (c 0) (c 1)

/-- The larger of the paddle's value and the bite point. -/
def launchOutput (m : Fin 2) (bite : U8) (c : Bytes 2) : U8 := if bite < c m then c m else bite

/-- The other paddle. -/
def otherPaddle (m : Fin 2) : Fin 2 := 1 - m

/-- The paddle is above the active threshold in every call. -/
def Pulled (m : Fin 2) (calls : List (Bytes 2)) : Prop := ∀ c ∈ calls, paddleActiveThr < c m

instance decidablePulled (m : Fin 2) (calls : List (Bytes 2)) : Decidable (Pulled m calls) :=
  decidable_of_iff (calls.all fun c => paddleActiveThr < c m) (by simp [Pulled])

/-- The launch output in a call during the hold: the first paddle was above the threshold from
the beginning of the hold, or the values of the two paddles leave no difference. -/
def LaunchKept (m : Fin 2) (bite : U8) (before : List (Bytes 2)) (c : Bytes 2) : Prop :=
  if paddleActiveThr < c m then
    Pulled m before ∨ launchOutput (otherPaddle m) bite c = launchOutput m bite c
  else c (otherPaddle m) = launchOutput m bite c

instance (m : Fin 2) (bite : U8) (before : List (Bytes 2)) (c : Bytes 2) :
    Decidable (LaunchKept m bite before c) :=
  inferInstanceAs (Decidable (if paddleActiveThr < c m then _ ∨ _ else _))

/-! ### One call -/

/-- Past the modes that do not combine. -/
private theorem combineStep_bite {d : DualClutch} (mode : d.mode = clutchModeBite) (c : Bytes 2) :
    combineStep d c =
      if paddleActiveThr < c 0 ∧ paddleActiveThr < c 1 then
        ({ d with launch := true }, launchOutput d.master d.bitePoint c)
      else if paddleActiveThr < c 0 then ({ d with master := 0, launch := false }, c 0)
      else if paddleActiveThr < c 1 then ({ d with master := 1, launch := false }, c 1)
      else ({ d with launch := false }, 0) := by
  have axes : ¬ d.mode = clutchModeAxes := by
    rw [mode]
    decide
  have mapped : ¬ d.mode = clutchModeMapped := by
    rw [mode]
    decide
  have master : (if d.master = 0 then c 0 else c 1) = c d.master := by
    rcases Fin.exists_fin_two.mp ⟨d.master, rfl⟩ with first | second
    · rw [first, if_pos rfl]
    · rw [second, if_neg (by decide)]
  simp only [combineStep, dualClutchCombine, if_neg axes, if_neg mapped, master, launchOutput]
  by_cases first : paddleActiveThr < c 0 <;> by_cases second : paddleActiveThr < c 1 <;>
    simp [first, second]

/-- One paddle is pulled alone and becomes the master. -/
theorem combineStep_alone {d : DualClutch} (mode : d.mode = clutchModeBite) {m : Fin 2}
    {c : Bytes 2} (pulled : paddleActiveThr < c m)
    (released : ¬ paddleActiveThr < c (otherPaddle m)) :
    combineStep d c = ({ d with master := m, launch := false }, c m) := by
  rw [combineStep_bite mode]
  fin_cases m
  · have second : ¬ paddleActiveThr < c 1 := released
    simp only [second, and_false, if_false]
    exact if_pos pulled
  · have first : ¬ paddleActiveThr < c 0 := released
    simp only [first, false_and, if_false]
    exact if_pos pulled

/-- Both paddles are pulled: the master decides. -/
theorem combineStep_both {d : DualClutch} (mode : d.mode = clutchModeBite) {m : Fin 2}
    {c : Bytes 2} (pulled : paddleActiveThr < c m)
    (second : paddleActiveThr < c (otherPaddle m)) :
    combineStep d c = ({ d with launch := true }, launchOutput d.master d.bitePoint c) := by
  have both : paddleActiveThr < c 0 ∧ paddleActiveThr < c 1 := by
    fin_cases m
    · exact ⟨pulled, second⟩
    · exact ⟨second, pulled⟩
  rw [combineStep_bite mode, if_pos both]

/-! ### The hold -/

private theorem otherPaddle_other (m : Fin 2) : otherPaddle (otherPaddle m) = m := by
  fin_cases m <;> rfl

/-- The master after the calls of a hold: the first paddle, until it drops. -/
def masterAfter (m : Fin 2) (before : List (Bytes 2)) : Fin 2 :=
  if Pulled m before then m else otherPaddle m

private theorem masterAfter_snoc (m : Fin 2) (before : List (Bytes 2)) (c : Bytes 2) :
    masterAfter m (before ++ [c]) =
      if paddleActiveThr < c m then masterAfter m before else otherPaddle m := by
  have last : Pulled m (before ++ [c]) ↔ Pulled m before ∧ paddleActiveThr < c m := by
    simp only [Pulled, List.forall_mem_append, List.forall_mem_singleton]
  simp only [masterAfter, last]
  by_cases pulled : paddleActiveThr < c m
  · simp only [pulled, and_true, if_true]
  · simp only [pulled, and_false, if_false]

/-- The state during a hold that began with `m` as the master. -/
structure Holding (m : Fin 2) (bite : U8) (before : List (Bytes 2)) (d : DualClutch) : Prop where
  mode : d.mode = clutchModeBite
  bitePoint : d.bitePoint = bite
  master : d.master = masterAfter m before

private theorem holding_step {m : Fin 2} {bite : U8} {before : List (Bytes 2)} {d : DualClutch}
    (holding : Holding m bite before d) {c : Bytes 2}
    (pulled : paddleActiveThr < c (otherPaddle m)) :
    Holding m bite (before ++ [c]) (combineStep d c).1 ∧
      ((combineStep d c).2 = launchOutput m bite c ↔ LaunchKept m bite before c) := by
  by_cases first : paddleActiveThr < c m
  · have both := combineStep_both holding.mode first pulled
    have master : masterAfter m (before ++ [c]) = masterAfter m before := by
      rw [masterAfter_snoc, if_pos first]
    rw [both, holding.bitePoint, holding.master]
    refine ⟨⟨holding.mode, rfl, master.symm⟩, ?_⟩
    rw [LaunchKept, if_pos first, masterAfter]
    -- once the first paddle has dropped the other stays the master
    by_cases since : Pulled m before
    · simp only [if_pos since]
      exact iff_of_true trivial (.inl since)
    · simp only [if_neg since]
      exact ⟨.inr, fun kept => kept.resolve_left since⟩
  · -- the second paddle is alone and takes over
    have alone := combineStep_alone holding.mode pulled
      (by rw [otherPaddle_other]; exact first)
    have master : masterAfter m (before ++ [c]) = otherPaddle m := by
      rw [masterAfter_snoc, if_neg first]
    rw [alone, LaunchKept, if_neg first]
    exact ⟨⟨holding.mode, holding.bitePoint, master.symm⟩, Iff.rfl⟩

private theorem holding_trace {m : Fin 2} {bite : U8} {before : List (Bytes 2)} {d : DualClutch}
    (holding : Holding m bite before d) {hold : List (Bytes 2)}
    (pulled : Pulled (otherPaddle m) hold) :
    trace combineStep d hold = hold.map (launchOutput m bite) ↔
      Guarded (fun since => LaunchKept m bite (before ++ since)) hold := by
  induction hold generalizing before d with
  | nil => exact iff_of_true rfl (guarded_nil _)
  | cons c rest ih =>
    obtain ⟨here, later⟩ := List.forall_mem_cons.mp pulled
    obtain ⟨held, output⟩ := holding_step holding here
    have tail := ih held later
    simp only [List.append_assoc, List.singleton_append] at tail
    rw [guarded_cons, List.append_nil, ← output, ← tail, trace, List.map_cons, List.cons.injEq]

private def InBite (bite : U8) (d : DualClutch) : Prop :=
  d.mode = clutchModeBite ∧ d.bitePoint = bite

private theorem inBite_step {bite : U8} {d : DualClutch} (kept : InBite bite d) (c : Bytes 2) :
    InBite bite (combineStep d c).1 := by
  rw [combineStep_bite kept.1]
  split
  · exact kept
  · split
    · exact kept
    · split <;> exact kept

/-- **The launch hold.** With the first paddle pulled alone before it, a hold of the second
paddle gives the larger of the first paddle and the bite point in every call, exactly when
every call keeps the launch. -/
theorem launch_held (bite : U8) (past : List (Bytes 2)) (m : Fin 2) (last : Bytes 2)
    (first : paddleActiveThr < last m ∧ ¬ paddleActiveThr < last (otherPaddle m))
    (hold : List (Bytes 2)) (pulled : Pulled (otherPaddle m) hold) :
    trace combineStep (final combineStep (dualClutchInit clutchModeBite bite) (past ++ [last])) hold =
        hold.map (launchOutput m bite) ↔
      Guarded (LaunchKept m bite) hold := by
  have start : InBite bite (dualClutchInit clutchModeBite bite) := ⟨rfl, rfl⟩
  have before := final_invariant combineStep start
    (fun d c (_ : True) (kept : InBite bite d) => inBite_step kept c) past fun _ _ => trivial
  have alone := combineStep_alone before.1 first.1 first.2
  have holding : Holding m bite []
      (final combineStep (dualClutchInit clutchModeBite bite) (past ++ [last])) := by
    rw [final_snoc, alone]
    exact ⟨before.1, before.2, (if_pos fun _ member => nomatch member).symm⟩
  exact holding_trace holding pulled

/-- The first paddle let go to 40. -/
theorem launch_held_partly :
    trace combineStep (final combineStep (dualClutchInit clutchModeBite 100) [![255, 0]])
      [![255, 255], ![40, 255]] = [255, 100] :=
  (launch_held 100 [] 0 ![255, 0] (by decide) [![255, 255], ![40, 255]] (by decide)).mpr (by decide)

/-- The first paddle let go to 20: the clutch is thrown out instead of held at the bite point. -/
theorem launch_lost :
    trace combineStep (final combineStep (dualClutchInit clutchModeBite 100) [![255, 0]])
        [![255, 255], ![20, 255]] = [255, 255] ∧
      [![255, 255], ![20, 255]].map (launchOutput 0 100) = [255, 100] := by
  decide

end FanatecWheel.App
