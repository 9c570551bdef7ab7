import Mathlib.Data.List.Basic
import Mathlib.Data.List.Forall2
import Mathlib.Data.List.Induction

/-!
# Runs of state machines

Two kinds of machine. A *stepper* `σ → α → σ × ω` answers every action, so a run
is a list of actions. A `Machine` may refuse an action (`none`), so a run is a
derivation in which every action was enabled. Both record what the steps put
out, and each has one induction rule that relates the state to that record.
-/

namespace FanatecWheel.Foundation

variable {σ τ α β γ δ ω ω' : Type*}

/-- Whatever is recorded, the record up to there allowed it. -/
def Guarded (allowed : List ω → ω → Prop) (outs : List ω) : Prop :=
  ∀ before out after, outs = before ++ out :: after → allowed before out

theorem guarded_nil (allowed : List ω → ω → Prop) : Guarded allowed [] := by
  intro before out after split
  simp at split

theorem guarded_snoc {allowed : List ω → ω → Prop} {outs : List ω} {out : ω}
    (held : Guarded allowed outs) (last : allowed outs out) : Guarded allowed (outs ++ [out]) := by
  intro before x after split
  -- the split is either at the last output or before it
  rcases List.eq_nil_or_concat' after with rfl | ⟨rest, y, rfl⟩
  · obtain ⟨rfl, same⟩ := List.append_inj' split rfl
    cases same
    exact last
  · rw [← List.cons_append, ← List.append_assoc] at split
    exact held before x rest (List.append_inj' split rfl).1

theorem guarded_cons {allowed : List ω → ω → Prop} {out : ω} {rest : List ω} :
    Guarded allowed (out :: rest) ↔
      allowed [] out ∧ Guarded (fun before => allowed (out :: before)) rest := by
  constructor
  · intro held
    refine ⟨held [] out rest rfl, fun before x after split => ?_⟩
    exact held (out :: before) x after (by rw [split, List.cons_append])
  · rintro ⟨first, later⟩ before x after split
    cases before with
    | nil =>
      obtain ⟨rfl, rfl⟩ := List.cons.inj split
      exact first
    | cons y before =>
      obtain ⟨rfl, same⟩ := List.cons.inj split
      exact later before x after same

instance decidableGuarded : ∀ (allowed : List ω → ω → Prop)
    [∀ before out, Decidable (allowed before out)] (outs : List ω), Decidable (Guarded allowed outs)
  | allowed, _, [] => isTrue (guarded_nil allowed)
  | allowed, _, out :: rest =>
    have := decidableGuarded (fun before => allowed (out :: before)) rest
    decidable_of_iff _ guarded_cons.symm

/-! ### Neighbours in a list -/

/-- Every value with the one before it. -/
def successive (first : α) : List α → List (α × α)
  | [] => []
  | x :: rest => (first, x) :: successive x rest

theorem successive_append (first : α) (xs ys : List α) :
    successive first (xs ++ ys) = successive first xs ++ successive (xs.getLastD first) ys := by
  induction xs generalizing first with
  | nil => rfl
  | cons x rest ih => simp only [List.cons_append, successive, ih, List.getLastD_cons]

theorem successive_snoc (first : α) (xs : List α) (x : α) :
    successive first (xs ++ [x]) = successive first xs ++ [(xs.getLastD first, x)] :=
  successive_append first xs [x]

/-- The pairs of neighbours. -/
def neighbours : List α → List (α × α)
  | [] => []
  | x :: rest => successive x rest

theorem neighbours_snoc (xs : List α) (x : α) :
    neighbours (xs ++ [x]) = neighbours xs ++ xs.getLast?.toList.map fun last => (last, x) := by
  cases xs with
  | nil => rfl
  | cons y rest =>
    rw [List.cons_append, neighbours, successive_snoc, List.getLast?_cons,
      List.getLastD_eq_getLast?]
    rfl

/-- How many values differ from the one before. -/
def changes [DecidableEq α] (first : α) (xs : List α) : ℕ :=
  (successive first xs).countP fun pair => pair.1 ≠ pair.2

theorem changes_append [DecidableEq α] (first : α) (xs ys : List α) :
    changes first (xs ++ ys) = changes first xs + changes (xs.getLastD first) ys := by
  rw [changes, successive_append, List.countP_append]
  rfl

theorem changes_snoc [DecidableEq α] (first : α) (xs : List α) (x : α) :
    changes first (xs ++ [x]) = changes first xs + if x ≠ xs.getLastD first then 1 else 0 := by
  rw [changes_append]
  simp only [changes, successive, List.countP_singleton, decide_eq_true_eq, ne_comm]

/-- The value of the last two equal neighbours, `first` if there are none. -/
def lastRepeated [DecidableEq α] (first : α) (xs : List α) : α :=
  ((successive first xs).filter fun pair => pair.1 = pair.2).map Prod.snd |>.getLastD first

theorem lastRepeated_snoc [DecidableEq α] (first : α) (xs : List α) (x : α) :
    lastRepeated first (xs ++ [x]) =
      if x = xs.getLastD first then x else lastRepeated first xs := by
  rw [lastRepeated, successive_snoc, List.filter_append, List.map_append]
  split
  next same =>
    rw [List.filter_cons_of_pos (by simpa only [decide_eq_true_eq] using same.symm)]
    exact List.getLastD_concat
  next other =>
    rw [List.filter_cons_of_neg (by simpa only [decide_eq_true_eq] using Ne.symm other)]
    rw [List.filter_nil, List.map_nil, List.append_nil, lastRepeated]

section Stepper

variable (step : σ → α → σ × ω)

/-- The state after a list of actions. -/
def final (s : σ) (actions : List α) : σ :=
  actions.foldl (fun s a => (step s a).1) s

/-- What each action put out, in order. -/
def trace : σ → List α → List ω
  | _, [] => []
  | s, a :: rest => (step s a).2 :: trace (step s a).1 rest

/-- Every action of the run is taken in a state that admits it. -/
def Along (ok : σ → α → Prop) : σ → List α → Prop
  | _, [] => True
  | s, a :: rest => ok s a ∧ Along ok (step s a).1 rest

instance decidableAlong (ok : σ → α → Prop) [∀ s a, Decidable (ok s a)] :
    ∀ s actions, Decidable (Along step ok s actions)
  | _, [] => isTrue trivial
  | s, a :: rest =>
    have := decidableAlong ok (step s a).1 rest
    inferInstanceAs (Decidable (_ ∧ _))

theorem final_append (s : σ) (first second : List α) :
    final step s (first ++ second) = final step (final step s first) second := by
  simp only [final, List.foldl_append]

theorem final_snoc (s : σ) (actions : List α) (a : α) :
    final step s (actions ++ [a]) = (step (final step s actions) a).1 := by
  simp only [final, List.foldl_append, List.foldl_cons, List.foldl_nil]

theorem trace_append (s : σ) (first second : List α) :
    trace step s (first ++ second) =
      trace step s first ++ trace step (final step s first) second := by
  induction first generalizing s with
  | nil => rfl
  | cons a rest ih =>
    simp only [List.cons_append, trace, ih]
    rfl

theorem trace_snoc (s : σ) (actions : List α) (a : α) :
    trace step s (actions ++ [a]) =
      trace step s actions ++ [(step (final step s actions) a).2] := by
  rw [trace_append]
  rfl

/-- The equivalence rule: where an invariant holds, two conditions that agree admit the
same runs. -/
theorem along_congr {ok ok' : σ → α → Prop} {I : σ → Prop}
    (same : ∀ s a, I s → (ok s a ↔ ok' s a)) (next : ∀ s a, I s → I (step s a).1) {s : σ}
    (start : I s) (actions : List α) : Along step ok s actions ↔ Along step ok' s actions := by
  induction actions generalizing s with
  | nil => exact Iff.rfl
  | cons a rest ih => exact and_congr (same s a start) (ih (next s a start))

/-- The run rule: a property of the past actions, their outputs and the state
that holds at the start and survives every step holds of every run. -/
theorem run_induction {P : List α → List ω → σ → Prop} {s : σ} (start : P [] [] s)
    (next : ∀ past outs t a, P past outs t → P (past ++ [a]) (outs ++ [(step t a).2]) (step t a).1)
    (actions : List α) : P actions (trace step s actions) (final step s actions) := by
  induction actions using List.reverseRecOn with
  | nil => exact start
  | append_singleton past a ih =>
    rw [final_snoc, trace_snoc]
    exact next _ _ _ _ ih

/-- The invariant rule: a state property that survives every admitted action
survives a list of them. -/
theorem final_invariant {ok : α → Prop} {I : σ → Prop} {s : σ} (start : I s)
    (next : ∀ t a, ok a → I t → I (step t a).1) (actions : List α)
    (admitted : ∀ a ∈ actions, ok a) : I (final step s actions) := by
  induction actions generalizing s with
  | nil => exact start
  | cons a rest ih =>
    obtain ⟨first, later⟩ := List.forall_mem_cons.mp admitted
    exact ih (next s a first start) later

/-- The relational rule: steps that take related states and actions to related states and
outputs do so along two whole runs. -/
theorem trace_related {step : σ → α → σ × ω} {step' : τ → β → τ × ω'} {R : σ → τ → Prop}
    {A : α → β → Prop} {O : ω → ω' → Prop}
    (next : ∀ s t a b, R s t → A a b → O (step s a).2 (step' t b).2 ∧ R (step s a).1 (step' t b).1)
    {s : σ} {t : τ} (related : R s t) {actions : List α} {actions' : List β}
    (taken : List.Forall₂ A actions actions') :
    List.Forall₂ O (trace step s actions) (trace step' t actions') ∧
      R (final step s actions) (final step' t actions') := by
  induction taken generalizing s t with
  | nil => exact ⟨.nil, related⟩
  | cons first _ ih =>
    obtain ⟨put, kept⟩ := next s t _ _ related first
    obtain ⟨tail, last⟩ := ih kept
    exact ⟨.cons put tail, last⟩

/-- The observer rule: where the part of an output that is observed depends on the part of the
action that is observed and on related states only, two runs that look the same up to there go
on to look the same. -/
theorem trace_observed {step : σ → α → σ × ω} {step' : τ → β → τ × ω'} {R : σ → τ → Prop}
    {see : α → γ} {see' : β → γ} {view : ω → δ} {view' : ω' → δ}
    (next : ∀ s t a b, R s t → see a = see' b →
      view (step s a).2 = view' (step' t b).2 ∧ R (step s a).1 (step' t b).1)
    {s : σ} {t : τ} (related : R s t) {actions : List α} {actions' : List β}
    (same : actions.map see = actions'.map see') :
    (trace step s actions).map view = (trace step' t actions').map view' ∧
      R (final step s actions) (final step' t actions') := by
  have taken : List.Forall₂ (fun a b => see a = see' b) actions actions' := by
    have mapped := List.forall₂_eq_eq_eq ▸ same
    rwa [List.forall₂_map_left_iff, List.forall₂_map_right_iff] at mapped
  have both : List.Forall₂ (fun x y => view x = view' y) (trace step s actions)
      (trace step' t actions') ∧ R (final step s actions) (final step' t actions') :=
    trace_related next related taken
  refine ⟨?_, both.2⟩
  have put := both.1
  rwa [← List.forall₂_eq_eq_eq, List.forall₂_map_left_iff, List.forall₂_map_right_iff]

/-- The simulation rule: related states that put out the same and stay related
put out the same along every run. -/
theorem trace_eq_of_simulation {step : σ → α → σ × ω} {step' : τ → α → τ × ω}
    {R : σ → τ → Prop}
    (sim : ∀ s t a, R s t → (step s a).2 = (step' t a).2 ∧ R (step s a).1 (step' t a).1)
    {s : σ} {t : τ} (related : R s t) (actions : List α) :
    trace step s actions = trace step' t actions ∧
      R (final step s actions) (final step' t actions) := by
  induction actions generalizing s t with
  | nil => exact ⟨rfl, related⟩
  | cons a rest ih =>
    obtain ⟨same, kept⟩ := sim s t a related
    obtain ⟨tail, last⟩ := ih kept
    exact ⟨by simp only [trace, same, tail], last⟩

end Stepper

/-- A machine that may refuse an action in a state that does not enable it. -/
structure Machine (σ α ω : Type*) where
  start : σ
  step : σ → α → Option (σ × ω)

namespace Machine

variable (m : Machine σ α ω)

/-- The machine from another state on. -/
def startingAt (s : σ) : Machine σ α ω := { m with start := s }

/-- `m.ReachesBy ok outs s`: some run whose steps all meet `ok` ends in `s` and
put out `outs`. -/
inductive ReachesBy (ok : σ → α → Prop) : List ω → σ → Prop
  | start : ReachesBy ok [] m.start
  | next {outs : List ω} {s t : σ} {a : α} {out : ω} :
      ReachesBy ok outs s → ok s a → m.step s a = some (t, out) → ReachesBy ok (outs ++ [out]) t

/-- Some run ends in the state and put out the list. -/
def Reaches : List ω → σ → Prop := m.ReachesBy fun _ _ => True

/-- Execute a list of actions; `none` as soon as one is refused or does not meet
`ok`. -/
def runBy (ok : σ → α → Prop) [∀ s a, Decidable (ok s a)] : σ → List α → Option (σ × List ω)
  | s, [] => some (s, [])
  | s, a :: rest =>
    if ok s a then
      match m.step s a with
      | none => none
      | some (t, out) => (runBy ok t rest).map fun (u, outs) => (u, out :: outs)
    else none

/-- Execute a list of actions. -/
def run : σ → List α → Option (σ × List ω) := m.runBy fun _ _ => True

variable {m}

theorem ReachesBy.run_from {ok : σ → α → Prop} [∀ s a, Decidable (ok s a)] {outs before : List ω}
    {s t : σ} {actions : List α} (reached : m.ReachesBy ok before s)
    (ran : m.runBy ok s actions = some (t, outs)) : m.ReachesBy ok (before ++ outs) t := by
  induction actions generalizing s before outs with
  | nil =>
    simp only [runBy, Option.some.injEq, Prod.mk.injEq] at ran
    obtain ⟨rfl, rfl⟩ := ran
    simpa using reached
  | cons a rest ih =>
    simp only [runBy] at ran
    split at ran
    next admitted =>
      split at ran
      · cases ran
      -- the first action was taken: append its output to what was put out before
      next u out stepped =>
        simp only [Option.map_eq_some_iff, Prod.mk.injEq, Prod.exists] at ran
        obtain ⟨last, outs', tail, rfl, rfl⟩ := ran
        have moved := ReachesBy.next reached admitted stepped
        simpa using ih moved tail
    · cases ran

/-- An executed run is a run. -/
theorem reachesBy_of_run {ok : σ → α → Prop} [∀ s a, Decidable (ok s a)] {outs : List ω} {s : σ}
    {actions : List α} (ran : m.runBy ok m.start actions = some (s, outs)) :
    m.ReachesBy ok outs s := by
  have reached : m.ReachesBy ok ([] ++ outs) s := ReachesBy.run_from .start ran
  simpa using reached

theorem reaches_of_run {outs : List ω} {s : σ} {actions : List α}
    (ran : m.run m.start actions = some (s, outs)) : m.Reaches outs s := reachesBy_of_run ran

/-- A property of the outputs and the state that holds at the start and survives
every enabled step meeting `ok` holds of every run made of such steps. -/
theorem ReachesBy.induct {ok : σ → α → Prop} {P : List ω → σ → Prop} (start : P [] m.start)
    (next : ∀ outs s a t out, P outs s → ok s a → m.step s a = some (t, out) → P (outs ++ [out]) t)
    {outs : List ω} {s : σ} (reached : m.ReachesBy ok outs s) : P outs s := by
  induction reached with
  | start => exact start
  | next _ admitted stepped ih => exact next _ _ _ _ _ ih admitted stepped

/-- The projection rule: where every step is seen by a component as steps of its own, none or
several, every run is seen as a run of the component. -/
theorem ReachesBy.project {m' : Machine τ β ω'} {ok : σ → α → Prop} {ok' : τ → β → Prop}
    {f : σ → τ} {g : ω → List ω'} (start : f m.start = m'.start)
    (next : ∀ outs s a t out, m.ReachesBy ok outs s → ok s a → m.step s a = some (t, out) →
      m'.ReachesBy ok' (outs.flatMap g) (f s) → m'.ReachesBy ok' (outs.flatMap g ++ g out) (f t))
    {outs : List ω} {s : σ} (reached : m.ReachesBy ok outs s) :
    m'.ReachesBy ok' (outs.flatMap g) (f s) := by
  induction reached with
  | start => exact start ▸ .start
  | next before admitted stepped ih =>
    rw [List.flatMap_append, List.flatMap_singleton]
    exact next _ _ _ _ _ before admitted stepped ih

/-- The component took one step. -/
theorem ReachesBy.one {ok : σ → α → Prop} {outs seen : List ω} {s t : σ} {a : α} {out : ω}
    (reached : m.ReachesBy ok outs s) (admitted : ok s a) (stepped : m.step s a = some (t, out))
    (same : seen = [out]) : m.ReachesBy ok (outs ++ seen) t :=
  same ▸ reached.next admitted stepped

/-- The component took none. -/
theorem ReachesBy.stutter {ok : σ → α → Prop} {outs seen : List ω} {s t : σ}
    (reached : m.ReachesBy ok outs s) (same : t = s) (silent : seen = []) :
    m.ReachesBy ok (outs ++ seen) t := by
  rw [same, silent, List.append_nil]
  exact reached

end Machine

end FanatecWheel.Foundation
