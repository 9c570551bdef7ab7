import Mathlib.Data.List.Nodup

/-!
# Bounded message queues and work queues

The two kernel objects through which threads hand work over: a FIFO of bounded
depth, and a queue of work items of which one runs at a time. An item that is
submitted while it runs is queued once more; while it waits, not again.
-/

namespace FanatecWheel.Foundation

/-- A FIFO that holds at most `depth` messages. -/
structure MsgQ (α : Type*) (depth : ℕ) where
  items : List α
  bounded : items.length ≤ depth

namespace MsgQ

variable {α : Type*} {depth : ℕ}

def empty : MsgQ α depth := ⟨[], Nat.zero_le _⟩

/-- Append a message; refused when the queue is full. -/
def put (q : MsgQ α depth) (x : α) : Option (MsgQ α depth) :=
  if room : q.items.length < depth then
    some ⟨q.items ++ [x], by rw [List.length_append]; exact room⟩
  else none

/-- Remove the oldest message. -/
def get (q : MsgQ α depth) : Option (α × MsgQ α depth) :=
  match held : q.items with
  | [] => none
  | x :: rest => some (x, ⟨rest, by
      have bound := q.bounded
      rw [held, List.length_cons] at bound
      omega⟩)

theorem items_of_put {q r : MsgQ α depth} {x : α} (accepted : q.put x = some r) :
    r.items = q.items ++ [x] := by
  unfold put at accepted
  split at accepted
  · cases accepted
    rfl
  · cases accepted

theorem put_full {q : MsgQ α depth} {x : α} : q.put x = none ↔ q.items.length = depth := by
  have bound := q.bounded
  unfold put
  split
  · simp only [reduceCtorEq, false_iff]
    omega
  · simp only [true_iff]
    omega

theorem items_of_get {q r : MsgQ α depth} {x : α} (taken : q.get = some (x, r)) :
    q.items = x :: r.items := by
  unfold get at taken
  split at taken
  · cases taken
  next held =>
    simp only [Option.some.injEq, Prod.mk.injEq] at taken
    obtain ⟨rfl, rfl⟩ := taken
    exact held

theorem get_empty {q : MsgQ α depth} : q.get = none ↔ q.items = [] := by
  unfold get
  split
  next held => simp [held]
  next held => simp [held]

end MsgQ

/-- Work items waiting in submission order, and the one that runs. -/
structure WorkQ (ι : Type*) where
  pending : List ι
  running : Option ι
  unique : pending.Nodup

namespace WorkQ

variable {ι : Type*}

def empty : WorkQ ι := ⟨[], none, List.nodup_nil⟩

/-- The queue thread picks the item that waited longest. -/
def begin (q : WorkQ ι) : Option (ι × WorkQ ι) :=
  match q.running, held : q.pending with
  | none, i :: rest => some (i, ⟨rest, some i, by
      have unique := q.unique
      rw [held] at unique
      exact (List.nodup_cons.mp unique).2⟩)
  | _, _ => none

/-- The handler of the running item returned. -/
def finish (q : WorkQ ι) : WorkQ ι := { q with running := none }

/-- The item neither waits nor runs. -/
def Idle (q : WorkQ ι) (i : ι) : Prop := i ∉ q.pending ∧ q.running ≠ some i

theorem begin_some {q r : WorkQ ι} {i : ι} (started : q.begin = some (i, r)) :
    q.running = none ∧ q.pending = i :: r.pending ∧ r.running = some i := by
  unfold begin at started
  split at started
  next idle held =>
    simp only [Option.some.injEq, Prod.mk.injEq] at started
    obtain ⟨rfl, rfl⟩ := started
    exact ⟨idle, held, rfl⟩
  · cases started

@[simp] theorem pending_finish (q : WorkQ ι) : q.finish.pending = q.pending := rfl

@[simp] theorem running_finish (q : WorkQ ι) : q.finish.running = none := rfl

variable [DecidableEq ι]

instance (q : WorkQ ι) (i : ι) : Decidable (q.Idle i) :=
  inferInstanceAs (Decidable (_ ∧ _))

/-- Queue an item behind the others unless it already waits. -/
def submit (q : WorkQ ι) (i : ι) : WorkQ ι :=
  if waiting : i ∈ q.pending then q
  else ⟨q.pending ++ [i], q.running, by
    rw [List.nodup_append]
    refine ⟨q.unique, List.nodup_singleton i, fun a member b single same => waiting ?_⟩
    rw [List.mem_singleton] at single
    exact single ▸ same ▸ member⟩

theorem pending_submit (q : WorkQ ι) (i : ι) :
    (q.submit i).pending = if i ∈ q.pending then q.pending else q.pending ++ [i] := by
  unfold submit
  split <;> rfl

@[simp] theorem mem_submit (q : WorkQ ι) (i j : ι) :
    j ∈ (q.submit i).pending ↔ j ∈ q.pending ∨ j = i := by
  rw [pending_submit]
  -- an item that waits already is not queued twice
  split
  next waiting =>
    constructor
    · exact Or.inl
    · rintro (member | rfl)
      · exact member
      · exact waiting
  · simp

@[simp] theorem running_submit (q : WorkQ ι) (i : ι) : (q.submit i).running = q.running := by
  unfold submit
  split <;> rfl

end WorkQ

end FanatecWheel.Foundation
