import Mathlib.Algebra.Group.Basic
import Mathlib.Logic.Function.Basic
import FanatecWheel.Foundation.Words

/-!
# A double buffer is a latest-value mailbox

One side writes the staging buffer, the other swaps it in when it is fresh. Read
through `toMailbox`, the pair of buffers is a mailbox with one pending value and
one current value; the current one moves only when it is taken or replaced.
-/

namespace FanatecWheel.Foundation

/-- Two buffers, the index of the one that is handed out, and whether the other
one was written since the last swap. -/
structure DoubleBuffer (φ : Type*) where
  buf : Fin 2 → φ
  armed : Fin 2
  fresh : Bool

/-- The latest value posted and not yet taken, and the value last taken. -/
structure Mailbox (φ : Type*) where
  pending : Option φ
  current : φ

namespace Mailbox

variable {φ : Type*}

def post (m : Mailbox φ) (v : φ) : Mailbox φ := { m with pending := some v }

/-- Take the pending value if there is one. -/
def take (m : Mailbox φ) : Mailbox φ :=
  match m.pending with
  | some v => ⟨none, v⟩
  | none => m

def replace (m : Mailbox φ) (v : φ) : Mailbox φ := { m with current := v }

/-! ### Amounts

When the values are increments, a mailbox is no way to carry them: a second post
drops what waits, and a second take hands out the same again. -/

section Amounts

variable {M : Type*} [AddCommMonoid M] (amount : φ → M) (m : Mailbox φ)

/-- The amount posted and not yet taken. -/
def waiting : M := m.pending.elim 0 amount

/-- The amount that a take hands out for another time. -/
def repeated : M := m.pending.elim (amount m.current) fun _ => 0

theorem waiting_take : m.take.waiting amount = 0 := by
  unfold take
  split
  · rfl
  next empty => simp only [waiting, empty, Option.elim_none]

/-- A take hands out what waits, and when nothing does the last value again. -/
theorem amount_take : amount m.take.current = m.waiting amount + m.repeated amount := by
  unfold take
  split
  next v posted => simp only [waiting, repeated, posted, Option.elim_some, add_zero]
  next empty => simp only [waiting, repeated, empty, Option.elim_none, zero_add]

end Amounts

end Mailbox

namespace DoubleBuffer

variable {φ : Type*} (b : DoubleBuffer φ) (v : φ)

def staging : Fin 2 := 1 - b.armed

def write : DoubleBuffer φ :=
  { b with buf := Function.update b.buf b.staging v, fresh := true }

def swap : DoubleBuffer φ :=
  if b.fresh then { b with armed := b.staging, fresh := false } else b

/-- Overwrite the buffer that is handed out. -/
def rewrite : DoubleBuffer φ :=
  { b with buf := Function.update b.buf b.armed v }

def toMailbox : Mailbox φ :=
  ⟨if b.fresh then some (b.buf b.staging) else none, b.buf b.armed⟩

theorem armed_ne_staging : b.armed ≠ b.staging := by
  unfold staging
  generalize b.armed = i
  decide +revert

/-- Writing never touches the buffer that is handed out. -/
theorem write_armed : (b.write v).buf b.armed = b.buf b.armed := by
  simp only [write, Function.update_of_ne b.armed_ne_staging]

theorem toMailbox_write : (b.write v).toMailbox = b.toMailbox.post v := by
  have kept := b.write_armed v
  have staged : (b.write v).buf b.staging = v := by simp only [write, Function.update_self]
  change Mailbox.mk (some ((b.write v).buf b.staging)) ((b.write v).buf b.armed) = _
  rw [kept, staged]
  rfl

theorem toMailbox_swap : b.swap.toMailbox = b.toMailbox.take := by
  unfold swap
  split
  next ready => simp [toMailbox, Mailbox.take, ready]
  next idle => simp [toMailbox, Mailbox.take, idle]

theorem toMailbox_rewrite : (b.rewrite v).toMailbox = b.toMailbox.replace v := by
  have kept : (b.rewrite v).buf b.staging = b.buf b.staging := by
    simp only [rewrite, Function.update_of_ne b.armed_ne_staging.symm]
  have written : (b.rewrite v).buf b.armed = v := by simp only [rewrite, Function.update_self]
  change Mailbox.mk (if b.fresh then some ((b.rewrite v).buf b.staging) else none)
    ((b.rewrite v).buf b.armed) = _
  rw [kept, written]
  rfl

end DoubleBuffer

end FanatecWheel.Foundation
