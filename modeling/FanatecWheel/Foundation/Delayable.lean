import Mathlib.Algebra.Order.Ring.Int
import Mathlib.Data.Fintype.Defs
import Mathlib.Logic.Function.Basic

/-!
# Delayable work on one queue

A clock and, for each item of work, the deadline it waits for. Scheduling an item
again replaces its deadline. Time does not pass a deadline, so that an item runs
exactly when it is due; that no deadline lies in the past is a field of the queue.
-/

namespace FanatecWheel.Foundation

structure Delayable (ι : Type*) where
  now : ℤ
  due : ι → Option ℤ
  timely : ∀ w, ∀ d ∈ due w, now ≤ d

namespace Delayable

variable {ι : Type*}

/-- Nothing scheduled. -/
def idle (now : ℤ) : Delayable ι := ⟨now, fun _ => none, fun _ _ member => nomatch member⟩

/-- Time may go on to `t`: not back, and not past a deadline. -/
def MayPass (q : Delayable ι) (t : ℤ) : Prop := q.now ≤ t ∧ ∀ w, ∀ d ∈ q.due w, t ≤ d

instance decidableMayPass [Fintype ι] (q : Delayable ι) (t : ℤ) : Decidable (q.MayPass t) :=
  inferInstanceAs (Decidable (_ ∧ ∀ w, ∀ d ∈ q.due w, t ≤ d))

def pass (q : Delayable ι) (t : ℤ) (may : q.MayPass t) : Delayable ι := ⟨t, q.due, may.2⟩

/-- Nothing is due: every item that ran out has been run. -/
def Settled (q : Delayable ι) : Prop := ∀ w, ∀ d ∈ q.due w, q.now < d

section Schedule

variable [DecidableEq ι]

private theorem timely_update {now : ℤ} {due : ι → Option ℤ} (timely : ∀ w, ∀ d ∈ due w, now ≤ d)
    (w : ι) {deadline : Option ℤ} (later : ∀ d ∈ deadline, now ≤ d) :
    ∀ v, ∀ d ∈ Function.update due w deadline v, now ≤ d := by
  intro v d member
  rcases eq_or_ne v w with rfl | other
  · rw [Function.update_self] at member
    exact later d member
  · rw [Function.update_of_ne other] at member
    exact timely v d member

/-- The deadline is `delay` from now, whether or not the item was scheduled before. -/
def reschedule (q : Delayable ι) (w : ι) (delay : ℕ) : Delayable ι where
  now := q.now
  due := Function.update q.due w (some (q.now + delay))
  timely := timely_update q.timely w fun d member => by
    cases member
    omega

/-- The item is taken off the queue, to be run. -/
def take (q : Delayable ι) (w : ι) : Delayable ι where
  now := q.now
  due := Function.update q.due w none
  timely := timely_update q.timely w fun _ member => nomatch member

variable (q : Delayable ι) (w : ι)

@[simp] theorem reschedule_now (delay : ℕ) : (q.reschedule w delay).now = q.now := rfl

@[simp] theorem take_now : (q.take w).now = q.now := rfl

@[simp] theorem reschedule_due (delay : ℕ) :
    (q.reschedule w delay).due w = some (q.now + delay) := Function.update_self ..

@[simp] theorem take_due : (q.take w).due w = none := Function.update_self ..

variable {w} {v : ι}

theorem reschedule_other (other : v ≠ w) (delay : ℕ) :
    (q.reschedule w delay).due v = q.due v := Function.update_of_ne other ..

theorem take_other (other : v ≠ w) : (q.take w).due v = q.due v :=
  Function.update_of_ne other ..

end Schedule

@[simp] theorem pass_now (q : Delayable ι) {t : ℤ} (may : q.MayPass t) : (q.pass t may).now = t :=
  rfl

@[simp] theorem pass_due (q : Delayable ι) {t : ℤ} (may : q.MayPass t) (w : ι) :
    (q.pass t may).due w = q.due w := rfl

end Delayable

end FanatecWheel.Foundation
