import FanatecWheel.Rimlink.Link

/-!
# The transmit side as a mailbox

What the TX double buffer is for: the transfer gets the newest snapshot once,
keeps the frame it got until it asks again, and gets the neutral frame when the
snapshots stop. `toTx` reads the adapter as such a mailbox and every call of the
adapter is a step of the mailbox.
-/

namespace FanatecWheel.Rimlink

open Foundation

/-- A mailbox of sealed frames with the clock of the stale-input rule. -/
structure TxMailbox extends Mailbox Frame where
  identity : RimId
  lastPublish : ℤ
  /-- The neutral frame was substituted since the last publish. -/
  neutralSent : Bool
  staleClear : U32

namespace TxMailbox

/-- After `rimlink_init` at uptime `now`: nothing pending, the neutral frame armed. -/
def start (id : RimId) (now : ℤ) : TxMailbox where
  pending := none
  current := frameBuildId .neutral id
  identity := id
  lastPublish := now
  neutralSent := false
  staleClear := 0

def publish (m : TxMailbox) (inp : RimInputs) (now : ℤ) : TxMailbox :=
  { m with
    toMailbox := m.toMailbox.post (frameBuildId inp m.identity)
    lastPublish := now
    neutralSent := false }

/-- The input side is silent for longer than the limit and that was not yet
answered. -/
def Stale (m : TxMailbox) (now : ℤ) : Prop :=
  m.neutralSent = false ∧ staleMs < now - m.lastPublish

instance (m : TxMailbox) (now : ℤ) : Decidable (m.Stale now) :=
  inferInstanceAs (Decidable (_ ∧ _))

/-- Take the pending frame; without one, substitute the neutral frame when the
input side is stale, else keep the frame taken before. -/
def acquire (m : TxMailbox) (now : ℤ) : TxMailbox :=
  match m.pending with
  | some _ => { m with toMailbox := m.toMailbox.take }
  | none =>
    if m.Stale now then
      { m with
        toMailbox := m.toMailbox.replace (frameBuildId .neutral m.identity)
        neutralSent := true
        staleClear := m.staleClear + 1 }
    else m

/-- A call, and the frame it hands to the transfer. Receiving, the statistics
other than `stale_clear` and the capture ring do not concern the mailbox. -/
def step (m : TxMailbox) (c : Call) : TxMailbox × Option Frame :=
  match c.op with
  | .identitySet id => ({ m with identity := id }, none)
  | .snapshotPublish inp => (m.publish inp c.now, none)
  | .txAcquire => (m.acquire c.now, some (m.acquire c.now).current)
  | .statsReset => ({ m with staleClear := 0 }, none)
  | _ => (m, none)

end TxMailbox

/-- The adapter read as a mailbox. -/
def Adapter.toTx (a : Adapter) : TxMailbox where
  toMailbox := a.lnk.toMailbox
  identity := a.currentId
  lastPublish := a.lnk.lastPublish
  neutralSent := a.lnk.staleCleared
  staleClear := a.lnk.stats.staleClear

/-- The bytes a reply hands to the transfer. -/
def handedOut (a : Adapter) : Reply → Option Frame
  | .buffer index => some (a.lnk.buf index)
  | _ => none

theorem toTx_init (id : RimId) (cfg : Option Bool) (now : ℤ) :
    (init (.boot id) cfg now).toTx = .start id now := by
  simp only [init, Adapter.toTx, Adapter.boot, frameBuild, DoubleBuffer.toMailbox,
    TxMailbox.start]
  rfl

theorem toTx_snapshotPublish (a : Adapter) (inp : RimInputs) (now : ℤ) :
    (snapshotPublish a inp now).toTx = a.toTx.publish inp now := by
  have posted := a.lnk.toDoubleBuffer.toMailbox_write (frameBuild a inp)
  change TxMailbox.mk (a.lnk.toDoubleBuffer.write (frameBuild a inp)).toMailbox _ _ _ _ = _
  rw [posted]
  rfl

theorem toTx_rearm (a : Adapter) (now : ℤ) : (rearm a now).toTx = a.toTx.acquire now := by
  unfold rearm TxMailbox.acquire
  -- a fresh buffer is swapped in; without one the stale rule may write a neutral frame
  by_cases ready : a.lnk.fresh = true
  · have taken := a.lnk.toDoubleBuffer.toMailbox_swap
    rw [DoubleBuffer.swap, if_pos ready] at taken
    have posted : a.toTx.pending = some (a.lnk.buf a.lnk.staging) := by
      simp only [Adapter.toTx, DoubleBuffer.toMailbox, ready, if_true]
    rw [if_pos ready, posted]
    exact congrArg (fun mailbox => TxMailbox.mk mailbox _ _ _ _) taken
  · have empty : a.toTx.pending = none := by
      simp only [Adapter.toTx, DoubleBuffer.toMailbox, if_neg ready]
    rw [if_neg ready, empty]
    have same : (!a.lnk.staleCleared && decide (staleMs < now - a.lnk.lastPublish)) = true ↔
        a.toTx.Stale now := by
      simp only [TxMailbox.Stale, Adapter.toTx, Bool.and_eq_true, Bool.not_eq_true',
        decide_eq_true_eq]
    by_cases stale : a.toTx.Stale now
    · have replaced := a.lnk.toDoubleBuffer.toMailbox_rewrite (frameBuild a .neutral)
      rw [if_pos (same.mpr stale)]
      simp only [if_pos stale]
      exact congrArg (fun mailbox => TxMailbox.mk mailbox _ _ _ _) replaced
    · rw [if_neg (fun taken => stale (same.mp taken))]
      simp only [if_neg stale]

theorem toTx_txAcquire (a : Adapter) (now : ℤ) (cycle : U32) :
    (txAcquire a now cycle).1.toTx = a.toTx.acquire now := toTx_rearm a now

/-! ### The receive side does not touch the mailbox -/

theorem toTx_rxSubmit (a : Adapter) (frame : Frame) (len : ℕ) (cycle : U32) :
    (rxSubmit a frame len cycle).toTx = a.toTx := by
  obtain ⟨stats, lastRx, cap, msgq, workq, same, kept⟩ := rxSubmit_frame a cycle frame len
  rw [same]
  simp only [Adapter.toTx, kept]

theorem toTx_rxWorkLoop (turns : ℕ) (a : Adapter) : (rxWorkLoop turns a).1.toTx = a.toTx := by
  obtain ⟨q, same⟩ := rxWorkLoop_frame turns a
  rw [same]
  rfl

/-- Every call of the adapter is a step of the mailbox. -/
theorem toTx_step (a : Adapter) (c : Call) :
    (step a c).1.toTx = (a.toTx.step c).1 ∧
      handedOut (step a c).1 (step a c).2 = (a.toTx.step c).2 := by
  unfold step TxMailbox.step
  cases c.op with
  | snapshotPublish inp => exact ⟨toTx_snapshotPublish a inp c.now, rfl⟩
  | txAcquire =>
    have acquired := toTx_txAcquire a c.now c.cycle
    refine ⟨acquired, congrArg some ?_⟩
    exact congrArg (fun m : TxMailbox => m.current) acquired
  | rxSubmit frame len => exact ⟨toTx_rxSubmit a frame len c.cycle, rfl⟩
  | rxWork => exact ⟨toTx_rxWorkLoop 5 a, rfl⟩
  -- the other calls do on the adapter what the mailbox does, or nothing it reads
  | _ => exact ⟨rfl, rfl⟩

end FanatecWheel.Rimlink
