import FanatecWheel.App.Shell
import FanatecWheel.Properties.WireCurrency

/-!
# Runs with a console

Whatever is typed behind `rim`, in any order with the ticks of the input thread, the calls of the
link and reboots: the settings stay valid, every frame on the wire is one the base can read, and a
line that is refused has changed nothing. A config lock that was persisted holds until it is
taken off.
-/

namespace FanatecWheel.App

open Foundation Rimlink

/-! ### The firmware with a console -/

inductive ConsoleAct
  | line (r : Readings) (answer : String → I32) (argv : List String)
  | tick (x : Samples) (now : ℤ)
  | link (c : Call)
  /-- The stored keys in the order they are delivered, and the health record found. -/
  | reboot (order : List String) (levels : Fin 4 → AbLevel) (now : ℤ)
      (loaded : Option HealthCounters) (wdtCause : Bool)

inductive ConsoleEvent
  | replied (argv : List String) (reply : Reply)
  | sent (frame : Frame)
  | other
deriving DecidableEq

/-- The calls of the link: the identity is set by the shell and snapshots are published by the
input thread. -/
def fromLink (c : Call) : Bool :=
  match c.op with
  | .identitySet _ | .snapshotPublish _ => false
  | _ => true

namespace Console

/-- `main` on settings that were loaded. -/
def boot (sys : SettingsSys) (id : RimId) (cfg : Option Bool) (now : ℤ)
    (loaded : Option HealthCounters) (wdtCause : Bool) : Console where
  sys := sys
  link := init (.boot id) cfg now
  health := healthInit ⟨.zero, .zero⟩ loaded wdtCause
  baseFw := "unset".toList

variable (s : Console)

def tick (x : Samples) (now : ℤ) : Console :=
  let ticked := inputTick s.sys.svc x
  { s with sys.svc := ticked.1, link := publishIfSome s.link ticked.2 now }

def linkCall (c : Call) : Console × ConsoleEvent :=
  let called := Rimlink.step s.link c
  ({ s with link := called.1 }, (handedOut called.1 called.2).elim .other .sent)

def step (b : BuildInfo) (id : RimId) (cfg : Option Bool) :
    ConsoleAct → Option (Console × ConsoleEvent)
  | .line r answer argv =>
    (rimLine b s r answer argv).map fun (t, reply) => (t, .replied argv reply)
  | .tick x now => some (s.tick x now, .other)
  | .link c => if fromLink c then some (s.linkCall c) else none
  | .reboot order levels now loaded wdtCause =>
    if s.sys.store.keys ⊆ order.map ("rim/" ++ ·) then
      some (boot (s.sys.reboot order levels) id cfg now loaded wdtCause, .other)
    else none

end Console

/-- From the first boot on, with the configured identity. -/
def console (b : BuildInfo) (levels : Fin 4 → AbLevel) (id : RimId) (cfg : Option Bool) (t0 : ℤ) :
    Machine Console ConsoleAct ConsoleEvent where
  start := .boot (settingsMachine levels).start id cfg t0 none false
  step s := s.step b id cfg

/-! ### What a line does -/

/-- `enum rim_id`. -/
def KnownId (id : RimId) : Prop := 1 ≤ id ∧ id ≤ 4

instance (id : RimId) : Decidable (KnownId id) := inferInstanceAs (Decidable (_ ∧ _))

/-- The calls the shell makes on the input service. -/
def InputCall.FromShell : InputCall → Prop
  | .manualBit bit _ | .manualToggle bit => 1 ≤ bit ∧ bit ≤ buttonBits
  | _ => True

/-- The calls it makes on the adapter. -/
def OpFromShell : Op → Prop
  | .identitySet id => KnownId id
  | .statsReset | .capStart | .capStop | .capFreeze | .capFreezeOnAnomaly _ => True
  | _ => False

/-- The state a line leaves and what it returns: the line did nothing, or made one call. -/
inductive Outcome (s : Console) (answer : String → I32) (argv : List String) :
    Console → I32 → Prop
  | nothing (ret : I32) : Outcome s answer argv s ret
  | input (c : InputCall) (known : c.FromShell) :
      Outcome s answer argv (s.setInput (inputCall s.sys.svc c)) 0
  | link (op : Op) (known : OpFromShell op) :
      Outcome s answer argv { s with link := (step s.link ⟨op, 0, 0⟩).1 } 0
  | health (h : Health) : Outcome s answer argv { s with health := h } 0
  | session (fw : Text) (short : fw.length ≤ 31) : Outcome s answer argv { s with baseFw := fw } 0
  | save (subtree : String) (own : argv = ["save", subtree]) :
      Outcome s answer argv { s with sys := (s.sys.commit subtree answer).1 }
        (rimSettingsCommit s.sys.rs answer s.sys.store subtree).2
  | lock (arg : String) (own : argv = ["lock", arg]) (set : arg ≠ "status") :
      Outcome s answer argv { s with sys := (s.sys.cmdRimLock (some arg) answer).1 }
        (rimSettingsCommit { s.sys.rs with locked := arg = "on" } answer s.sys.store "lock").2

/-- The lock is engaged before it is persisted. -/
theorem cmdRimLock_commit (sys : SettingsSys) {arg : String} (set : arg ≠ "status")
    (answer : String → I32) : (sys.cmdRimLock (some arg) answer).1 =
      ({ sys with locked := arg = "on" }.commit "lock" answer).1 := by
  rw [SettingsSys.cmdRimLock]
  exact congrArg Prod.fst (if_pos set)

section Handlers

variable (b : BuildInfo) (s : Console) (r : Readings) (answer : String → I32) (argv : List String)

/-- A number that passed the check of a handler. -/
theorem within_of_checked {v : I32} (top : ℕ) (small : top < 2 ^ 31)
    (checked : ¬ (v.slt 1 || (BitVec.ofNat 32 top).slt v) = true) :
    1 ≤ v.toNat ∧ v.toNat ≤ top := by
  have one : (1 : I32).toInt = 1 := rfl
  have high : (BitVec.ofNat 32 top).toInt = top := by
    rw [BitVec.toInt_ofNat', Int.bmod_eq_of_le] <;> omega
  simp only [Bool.or_eq_true, BitVec.slt_iff_toInt_lt, not_or, Int.not_lt, one, high] at checked
  have signed := BitVec.toInt_eq_toNat_cond v
  have bound := v.isLt
  split at signed <;> omega

private theorem cmdRimBtn_outcome :
    Outcome s answer argv (cmdRimBtn s argv).1 (cmdRimBtn s argv).2.ret := by
  unfold cmdRimBtn
  extract_lets bit narrow
  split
  · exact .nothing _
  next checked =>
    obtain ⟨low, high⟩ := within_of_checked 22 (by decide) checked
    -- the check was made on the whole number, so narrowing it loses nothing
    have known : 1 ≤ narrow ∧ narrow ≤ buttonBits := by
      have same : narrow.toNat = bit.toNat := by
        rw [BitVec.toNat_setWidth, Nat.mod_eq_of_lt (by omega)]
      rw [BitVec.le_def, BitVec.le_def, same]
      exact ⟨low, high⟩
    split
    · exact .input (.manualBit narrow true) known
    · split
      · exact .input (.manualBit narrow false) known
      · split
        · exact .input (.manualToggle narrow) known
        · exact .nothing _

private theorem cmdRimMap_outcome :
    Outcome s answer argv (cmdRimMap s argv).1 (cmdRimMap s argv).2.ret := by
  unfold cmdRimMap
  split
  · split
    · exact .nothing _
    next svc set =>
      have called : svc = inputCall s.sys.svc
          (.mapSet (atoi (word argv 1)) ((atoi (word argv 2)).setWidth 8)) := by
        rw [inputCall, set, Option.getD_some]
      rw [called]
      exact .input _ trivial
  · exact .nothing _

private theorem cmdRimId_outcome :
    Outcome s answer argv (cmdRimId s argv).1 (cmdRimId s argv).2.ret := by
  unfold cmdRimId
  split
  · extract_lets id
    split
    · exact .nothing _
    next checked =>
      obtain ⟨low, high⟩ := within_of_checked 4 (by decide) checked
      exact .link (.identitySet id) ⟨BitVec.le_def.mpr low, BitVec.le_def.mpr high⟩
  · exact .nothing _

private theorem cmdRimDpad_outcome :
    Outcome s answer argv (cmdRimDpad s argv).1 (cmdRimDpad s argv).2.ret := by
  unfold cmdRimDpad
  split
  · split
    · exact .nothing _
    next svc set =>
      have called : svc = inputCall s.sys.svc
          (.dpadCal (fun i => (atoi (word argv (1 + i))).setWidth 16)
            ((atoi (word argv 8)).setWidth 16)) := by
        rw [inputCall, set, Option.getD_some]
      rw [called]
      exact .input _ trivial
  · exact .nothing _

private theorem cmdRimClutch_outcome :
    Outcome s answer argv (cmdRimClutch s argv).1 (cmdRimClutch s argv).2.ret := by
  unfold cmdRimClutch
  split
  · split
    · exact .nothing _
    next svc set =>
      have called : svc = inputCall s.sys.svc
          (.clutchModeSet ((atoi (word argv 1)).setWidth 8) ((atoi (word argv 2)).setWidth 8)) := by
        rw [inputCall, set, Option.getD_some]
      rw [called]
      exact .input _ trivial
  · exact .nothing _

private theorem cmdRimSession_outcome :
    Outcome s answer argv (cmdRimSession s argv b).1 (cmdRimSession s argv b).2.ret := by
  unfold cmdRimSession
  extract_lets s'
  change Outcome s answer argv s' 0
  by_cases named : (argv.length = 3 && word argv 1 = "base") = true
  · simp only [s', if_pos named]
    exact .session _ (List.length_take_le _ _)
  · simp only [s', if_neg named]
    exact .nothing _

private theorem cmdRimCap_outcome :
    Outcome s answer argv (cmdRimCap s argv).1 (cmdRimCap s argv).2.ret := by
  unfold cmdRimCap
  extract_lets cap
  split
  -- the words in the order of the source
  · exact .link .capStart trivial
  · split
    · exact .link .capStop trivial
    · split
      · exact .link .capFreeze trivial
      · split
        · exact .link (.capFreezeOnAnomaly (word argv 2 = "on")) trivial
        · split
          · exact .nothing _
          · split
            · exact .nothing _
            · exact .nothing _

private theorem cmdRimSave_outcome (own : argv = ["save", word argv 1]) :
    Outcome s answer argv (cmdRimSave s argv answer).1 (cmdRimSave s argv answer).2.ret ∧
      (cmdRimSave s argv answer).2.ret =
        (rimSettingsCommit s.sys.rs answer s.sys.store (word argv 1)).2 := by
  have saved : Outcome s answer argv { s with sys := (s.sys.commit (word argv 1) answer).1 }
      (rimSettingsCommit s.sys.rs answer s.sys.store (word argv 1)).2 := .save _ own
  unfold cmdRimSave
  extract_lets
  split
  · exact ⟨saved, rfl⟩
  · split
    · exact ⟨saved, rfl⟩
    next success =>
      have same : (rimSettingsCommit s.sys.rs answer s.sys.store (word argv 1)).2 = 0 :=
        not_not.mp success
      rw [same] at saved ⊢
      exact ⟨saved, rfl⟩

/-- `rim lock` with a word that sets the lock. -/
private theorem cmdRimLock_set {arg : String} (set : arg ≠ "status") :
    (cmdRimLock s ["lock", arg] answer).1 =
        { s with sys := (s.sys.cmdRimLock (some arg) answer).1 } ∧
      (cmdRimLock s ["lock", arg] answer).2.ret =
        (rimSettingsCommit { s.sys.rs with locked := arg = "on" } answer s.sys.store "lock").2 := by
  have given : (["lock", arg].length = 2 && word ["lock", arg] 1 ≠ "status") = true := by
    simp only [List.length_cons, List.length_nil, decide_true, Bool.true_and, decide_eq_true_eq]
    exact set
  rw [cmdRimLock_commit s.sys set]
  unfold cmdRimLock
  rw [if_pos given]
  extract_lets
  split
  · exact ⟨rfl, rfl⟩
  next success => exact ⟨rfl, (not_not.mp success).symm⟩

private theorem cmdRimLock_outcome (own : argv = ["lock", word argv 1] ∨ argv.length ≠ 2) :
    Outcome s answer argv (cmdRimLock s argv answer).1 (cmdRimLock s argv answer).2.ret := by
  by_cases given : (argv.length = 2 && word argv 1 ≠ "status") = true
  · simp only [Bool.and_eq_true, decide_eq_true_eq] at given
    obtain ⟨two, set⟩ := given
    have named := own.resolve_right fun other => other two
    have locked : Outcome s answer argv
        { s with sys := (s.sys.cmdRimLock (some (word argv 1)) answer).1 }
        (rimSettingsCommit { s.sys.rs with locked := word argv 1 = "on" } answer s.sys.store
          "lock").2 := .lock _ named set
    obtain ⟨state, ret⟩ := cmdRimLock_set s answer set
    rw [← named] at state ret
    rw [state, ret]
    exact locked
  -- without a word, or with `status`, the lock is only printed
  · unfold cmdRimLock
    rw [if_neg given]
    exact .nothing _

end Handlers

/-! ### A line -/

section Line

variable {b : BuildInfo} {s t : Console} {r : Readings} {answer : String → I32}
  {argv : List String} {reply : Reply}

private theorem two_words {name : String} (first : argv.head? = some name)
    (two : argv.length = 2) : argv = [name, word argv 1] := by
  obtain ⟨w, v, rfl⟩ := List.length_eq_two.mp two
  rw [List.head?_cons, Option.some.injEq] at first
  rw [first]
  rfl

private theorem rimCmd_name {name : String} {cmd : RimCmd} (found : rimCmd name = some cmd) :
    (cmd = .save → name = "save") ∧ (cmd = .lock → name = "lock") := by
  unfold rimCmd at found
  split at found <;> cases found <;> simp

private theorem save_takes {argc : ℕ} (takes : RimCmd.save.takes argc = true) : argc = 2 := by
  simp only [RimCmd.takes, Bool.or_eq_true, Bool.and_eq_true, decide_eq_true_eq] at takes
  rcases takes with unchecked | ⟨low, high⟩
  · cases unchecked
  · exact le_antisymm high low

/-- A line that reaches a handler has one of the outcomes. -/
theorem rimLine_outcome (called : rimLine b s r answer argv = some (t, reply)) :
    Outcome s answer argv t reply.ret := by
  unfold rimLine at called
  split at called
  · cases called
  next cmd found =>
    obtain ⟨listed, takes⟩ := Option.filter_eq_some_iff.mp found
    obtain ⟨name, first, known⟩ := Option.bind_eq_some_iff.mp listed
    have names := rimCmd_name known
    have handled := Option.some.inj called
    have state : t = _ := (congrArg Prod.fst handled).symm
    have ret : reply.ret = _ := (congrArg (fun result => result.2.ret) handled).symm
    rw [state, ret]
    cases cmd with
    | btn => exact cmdRimBtn_outcome s answer argv
    | map => exact cmdRimMap_outcome s answer argv
    | id => exact cmdRimId_outcome s answer argv
    | dpad => exact cmdRimDpad_outcome s answer argv
    | clutch => exact cmdRimClutch_outcome s answer argv
    | session => exact cmdRimSession_outcome b s answer argv
    | cap => exact cmdRimCap_outcome s answer argv
    | reset => exact .link .statsReset trivial
    | health => exact .health _
    -- the two handlers that write the store take their own word along
    | save =>
      rw [names.1 rfl] at first
      exact (cmdRimSave_outcome s answer argv (two_words first (save_takes takes))).1
    | lock =>
      rw [names.2 rfl] at first
      refine cmdRimLock_outcome s answer argv ?_
      by_cases two : argv.length = 2
      · exact .inl (two_words first two)
      · exact .inr two
    | boot =>
      dsimp only [cmdRimBoot]
      split <;> exact .nothing _
    | _ => exact .nothing _

/-- `rim save` answers what the commit returned. -/
theorem rimLine_save {subtree : String}
    (called : rimLine b s r answer ["save", subtree] = some (t, reply)) :
    reply.ret = (rimSettingsCommit s.sys.rs answer s.sys.store subtree).2 := by
  have handled := Option.some.inj called
  have ret : (cmdRimSave s ["save", subtree] answer).2.ret = reply.ret :=
    congrArg (fun result => result.2.ret) handled
  rw [← ret]
  exact (cmdRimSave_outcome s answer ["save", subtree] rfl).2

/-- A line that returns an error leaves everything but the store and the lock, and these too
unless it was `rim save` or `rim lock`. -/
theorem rimLine_refused (called : rimLine b s r answer argv = some (t, reply))
    (refused : reply.ret ≠ 0) :
    t = s ∨
      (∃ subtree store, argv = ["save", subtree] ∧ t = { s with sys.store := store }) ∨
      ∃ arg store, argv = ["lock", arg] ∧
        t = { s with sys.locked := arg = "on", sys.store := store } := by
  have outcome := rimLine_outcome called
  generalize reply.ret = ret at outcome refused
  cases outcome with
  | nothing => exact .inl rfl
  | input => exact absurd rfl refused
  | link => exact absurd rfl refused
  | health => exact absurd rfl refused
  | session => exact absurd rfl refused
  -- a failed save may have written some of its keys
  | save subtree own => exact .inr (.inl ⟨subtree, _, own, rfl⟩)
  | lock arg own set =>
    refine .inr (.inr ⟨arg, (s.sys.cmdRimLock (some arg) answer).1.store, own, ?_⟩)
    rw [cmdRimLock_commit s.sys set]
    rfl

end Line

/-! ### The wire -/

/-- The bits of the frame that no control has. -/
def NoSpareBit (word : U32) : Prop := ∀ b, buttonBits.toNat < b → bitSet word b = false

/-- A frame the base can read: sealed, of a known rim, with no bit beyond the logical buttons. -/
structure LegalFrame (frame : Frame) : Prop where
  marked : frame offHeader = header
  sound : Sealed frame
  known : 1 ≤ frame offId ∧ frame offId ≤ 4
  spare : ∀ b, buttonBits.toNat < b → b ≤ 24 → frameBit frame b = false

theorem legalFrame_build {inp : RimInputs} {id : RimId} (spare : NoSpareBit inp.buttons)
    (known : KnownId id) : LegalFrame (frameBuildId inp id) where
  marked := frameBuildId_header inp id
  sound := frameBuildId_sealed inp id
  known := by
    have field : frameBuildId inp id offId = id.setWidth 8 := rfl
    have low := BitVec.le_def.mp known.1
    have high := BitVec.le_def.mp known.2
    have one : (1 : U32).toNat = 1 := rfl
    have four : (4 : U32).toNat = 4 := rfl
    have same : (id.setWidth 8).toNat = id.toNat := by
      rw [BitVec.toNat_setWidth, Nat.mod_eq_of_lt (by omega)]
    rw [field, BitVec.le_def, BitVec.le_def, same]
    exact ⟨low, high⟩
  spare := fun b above inside => by rw [frameBit_build inp id inside, spare b above]

/-- The mailbox of the transmit side holds legal frames. -/
structure LegalTx (m : TxMailbox) : Prop where
  known : KnownId m.identity
  current : LegalFrame m.current
  pending : ∀ frame ∈ m.pending, LegalFrame frame

theorem legalFrame_neutral {id : RimId} (known : KnownId id) :
    LegalFrame (frameBuildId .neutral id) :=
  legalFrame_build (fun _ _ => BitVec.getLsbD_zero) known

theorem legalTx_start {id : RimId} (known : KnownId id) (now : ℤ) : LegalTx (.start id now) :=
  ⟨known, legalFrame_neutral known, fun _ posted => (nomatch posted)⟩

theorem legalTx_publish {m : TxMailbox} (legal : LegalTx m) {inp : RimInputs}
    (spare : NoSpareBit inp.buttons) (now : ℤ) : LegalTx (m.publish inp now) := by
  refine ⟨legal.known, legal.current, fun frame posted => ?_⟩
  have same : frameBuildId inp m.identity = frame := Option.some.inj posted
  rw [← same]
  exact legalFrame_build spare legal.known

theorem legalTx_acquire {m : TxMailbox} (legal : LegalTx m) (now : ℤ) :
    LegalTx (m.acquire now) := by
  unfold TxMailbox.acquire
  split
  next frame posted =>
    -- a posted frame is taken, and what is not posted may be stale
    have taken : m.toMailbox.take = ⟨none, frame⟩ := by rw [Mailbox.take, posted]
    rw [taken]
    exact ⟨legal.known, legal.pending frame posted, fun _ waiting => (by cases waiting)⟩
  · split
    · exact ⟨legal.known, legalFrame_neutral legal.known, legal.pending⟩
    · exact legal

/-- A call that publishes nothing and sets no unknown identity keeps the mailbox legal, and hands
out legal frames. -/
theorem legalTx_step {m : TxMailbox} (legal : LegalTx m) {c : Call}
    (known : ∀ id, c.op = .identitySet id → KnownId id) (quiet : publishes c = false) :
    LegalTx (m.step c).1 ∧ ∀ frame ∈ (m.step c).2, LegalFrame frame := by
  unfold TxMailbox.step
  unfold publishes at quiet
  cases called : c.op with
  | identitySet id =>
    exact ⟨⟨known id called, legal.current, legal.pending⟩, fun _ posted => (nomatch posted)⟩
  | snapshotPublish inp =>
    rw [called] at quiet
    cases quiet
  | txAcquire =>
    have acquired := legalTx_acquire legal c.now
    refine ⟨acquired, fun frame handed => ?_⟩
    rw [← Option.some.inj handed]
    exact acquired.current
  | statsReset =>
    exact ⟨⟨legal.known, legal.current, legal.pending⟩, fun _ posted => (nomatch posted)⟩
  | _ => exact ⟨legal, fun _ posted => (nomatch posted)⟩

/-! ### The snapshots -/

private theorem controls_below (c : RimButtonBit) : c.bit.toNat ≤ buttonBits.toNat := by
  cases c <;> decide

/-- With valid settings no control sets a spare bit. -/
theorem composed_spare {s : InputSvc} (valid : s.settings.Valid)
    (spare : NoSpareBit s.manualBits) (x : Samples) :
    NoSpareBit (inputCompose s x).2.buttons := by
  intro b above
  have controls : ∀ asked, ¬ Maps asked b := by
    rintro asked ⟨c, -, same⟩
    have below := controls_below c
    omega
  rw [← Bool.not_eq_true, composed_bits s x valid.mapped b (by omega)]
  -- a bit is set by a mapped button, the d-pad, the other switches or by hand
  rintro (⟨j, own, -, -⟩ | ladder | switch | manual)
  · have below := BitVec.le_def.mp (valid.mapped j).2
    omega
  · exact controls _ ladder
  · exact controls _ switch
  · rw [spare b above] at manual
    cases manual

private theorem spare_change {word : U32} (spare : NoSpareBit word) {bit : U8}
    (known : 1 ≤ bit ∧ bit ≤ buttonBits) (on : Bool) :
    NoSpareBit (buttonBitChange word bit on) := by
  intro b above
  have below := BitVec.le_def.mp known.2
  have inside : bit ≤ 24 := BitVec.le_trans known.2 (by decide)
  rw [bitSet_change word bit ⟨known.1, inside⟩ on b (by omega), if_neg (by omega), spare b above]

/-- No call of the shell sets a spare bit of the manual word. -/
theorem inputCall_spare {s : InputSvc} (spare : NoSpareBit s.manualBits) {c : InputCall}
    (known : c.FromShell) : NoSpareBit (inputCall s c).manualBits := by
  cases c with
  | mapSet idx bit =>
    simp only [inputCall, inputSvcMapSet]
    split
    · split <;> exact spare
    · exact spare
  | dpadCal thr hyst =>
    simp only [inputCall, inputSvcDpadCal]
    split <;> exact spare
  | clutchModeSet mode bite =>
    simp only [inputCall, inputSvcClutchModeSet]
    split <;> exact spare
  | manualBit bit on =>
    rw [inputCall, manualBit_word]
    exact spare_change spare known on
  | manualToggle bit =>
    rw [inputCall]
    unfold inputSvcManualToggle
    split
    · exact spare
    · intro b above
      have below := BitVec.le_def.mp known.2
      have other : bit.toNat ≠ b := by omega
      -- one bit is flipped, and it is not b
      have single := bitSet_single bit known.1 b (by omega)
      have clear := spare b above
      simp only [other, false_and, decide_false] at single
      simp only [bitSet] at clear single ⊢
      simp only [BitVec.getLsbD_xor, clear, single, Bool.xor_false]

/-! ### The invariant -/

/-- What holds whatever was typed. -/
structure ConsoleInv (s : Console) : Prop where
  settings : ∃ past, SettingsInv past s.sys
  spare : NoSpareBit s.sys.svc.manualBits
  tx : LegalTx s.link.toTx
  named : s.baseFw.length ≤ 31

section Steps

variable {b : BuildInfo} {id : RimId} {cfg : Option Bool} {s t : Console}

private theorem consoleInv_boot {past : List SettingsEvent} {sys : SettingsSys}
    (settings : SettingsInv past sys) (spare : NoSpareBit sys.svc.manualBits) (known : KnownId id)
    (now : ℤ) (loaded : Option HealthCounters) (wdtCause : Bool) :
    ConsoleInv (.boot sys id cfg now loaded wdtCause) where
  settings := ⟨past, settings⟩
  spare := spare
  tx := by
    change LegalTx (init (.boot id) cfg now).toTx
    rw [toTx_init]
    exact legalTx_start known now
  named := show "unset".toList.length ≤ 31 by decide

/-- A step of the settings leaves the rest. -/
private theorem consoleInv_settings (inv : ConsoleInv s) (act : SettingsAct) {sys : SettingsSys}
    {e : SettingsEvent} (stepped : s.sys.step act = some (sys, e))
    (spare : NoSpareBit sys.svc.manualBits) : ConsoleInv { s with sys := sys } := by
  obtain ⟨past, settings⟩ := inv.settings
  exact ⟨⟨_, settingsInv_step settings stepped⟩, spare, inv.tx, inv.named⟩

private theorem consoleInv_outcome (inv : ConsoleInv s) {answer : String → I32}
    {argv : List String} {ret : I32} (outcome : Outcome s answer argv t ret) : ConsoleInv t := by
  cases outcome with
  | nothing => exact inv
  | input c known =>
    exact consoleInv_settings inv (.input c) rfl (inputCall_spare inv.spare known)
  | link op known =>
    have set : ∀ id, op = .identitySet id → KnownId id := by
      rintro id rfl
      exact known
    -- no line publishes, so the mailbox only sees the identity and the reset
    have quiet : publishes ⟨op, 0, 0⟩ = false := by
      cases op <;> first | rfl | exact known.elim
    have legal := (legalTx_step inv.tx (c := ⟨op, 0, 0⟩) set quiet).1
    rw [← (toTx_step s.link ⟨op, 0, 0⟩).1] at legal
    exact ⟨inv.settings, inv.spare, legal, inv.named⟩
  | health h => exact ⟨inv.settings, inv.spare, inv.tx, inv.named⟩
  | session fw short => exact ⟨inv.settings, inv.spare, inv.tx, short⟩
  | save subtree own => exact consoleInv_settings inv (.commit subtree answer) rfl inv.spare
  | lock arg own set =>
    refine consoleInv_settings inv (.lock (some arg) answer) rfl ?_
    rw [cmdRimLock_commit s.sys set]
    exact inv.spare

private theorem consoleInv_tick (inv : ConsoleInv s) (x : Samples) (now : ℤ) :
    ConsoleInv (s.tick x now) := by
  obtain ⟨past, settings⟩ := inv.settings
  have stepped : s.sys.step (.tick x) =
      some ({ s.sys with svc := (inputTick s.sys.svc x).1 }, .silent) := rfl
  have ticked := settingsInv_step settings stepped
  refine ⟨⟨_, ticked⟩, ?_, ?_, inv.named⟩
  · change NoSpareBit (inputTick s.sys.svc x).1.manualBits
    rw [inputTick_manualBits]
    exact inv.spare
  · change LegalTx (publishIfSome s.link (inputTick s.sys.svc x).2 now).toTx
    cases published : (inputTick s.sys.svc x).2 with
    | none => exact inv.tx
    | some snap =>
      -- what is published is what was composed in this tick
      rw [publishIfSome, toTx_snapshotPublish, inputTick_published published]
      exact legalTx_publish inv.tx (composed_spare settings.sound.valid inv.spare x) now

private theorem consoleInv_link (inv : ConsoleInv s) {c : Call} (link : fromLink c = true) :
    ConsoleInv (s.linkCall c).1 ∧ ∀ frame, (s.linkCall c).2 = .sent frame → LegalFrame frame := by
  have set : ∀ id, c.op = .identitySet id → KnownId id := by
    intro id called
    rw [fromLink, called] at link
    cases link
  have quiet : publishes c = false := by
    unfold fromLink at link
    unfold publishes
    cases called : c.op <;> first | rfl | (rw [called] at link; cases link)
  obtain ⟨kept, handed⟩ := legalTx_step inv.tx set quiet
  rw [← (toTx_step s.link c).1] at kept
  rw [← (toTx_step s.link c).2] at handed
  refine ⟨⟨inv.settings, inv.spare, kept, inv.named⟩, fun frame sent => handed frame ?_⟩
  simp only [Console.linkCall] at sent
  cases out : handedOut (step s.link c).1 (step s.link c).2 with
  | none =>
    rw [out] at sent
    cases sent
  | some own =>
    rw [out] at sent
    exact congrArg some (ConsoleEvent.sent.inj sent)

/-- One step keeps the invariant and puts legal frames out. -/
private theorem consoleInv_step (known : KnownId id) (inv : ConsoleInv s) {act : ConsoleAct}
    {e : ConsoleEvent} (stepped : s.step b id cfg act = some (t, e)) :
    ConsoleInv t ∧ ∀ frame, e = .sent frame → LegalFrame frame := by
  cases act with
  | line r answer argv =>
    obtain ⟨⟨t', reply⟩, called, same⟩ := Option.map_eq_some_iff.mp stepped
    cases same
    exact ⟨consoleInv_outcome inv (rimLine_outcome called), fun _ sent => (nomatch sent)⟩
  | tick x now =>
    cases stepped
    exact ⟨consoleInv_tick inv x now, fun _ sent => (nomatch sent)⟩
  | link c =>
    simp only [Console.step] at stepped
    split at stepped
    next link =>
      have moved := consoleInv_link inv link
      rw [Option.some.inj stepped] at moved
      exact moved
    · cases stepped
  | reboot order levels now loaded wdtCause =>
    simp only [Console.step] at stepped
    split at stepped
    next delivered =>
      cases stepped
      obtain ⟨past, settings⟩ := inv.settings
      have moved : s.sys.step (.reboot order levels) =
          some (s.sys.reboot order levels, .rebooted) := if_pos delivered
      have rebooted := settingsInv_step settings moved
      exact ⟨consoleInv_boot rebooted (fun _ _ => BitVec.getLsbD_zero) known now loaded wdtCause,
        fun _ sent => (nomatch sent)⟩
    · cases stepped

end Steps

section Runs

variable {b : BuildInfo} {levels : Fin 4 → AbLevel} {id : RimId} {cfg : Option Bool} {t0 : ℤ}
  {events : List ConsoleEvent} {s : Console}

private theorem consoleInv_run (known : KnownId id)
    (reached : (console b levels id cfg t0).Reaches events s) :
    ConsoleInv s ∧ ∀ frame, .sent frame ∈ events → LegalFrame frame := by
  refine Machine.ReachesBy.induct
    (P := fun events s => ConsoleInv s ∧ ∀ frame, .sent frame ∈ events → LegalFrame frame)
    ⟨?_, fun _ member => nomatch member⟩ ?_ reached
  · exact consoleInv_boot (settingsInv_start levels) (fun _ _ => BitVec.getLsbD_zero) known t0 none
      false
  · rintro outs s act t e ⟨inv, sent⟩ - stepped
    obtain ⟨kept, legal⟩ := consoleInv_step known inv stepped
    refine ⟨kept, fun frame member => ?_⟩
    rcases List.mem_append.mp member with before | last
    · exact sent frame before
    · exact legal frame (List.mem_singleton.mp last).symm

/-- **Nothing typed at the console breaks the wire.** In every run of lines, ticks, calls of the
link and reboots: every frame that is handed out is sealed, of one of the four rims and without a
bit that no control has, and the settings are valid. A line that returns an error leaves
everything but the store and the lock, and these too unless it was `rim save` or `rim lock`. -/
theorem console_safe (known : KnownId id)
    (reached : (console b levels id cfg t0).Reaches events s) :
    (∀ frame, .sent frame ∈ events → LegalFrame frame) ∧
    s.sys.svc.settings.Valid ∧ s.sys.schema = schemaVersion ∧ KnownId s.link.currentId ∧
    NoSpareBit s.sys.svc.manualBits ∧ s.baseFw.length ≤ 31 ∧
    (∀ r answer argv t reply, rimLine b s r answer argv = some (t, reply) → reply.ret ≠ 0 →
      t = s ∨
        (∃ subtree store, argv = ["save", subtree] ∧ t = { s with sys.store := store }) ∨
        ∃ arg store, argv = ["lock", arg] ∧
          t = { s with sys.locked := arg = "on", sys.store := store }) := by
  obtain ⟨inv, legal⟩ := consoleInv_run known reached
  obtain ⟨past, settings⟩ := inv.settings
  exact ⟨legal, settings.sound.valid, settings.sound.version, inv.tx.known, inv.spare, inv.named,
    fun r answer argv t reply called refused => rimLine_refused called refused⟩

end Runs

def benchBuild : BuildInfo := ⟨"1.0.0".toList, "0".toList⟩

/-- A rim with all encoder lines low and the reference identity. -/
def benchConsole : Machine Console ConsoleAct ConsoleEvent :=
  console benchBuild (fun _ => ⟨false, false⟩) rimIdPorsche918Rsr (some true) 0

def quietReadings : Readings := ⟨⟨0, fun _ => 0, 0, 0, 0⟩, [], 0, 0, 0⟩

/-- A line while the other services are quiet and the backend saves. -/
def typed (argv : List String) : ConsoleAct := .line quietReadings (fun _ => 0) argv

/-- Set a bit, try an unknown identity, take the last known one, tick, arm a transfer. -/
theorem console_safe_run : ∃ events s,
    benchConsole.run benchConsole.start [typed ["btn", "set", "22"], typed ["id", "9"],
      typed ["id", "4"], .tick (buttonOnly 0) 1, .link ⟨.txAcquire, 2, 0⟩] = some (s, events) ∧
    s.link.currentId = 4 ∧ events.length = 5 ∧
    ∀ frame, .sent frame ∈ events → LegalFrame frame := by
  have ran : (benchConsole.run benchConsole.start [typed ["btn", "set", "22"], typed ["id", "9"],
      typed ["id", "4"], .tick (buttonOnly 0) 1, .link ⟨.txAcquire, 2, 0⟩]).map
      (fun (s, events) => (s.link.currentId, events.length)) = some (4, 5) := by
    decide +kernel
  obtain ⟨⟨s, events⟩, reached, fields⟩ := Option.map_eq_some_iff.mp ran
  simp only [Prod.mk.injEq] at fields
  exact ⟨events, s, reached, fields.1, fields.2,
    (console_safe (by decide) (Machine.reaches_of_run reached)).1⟩

/-! ### The config lock -/

/-- No line takes the lock off. -/
def KeepsLock (_ : Console) : ConsoleAct → Prop
  | .line _ _ argv => ∀ arg, argv = ["lock", arg] → arg = "on" ∨ arg = "status"
  | _ => True

/-- The lock is on and stored, and every key reads as it did. -/
structure LockedAs (store : Store) (s : Console) : Prop where
  locked : s.sys.locked = true
  lock : store.lookup "rim/lock" = some [1]
  version : store.lookup "rim/schema" = some [schemaVersion]
  same : ∀ key, s.sys.store.lookup key = store.lookup key

section Lock

variable {b : BuildInfo} {levels : Fin 4 → AbLevel} {id : RimId} {cfg : Option Bool} {t0 : ℤ}
  {events : List ConsoleEvent} {store : Store} {s t : Console}

/-- Under the lock only its own subtree is written. -/
private theorem commit_locked {rs : Rs} (locked : rs.locked = true) {subtree : String}
    (other : subtree ≠ "lock") (answer : String → I32) (store : Store) :
    rimSettingsCommit rs answer store subtree = (store, -eacces) := by
  simp only [rimSettingsCommit, commitWrites, locked, other, ne_eq, not_false_eq_true, and_self,
    if_true]

/-- A row of saves of what is stored. -/
private theorem saveAll_again {store : Store} {writes : List (String × List U8)}
    (stored : ∀ w ∈ writes, store.lookup w.1 = some w.2) (answer : String → I32) (key : String) :
    (saveAll answer store writes).1.lookup key = store.lookup key := by
  -- on the saves, the last one first: each puts back what its key held
  induction writes using List.reverseRecOn with
  | nil => rfl
  | append_singleton before w ih =>
    have kept := ih fun v member => stored v (List.mem_append_left _ member)
    simp only [saveAll, List.foldl_append, List.foldl_cons, List.foldl_nil] at kept ⊢
    unfold saveNext settingsSaveOne
    split
    · by_cases same : key = w.1
      · rw [same, AList.lookup_insert]
        exact (stored w (List.mem_append_right _ (List.mem_singleton_self w))).symm
      · rw [AList.lookup_insert_ne same]
        exact kept
    · exact kept

/-- Saving the lock again writes what is stored. -/
private theorem commit_lock_again {rs : Rs} (locked : rs.locked = true)
    (version : rs.schema = schemaVersion) (lock : store.lookup "rim/lock" = some [1])
    (schema : store.lookup "rim/schema" = some [schemaVersion]) (answer : String → I32)
    (key : String) :
    (rimSettingsCommit rs answer store "lock").1.lookup key = store.lookup key := by
  have writes : commitWrites rs "lock" =
      .ok [("rim/lock", [1]), ("rim/schema", [schemaVersion])] := by
    simp [commitWrites, locked, version]
  rw [rimSettingsCommit, writes]
  exact saveAll_again (List.forall_mem_cons.mpr ⟨lock, List.forall_mem_singleton.mpr schema⟩)
    answer key

/-- Any commit under the lock. -/
private theorem lockedAs_commit (inv : ConsoleInv s) (held : LockedAs store s) (subtree : String)
    (answer : String → I32) :
    LockedAs store { s with sys := (s.sys.commit subtree answer).1 } := by
  obtain ⟨past, settings⟩ := inv.settings
  refine ⟨held.locked, held.lock, held.version, fun key => ?_⟩
  rw [← held.same key]
  change (rimSettingsCommit s.sys.rs answer s.sys.store subtree).1.lookup key = _
  by_cases own : subtree = "lock"
  · rw [own]
    refine commit_lock_again held.locked settings.sound.version ?_ ?_ answer key
    · rw [held.same, held.lock]
    · rw [held.same, held.version]
  · have refused : rimSettingsCommit s.sys.rs answer s.sys.store subtree =
        (s.sys.store, -eacces) := commit_locked held.locked own answer _
    rw [refused]

private theorem lockedAs_outcome (inv : ConsoleInv s) (held : LockedAs store s)
    {answer : String → I32} {argv : List String} {ret : I32}
    (outcome : Outcome s answer argv t ret)
    (keeps : ∀ arg, argv = ["lock", arg] → arg = "on" ∨ arg = "status") : LockedAs store t := by
  cases outcome with
  | save subtree own => exact lockedAs_commit inv held subtree answer
  | lock arg own set =>
    have on : arg = "on" := (keeps arg own).resolve_right set
    have same : decide (arg = "on") = s.sys.locked := by
      rw [held.locked]
      exact decide_eq_true on
    -- the lock is on already, so engaging it changes nothing
    have engaged : { s.sys with locked := decide (arg = "on") } = s.sys := by rw [same]
    rw [cmdRimLock_commit s.sys set, engaged]
    exact lockedAs_commit inv held "lock" answer
  | nothing => exact held
  | _ => exact ⟨held.locked, held.lock, held.version, held.same⟩

/-- A reboot finds the lock in the store. -/
private theorem lockedAs_reboot (inv : ConsoleInv s) (held : LockedAs store s)
    {order : List String} (delivered : s.sys.store.keys ⊆ order.map ("rim/" ++ ·)) :
    (settingsLoadSubtree s.sys.store order .default).locked = true := by
  obtain ⟨past, settings⟩ := inv.settings
  have stored := settings.stored .locked
  rw [show "rim/" ++ Field.locked.key = "rim/lock" from rfl, held.same, held.lock] at stored
  obtain ⟨rs, last, image⟩ := Option.map_eq_some_iff.mp stored.symm
  have loaded : (settingsLoadSubtree s.sys.store order .default).locked = rs.locked := by
    have same := settingsInv_reload settings delivered .locked
    rw [last] at same
    exact same
  -- of the two bytes of the lock only that of an engaged one was stored
  rw [loaded]
  cases on : rs.locked with
  | true => rfl
  | false =>
    rw [Field.image, on] at image
    cases image

private theorem lockedAs_step (inv : ConsoleInv s) (held : LockedAs store s) {act : ConsoleAct}
    {e : ConsoleEvent} (keeps : KeepsLock s act)
    (stepped : s.step b id cfg act = some (t, e)) : LockedAs store t := by
  cases act with
  | line r answer argv =>
    obtain ⟨⟨t', reply⟩, called, same⟩ := Option.map_eq_some_iff.mp stepped
    cases same
    exact lockedAs_outcome inv held (rimLine_outcome called) keeps
  | tick x now =>
    cases stepped
    exact ⟨held.locked, held.lock, held.version, held.same⟩
  | link c =>
    simp only [Console.step] at stepped
    split at stepped
    · cases stepped
      exact ⟨held.locked, held.lock, held.version, held.same⟩
    · cases stepped
  | reboot order levels now loaded wdtCause =>
    simp only [Console.step] at stepped
    split at stepped
    next delivered =>
      cases stepped
      exact ⟨lockedAs_reboot inv held delivered, held.lock, held.version, held.same⟩
    · cases stepped

/-- `rim save` under the lock. -/
private theorem refused_save (held : LockedAs store s) {act : ConsoleAct} {subtree : String}
    {reply : Reply}
    (stepped : s.step b id cfg act = some (t, .replied ["save", subtree] reply))
    (other : subtree ≠ "lock") : reply.ret = -eacces := by
  cases act with
  | line r answer argv =>
    obtain ⟨⟨t', reply'⟩, called, same⟩ := Option.map_eq_some_iff.mp stepped
    cases same
    have refused : rimSettingsCommit s.sys.rs answer s.sys.store subtree =
        (s.sys.store, -eacces) := commit_locked held.locked other answer _
    rw [rimLine_save called, refused]
  | tick x now => cases stepped
  | link c =>
    simp only [Console.step, Console.linkCall] at stepped
    split at stepped
    · cases out : handedOut (step s.link c).1 (step s.link c).2 <;>
      · rw [out] at stepped
        cases stepped
    · cases stepped
  | reboot order levels now loaded wdtCause =>
    simp only [Console.step] at stepped
    split at stepped <;> cases stepped

/-- `rim lock on` that returns zero has the lock on and stored. -/
private theorem lockedAs_lock (inv : ConsoleInv s) {r : Readings} {answer : String → I32}
    {reply : Reply} (called : rimLine b s r answer ["lock", "on"] = some (t, reply))
    (persisted : reply.ret = 0) : LockedAs t.sys.store t := by
  have handled : cmdRimLock s ["lock", "on"] answer = (t, reply) := Option.some.inj called
  have set : "on" ≠ "status" := by decide
  obtain ⟨state, ret⟩ := cmdRimLock_set s answer set
  rw [handled] at state ret
  obtain ⟨past, settings⟩ := inv.settings
  -- a commit that returns zero has stored all its keys
  obtain ⟨-, saved⟩ := commit_zero _ answer s.sys.store "lock" (ret.symm.trans persisted)
  have same : t.sys.store = (rimSettingsCommit { s.sys.rs with locked := "on" = "on" } answer
      s.sys.store "lock").1 := by
    have store := congrArg (fun c : Console => c.sys.store) state
    rw [cmdRimLock_commit s.sys set] at store
    exact store
  rw [← same] at saved
  refine ⟨?_, (saved .locked (by decide)).2, ?_, fun _ => rfl⟩
  · have lock := congrArg (fun c : Console => c.sys.locked) state
    rw [cmdRimLock_commit s.sys set] at lock
    exact lock
  · have version := (saved .schema (by decide)).2
    have current : s.sys.rs.schema = schemaVersion := settings.sound.version
    simp only [Field.image, current] at version
    exact version

/-- A load depends on what the keys read as. -/
private theorem settingsLoadSubtree_congr {first second : Store}
    (same : ∀ key, first.lookup key = second.lookup key) (order : List String) (rs : Rs) :
    settingsLoadSubtree first order rs = settingsLoadSubtree second order rs := by
  have keys : loadKey first = loadKey second := by
    funext rs key
    rw [loadKey, loadKey, same]
  rw [settingsLoadSubtree, settingsLoadSubtree, keys]

/-- **The config lock holds.** After a `rim lock on` that returned zero, through any lines but
`rim lock` with another word, and through reboots: the lock stays on, every stored key reads as it
did, so that every boot loads the same settings, and `rim save` answers -EACCES for every
subtree but the lock itself. -/
theorem console_locked (known : KnownId id)
    (reached : (console b levels id cfg t0).Reaches events s) {r : Readings}
    {answer : String → I32} {reply : Reply}
    (called : rimLine b s r answer ["lock", "on"] = some (t, reply)) (persisted : reply.ret = 0)
    {later : List ConsoleEvent} {u : Console}
    (kept : ((console b levels id cfg t0).startingAt t).ReachesBy KeepsLock later u) :
    u.sys.locked = true ∧
    (∀ key, u.sys.store.lookup key = t.sys.store.lookup key) ∧
    (∀ order, settingsLoadSubtree u.sys.store order .default =
      settingsLoadSubtree t.sys.store order .default) ∧
    (∀ subtree reply, .replied ["save", subtree] reply ∈ later → subtree ≠ "lock" →
      reply.ret = -eacces) := by
  have start := (consoleInv_run known reached).1
  have held : ConsoleInv u ∧ LockedAs t.sys.store u ∧ ∀ subtree reply,
      .replied ["save", subtree] reply ∈ later → subtree ≠ "lock" → reply.ret = -eacces := by
    refine Machine.ReachesBy.induct
      (P := fun later u => ConsoleInv u ∧ LockedAs t.sys.store u ∧ ∀ subtree reply,
        .replied ["save", subtree] reply ∈ later → subtree ≠ "lock" → reply.ret = -eacces)
      ⟨consoleInv_outcome start (rimLine_outcome called), lockedAs_lock start called persisted,
        fun _ _ member => nomatch member⟩ ?_ kept
    rintro outs v act w e ⟨inv, locked, refused⟩ keeps stepped
    refine ⟨(consoleInv_step known inv stepped).1, lockedAs_step inv locked keeps stepped,
      fun subtree reply member other => ?_⟩
    -- an answer is one of those before or that of this step
    rcases List.mem_append.mp member with before | last
    · exact refused subtree reply before other
    · exact refused_save locked (stepped.trans (by rw [List.mem_singleton.mp last])) other
  exact ⟨held.2.1.locked, held.2.1.same,
    fun order => settingsLoadSubtree_congr held.2.1.same order .default, held.2.2⟩

end Lock

instance (s : Console) (act : ConsoleAct) : Decidable (KeepsLock s act) :=
  match act with
  | .line _ _ argv =>
    decidable_of_iff
      (∀ arg ∈ argv.getLast?, argv = ["lock", arg] → arg = "on" ∨ arg = "status")
      ⟨fun keeps arg own => keeps arg (by rw [own]; rfl) own, fun keeps arg _ => keeps arg⟩
  | .tick _ _ => isTrue trivial
  | .link _ => isTrue trivial
  | .reboot _ _ _ _ _ => isTrue trivial

/-- Save the map, lock, change the map and try to save it, reboot, try again. -/
theorem console_locked_run : ∃ events s t reply later u,
    benchConsole.run benchConsole.start [typed ["map", "0", "22"], typed ["save", "map"]] =
      some (s, events) ∧
    rimLine benchBuild s quietReadings (fun _ => 0) ["lock", "on"] = some (t, reply) ∧
    (benchConsole.startingAt t).runBy KeepsLock t [typed ["map", "0", "21"],
        typed ["save", "map"], .reboot ["schema", "map/encoder", "map/buttons", "map/axis", "lock"]
          (fun _ => ⟨false, false⟩) 0 none true, typed ["save", "map"]] = some (u, later) ∧
    u.sys.svc.settings.buttonMap 0 = 22 ∧ u.sys.locked = true := by
  have ran : ((benchConsole.run benchConsole.start [typed ["map", "0", "22"],
      typed ["save", "map"]]).bind fun (s, _) =>
        (rimLine benchBuild s quietReadings (fun _ => 0) ["lock", "on"]).bind fun (t, reply) =>
          ((benchConsole.startingAt t).runBy KeepsLock t [typed ["map", "0", "21"],
            typed ["save", "map"],
            .reboot ["schema", "map/encoder", "map/buttons", "map/axis", "lock"]
              (fun _ => ⟨false, false⟩) 0 none true, typed ["save", "map"]]).map fun ran =>
                (reply.ret, ran.1.sys.svc.settings.buttonMap 0)) =
      (some (0, 22) : Option (I32 × U8)) := by
    decide +kernel
  obtain ⟨⟨s, events⟩, before, ran⟩ := Option.bind_eq_some_iff.mp ran
  obtain ⟨⟨t, reply⟩, called, ran⟩ := Option.bind_eq_some_iff.mp ran
  obtain ⟨⟨u, later⟩, after, fields⟩ := Option.map_eq_some_iff.mp ran
  simp only [Prod.mk.injEq] at fields
  have locked := console_locked (by decide) (Machine.reaches_of_run before) called fields.1
    (Machine.reachesBy_of_run after)
  exact ⟨events, s, t, reply, later, u, before, called, after, fields.2, locked.1⟩

end FanatecWheel.App
