import FanatecWheel.App.LraSvc
import FanatecWheel.Foundation.Counter

/-!
# Bounded haptics

A cue runs from its request to its stop work, 100 ms at most, and the gate of its channel stays
shut until 50 ms after that. The end of the last cue is all that a gate remembers.
-/

namespace FanatecWheel.App

open Foundation Rimlink

/-- A channel is driven from the start to the stop. -/
structure Cue where
  start : ℤ
  stop : ℤ
deriving DecidableEq

/-- The cue that the call began on the channel: until its stop work is due. -/
def CueEvent.cue (e : CueEvent) (ch : Fin 2) : Option Cue :=
  e.calls.findSome? fun call =>
    match call with
    | .reschedule chan delayMs =>
      if chan = ch then some ⟨e.request.nowMs, e.request.nowMs + delayMs.toNat⟩ else none
    | .hwSet _ _ => none

/-- The cues on a channel, oldest first. -/
def cues (ch : Fin 2) (events : List CueEvent) : List Cue := events.filterMap fun e => e.cue ch

/-- The request is for the channel. -/
def CueRequest.For (r : CueRequest) (ch : Fin 2) : Prop := r.chan.toNat = ch.val

instance (r : CueRequest) (ch : Fin 2) : Decidable (r.For ch) :=
  inferInstanceAs (Decidable (_ = _))

/-- The request is for a channel that exists. -/
def CueRequest.valid (r : CueRequest) : Bool := r.chan.toNat < 2

def CueEvent.granted (e : CueEvent) : Bool := e.result.toBool

/-- Refused, though the channel exists. -/
def CueEvent.refused (e : CueEvent) : Bool := e.request.valid && !e.granted

/-! ### One request -/

/-- The gate refuses without a change, or grants what was asked for up to the limit. -/
theorem lraGateRequest_cases (g : LraGate) (nowMs : ℤ) (durationMs : U32) :
    ((nowMs < g.readyAtMs ∨ durationMs = 0) ∧ lraGateRequest g nowMs durationMs = (g, 0)) ∨
      g.readyAtMs ≤ nowMs ∧ ∃ granted : U32, granted ≠ 0 ∧
        granted.toNat = min durationMs.toNat 100 ∧
        lraGateRequest g nowMs durationMs =
          (⟨nowMs + granted.toNat, nowMs + granted.toNat + lraCooldownMs⟩, granted) := by
  unfold lraGateRequest
  by_cases early : nowMs < g.readyAtMs
  · exact .inl ⟨.inl early, if_pos early⟩
  rw [if_neg early]
  have capped : (if lraMaxDurationMs < durationMs then lraMaxDurationMs else durationMs).toNat =
      min durationMs.toNat 100 := by
    split
    next long =>
      have above := BitVec.lt_def.mp long
      exact (min_eq_right above.le).symm
    next short =>
      have below := BitVec.le_def.mp (BitVec.not_lt.mp short)
      exact (min_eq_left below).symm
  generalize (if lraMaxDurationMs < durationMs then lraMaxDurationMs else durationMs) = granted
    at capped
  by_cases none_asked : granted = 0
  · -- the limit is not zero, so nothing was asked for
    refine .inl ⟨.inr ?_, if_pos none_asked⟩
    rw [none_asked] at capped
    apply BitVec.eq_of_toNat_eq
    simp only [BitVec.ofNat_eq_ofNat, BitVec.toNat_ofNat, Nat.zero_mod] at capped ⊢
    omega
  · exact .inr ⟨not_lt.mp early, granted, none_asked, capped, if_neg none_asked⟩

/-- What a refusal counts. -/
structure CountsRefused (before after : LraStats) : Prop where
  requested : after.requested = before.requested + 1
  played : after.played = before.played
  blocked : after.blocked = before.blocked + 1

/-- What a grant counts. -/
structure CountsGranted (before after : LraStats) : Prop where
  requested : after.requested = before.requested + 1
  played : after.played = before.played + 1
  blocked : after.blocked = before.blocked

/-- A call leaves all as it is, counts a refusal, or begins a cue. -/
theorem cueStep_cases (s : LraSvc) (r : CueRequest) :
    (r.valid = false ∧ cueStep s r = (s, ⟨r, .error .einval, []⟩)) ∨
    (∃ ch, r.For ch ∧ (r.nowMs < (s.gate ch).readyAtMs ∨ r.durationMs = 0) ∧
      ∃ stats, CountsRefused s.stats stats ∧
        cueStep s r = ({ s with stats }, ⟨r, .error .ebusy, []⟩)) ∨
    ∃ ch, r.For ch ∧ (s.gate ch).readyAtMs ≤ r.nowMs ∧ ∃ granted : U32, granted ≠ 0 ∧
      granted.toNat = min r.durationMs.toNat 100 ∧
      ∃ stats, CountsGranted s.stats stats ∧
        cueStep s r =
          ({ s with
            stats
            gate := Function.update s.gate ch
              ⟨r.nowMs + granted.toNat, r.nowMs + granted.toNat + lraCooldownMs⟩ },
            ⟨r, .ok (), [.hwSet ch r.level, .reschedule ch granted]⟩) := by
  by_cases valid : r.chan.toNat < 2
  · right
    let ch : Fin 2 := ⟨r.chan.toNat, valid⟩
    let asked : LraStats := { s.stats with
      requested := s.stats.requested + 1
      capped := if lraMaxDurationMs < r.durationMs then s.stats.capped + 1 else s.stats.capped }
    rcases lraGateRequest_cases (s.gate ch) r.nowMs r.durationMs with ⟨shut, same⟩ |
      ⟨ready, granted, some_time, length, same⟩
    · refine .inl ⟨ch, rfl, shut, { asked with blocked := asked.blocked + 1 }, ⟨rfl, rfl, rfl⟩, ?_⟩
      simp only [cueStep, lraSvcCue, dif_pos valid]
      rw [same, if_pos rfl, Function.update_eq_self]
    · refine .inr ⟨ch, rfl, ready, granted, some_time, length,
        { asked with played := asked.played + 1 }, ⟨rfl, rfl, rfl⟩, ?_⟩
      simp only [cueStep, lraSvcCue, dif_pos valid]
      rw [same, if_neg some_time]
  · exact .inl ⟨decide_eq_false valid, by simp only [cueStep, lraSvcCue, dif_neg valid]⟩

/-! ### Runs -/

theorem trace_requests (s : LraSvc) (requests : List CueRequest) :
    (trace cueStep s requests).map CueEvent.request = requests := by
  induction requests generalizing s with
  | nil => rfl
  | cons r rest ih => exact congrArg (r :: ·) (ih _)

/-- Every request for a channel that exists is granted or refused. -/
private theorem valid_split {events : List CueEvent}
    (sound : ∀ e ∈ events, e.granted = true → e.request.valid = true) :
    events.countP (fun e => e.request.valid) =
      events.countP CueEvent.granted + events.countP CueEvent.refused := by
  induction events with
  | nil => rfl
  | cons e rest ih =>
    obtain ⟨here, later⟩ := List.forall_mem_cons.mp sound
    rw [List.countP_cons, List.countP_cons, List.countP_cons, ih later, CueEvent.refused]
    cases granted : e.granted with
    | true =>
      rw [here granted]
      simp only [Bool.not_true, Bool.and_false, if_true, Bool.false_eq_true, if_false]
      omega
    | false =>
      simp only [Bool.not_false, Bool.and_true, Bool.false_eq_true, if_false]
      omega

/-- A cue begins at its request. -/
theorem cue_start {e : CueEvent} {ch : Fin 2} {c : Cue} (began : e.cue ch = some c) :
    c.start = e.request.nowMs := by
  obtain ⟨call, -, found⟩ := List.exists_of_findSome?_eq_some began
  cases call with
  | hwSet chan level => cases found
  | reschedule chan delayMs =>
    obtain ⟨-, same⟩ := Option.ite_none_right_eq_some.mp found
    exact (congrArg Cue.start (Option.some.inj same)).symm

theorem cues_snoc (ch : Fin 2) (events : List CueEvent) (e : CueEvent) :
    cues ch (events ++ [e]) = cues ch events ++ (e.cue ch).toList := by
  rw [cues, List.filterMap_append]
  cases began : e.cue ch <;> simp [cues, began]

/-- What the events so far say of the service. -/
structure GateHistory (events : List CueEvent) (s : LraSvc) : Prop where
  closed : ∀ ch, ∀ c ∈ cues ch events, c.stop + lraCooldownMs ≤ (s.gate ch).readyAtMs
  last : ∀ ch, (s.gate ch).readyAtMs = 0 ∨
    ∃ c ∈ cues ch events, (s.gate ch).readyAtMs = c.stop + lraCooldownMs
  requested : s.stats.requested = BitVec.ofNat 32 (events.countP fun e => e.request.valid)
  played : s.stats.played = BitVec.ofNat 32 (events.countP CueEvent.granted)
  blocked : s.stats.blocked = BitVec.ofNat 32 (events.countP CueEvent.refused)
  sound : ∀ e ∈ events, e.granted = true → e.request.valid = true

/-- One event more, if it meets the condition. -/
private theorem tallied {p : CueEvent → Bool} {events : List CueEvent} {e : CueEvent} {count : U32}
    (counted : count = BitVec.ofNat 32 (events.countP p)) (met : Bool) (same : p e = met) :
    (if met then count + 1 else count) = BitVec.ofNat 32 ((events ++ [e]).countP p) := by
  rw [List.countP_append, List.countP_singleton, same, counted]
  split
  · exact (count_succ _).symm
  · rw [Nat.add_zero]

private theorem valid_of_for {r : CueRequest} {ch : Fin 2} (here : r.For ch) : r.valid = true := by
  have bound := ch.isLt
  unfold CueRequest.For at here
  exact decide_eq_true (by omega)

private theorem cues_quiet {e : CueEvent} (silent : e.calls = []) (ch : Fin 2)
    (events : List CueEvent) : cues ch (events ++ [e]) = cues ch events := by
  rw [cues_snoc, CueEvent.cue, silent]
  exact List.append_nil _

private theorem cue_granted (r : CueRequest) (ch ch' : Fin 2) (granted : U32) :
    (⟨r, .ok (), [.hwSet ch r.level, .reschedule ch granted]⟩ : CueEvent).cue ch' =
      if ch = ch' then some ⟨r.nowMs, r.nowMs + granted.toNat⟩ else none := by
  simp only [CueEvent.cue, List.findSome?_cons, List.findSome?_nil]
  split <;> simp_all

/-- A grant on a channel that was ready: the cues before ended in time for it, and the gate is
shut until later. -/
private theorem gates_granted {events : List CueEvent} {s : LraSvc} (history : GateHistory events s)
    {r : CueRequest} {ch : Fin 2} (ready : (s.gate ch).readyAtMs ≤ r.nowMs) (granted : U32)
    (ch' : Fin 2) :
    let gate := Function.update s.gate ch
      ⟨r.nowMs + granted.toNat, r.nowMs + granted.toNat + lraCooldownMs⟩
    let after := events ++ [⟨r, .ok (), [.hwSet ch r.level, .reschedule ch granted]⟩]
    (∀ c ∈ cues ch' after, c.stop + lraCooldownMs ≤ (gate ch').readyAtMs) ∧
      ((gate ch').readyAtMs = 0 ∨
        ∃ c ∈ cues ch' after, (gate ch').readyAtMs = c.stop + lraCooldownMs) := by
  intro gate after
  have grown : cues ch' after = cues ch' events ++
      (if ch = ch' then some ⟨r.nowMs, r.nowMs + granted.toNat⟩ else none : Option Cue).toList := by
    rw [cues_snoc, cue_granted]
  by_cases own : ch = ch'
  · subst own
    rw [if_pos rfl] at grown
    simp only [gate, Function.update_self]
    constructor
    · intro c member
      rw [grown] at member
      rcases List.mem_append.mp member with earlier | this
      · have ended := history.closed ch c earlier
        simp only [lraCooldownMs] at ended ⊢
        omega
      · rw [List.mem_singleton.mp this]
    · rw [grown]
      exact .inr ⟨_, List.mem_append_right _ List.mem_cons_self, rfl⟩
  · rw [if_neg own, Option.toList_none, List.append_nil] at grown
    simp only [gate, Function.update_of_ne (Ne.symm own), grown]
    exact ⟨history.closed ch', history.last ch'⟩

private theorem sound_snoc {events : List CueEvent} {s : LraSvc} (history : GateHistory events s)
    {e : CueEvent} (last : e.granted = true → e.request.valid = true) :
    ∀ e' ∈ events ++ [e], e'.granted = true → e'.request.valid = true := by
  rw [List.forall_mem_append, List.forall_mem_singleton]
  exact ⟨history.sound, last⟩

private theorem gateHistory_step {events : List CueEvent} {s : LraSvc}
    (history : GateHistory events s) (r : CueRequest) :
    GateHistory (events ++ [(cueStep s r).2]) (cueStep s r).1 := by
  rcases cueStep_cases s r with ⟨invalid, same⟩ | ⟨ch, here, -, stats, counts, same⟩ |
    ⟨ch, here, ready, granted, -, -, stats, counts, same⟩
  · rw [same]
    have quiet (ch : Fin 2) := @cues_quiet ⟨r, .error .einval, []⟩ rfl ch events
    refine ⟨?_, ?_, ?_, ?_, ?_, sound_snoc history nofun⟩
    · simpa only [quiet] using history.closed
    · simpa only [quiet] using history.last
    · exact tallied history.requested false invalid
    · exact tallied history.played false rfl
    · refine tallied history.blocked false ?_
      rw [CueEvent.refused, invalid, Bool.false_and]
  · rw [same]
    have quiet (ch : Fin 2) := @cues_quiet ⟨r, .error .ebusy, []⟩ rfl ch events
    have valid := valid_of_for here
    refine ⟨?_, ?_, ?_, ?_, ?_, sound_snoc history fun _ => valid⟩
    · simpa only [quiet] using history.closed
    · simpa only [quiet] using history.last
    · rw [counts.requested]
      exact tallied history.requested true valid
    · rw [counts.played]
      exact tallied history.played false rfl
    · rw [counts.blocked]
      refine tallied history.blocked true ?_
      rw [CueEvent.refused, valid]
      rfl
  · rw [same]
    have valid := valid_of_for here
    have gates := gates_granted history ready granted
    refine ⟨fun ch' => (gates ch').1, fun ch' => (gates ch').2, ?_, ?_, ?_,
      sound_snoc history fun _ => valid⟩
    · rw [counts.requested]
      exact tallied history.requested true valid
    · rw [counts.played]
      exact tallied history.played true rfl
    · rw [counts.blocked]
      refine tallied history.blocked false ?_
      rw [CueEvent.refused, valid]
      rfl

theorem gate_history (requests : List CueRequest) :
    GateHistory (trace cueStep .boot requests) (final cueStep .boot requests) := by
  have start : GateHistory [] LraSvc.boot :=
    ⟨fun _ _ none => absurd none List.not_mem_nil, fun _ => .inl rfl, rfl, rfl, rfl,
      fun _ none => absurd none List.not_mem_nil⟩
  have next (past : List CueRequest) (events : List CueEvent) (s : LraSvc) (r : CueRequest)
      (history : GateHistory events s) := gateHistory_step history r
  exact @run_induction _ _ _ cueStep (fun _ events s => GateHistory events s) _ start next requests

/-! ### The bounds -/

/-- A grant is a cue in the limits, after the cooldown of every cue before it. -/
theorem granted_bounded {events : List CueEvent} {s : LraSvc} (history : GateHistory events s)
    {r : CueRequest} (granted : (cueStep s r).2.granted = true) :
    ∃ ch c, r.For ch ∧ (cueStep s r).2.cue ch = some c ∧ c.start = r.nowMs ∧
      c.stop - c.start = min (r.durationMs.toNat : ℤ) 100 ∧ c.start < c.stop ∧
      ∀ before ∈ cues ch events, before.stop + 50 ≤ c.start := by
  rcases cueStep_cases s r with ⟨-, same⟩ | ⟨ch, -, -, stats, -, same⟩ |
    ⟨ch, here, ready, length, some_time, limit, stats, -, same⟩
  · rw [same] at granted
    cases granted
  · rw [same] at granted
    cases granted
  · refine ⟨ch, ⟨r.nowMs, r.nowMs + length.toNat⟩, here, ?_, rfl, ?_, ?_, ?_⟩
    · rw [same, cue_granted, if_pos rfl]
    · dsimp only
      omega
    · have positive : length.toNat ≠ 0 := fun zero => some_time (BitVec.eq_of_toNat_eq zero)
      dsimp only
      omega
    · intro before member
      exact (history.closed ch before member).trans ready

/-- A refusal of some time is due to a cue that is on or has ended less than the cooldown ago. -/
theorem refused_busy {requests : List CueRequest} {r : CueRequest}
    (future : ∀ q ∈ requests ++ [r], 0 ≤ q.nowMs)
    (ordered : (requests ++ [r]).Pairwise fun p q => p.nowMs ≤ q.nowMs) {ch : Fin 2}
    (here : r.For ch) (some_time : r.durationMs ≠ 0)
    (refused : (cueStep (final cueStep .boot requests) r).2.granted = false) :
    ∃ c ∈ cues ch (trace cueStep .boot requests), c.start ≤ r.nowMs ∧ r.nowMs < c.stop + 50 := by
  have history := gate_history requests
  rcases cueStep_cases (final cueStep .boot requests) r with ⟨invalid, -⟩ |
    ⟨ch', here', shut, stats, -, -⟩ | ⟨ch', -, -, length, -, -, stats, -, same⟩
  · rw [valid_of_for here] at invalid
    cases invalid
  · obtain rfl : ch' = ch := Fin.ext (here'.symm.trans here)
    have early := shut.resolve_right some_time
    rcases history.last ch' with open_ | ⟨c, member, ended⟩
    · -- no cue yet: the gate has been open from uptime 0 on
      have now := future r (List.mem_append_right _ List.mem_cons_self)
      omega
    · obtain ⟨e, put, began⟩ := List.mem_filterMap.mp member
      have earlier : e.request ∈ requests := by
        rw [← trace_requests .boot requests]
        exact List.mem_map_of_mem put
      have order := (List.pairwise_append.mp ordered).2.2 _ earlier r List.mem_cons_self
      rw [← cue_start began] at order
      exact ⟨c, member, order, early.trans_eq ended⟩
  · rw [same] at refused
    cases refused

theorem refused_frame {s : LraSvc} {r : CueRequest} (refused : (cueStep s r).2.granted = false) :
    (cueStep s r).1.gate = s.gate ∧ (cueStep s r).2.calls = [] := by
  rcases cueStep_cases s r with ⟨-, same⟩ | ⟨ch, -, -, stats, -, same⟩ |
    ⟨ch, -, -, length, -, -, stats, -, same⟩
  · rw [same]
    exact ⟨rfl, rfl⟩
  · rw [same]
    exact ⟨rfl, rfl⟩
  · rw [same] at refused
    cases refused

theorem cueStep_other (s : LraSvc) {r : CueRequest} {ch : Fin 2} (other : ¬ r.For ch) :
    (cueStep s r).1.gate ch = s.gate ch := by
  rcases cueStep_cases s r with ⟨-, same⟩ | ⟨ch', -, -, stats, -, same⟩ |
    ⟨ch', here, -, length, -, -, stats, -, same⟩
  · rw [same]
  · rw [same]
  · rw [same]
    exact Function.update_of_ne (fun own : ch = ch' => other (own ▸ here)) _ _

/-- **Bounded haptics.** A granted cue is as long as asked for, 100 ms at most, and starts 50 ms
after the end of every earlier cue of its channel or later; a request for some time is refused
in a cue and its cooldown only; a refusal changes no gate, and no request the gate of another
channel; and every request for a channel is counted as played or as blocked. -/
theorem bounded_haptics {requests : List CueRequest} {r : CueRequest}
    (future : ∀ q ∈ requests ++ [r], 0 ≤ q.nowMs)
    (ordered : (requests ++ [r]).Pairwise fun p q => p.nowMs ≤ q.nowMs) :
    let s := final cueStep .boot requests
    let events := trace cueStep .boot requests
    let t := (cueStep s r).1
    let e := (cueStep s r).2
    (e.granted = true → ∃ ch c, r.For ch ∧ e.cue ch = some c ∧ c.start = r.nowMs ∧
      c.stop - c.start = min (r.durationMs.toNat : ℤ) 100 ∧ c.start < c.stop ∧
      ∀ before ∈ cues ch events, before.stop + 50 ≤ c.start) ∧
    (∀ ch, r.For ch → r.durationMs ≠ 0 → e.granted = false →
      ∃ c ∈ cues ch events, c.start ≤ r.nowMs ∧ r.nowMs < c.stop + 50) ∧
    (e.granted = false → t.gate = s.gate ∧ e.calls = []) ∧
    (∀ ch, ¬ r.For ch → t.gate ch = s.gate ch) ∧
    t.stats.requested = t.stats.played + t.stats.blocked ∧
    t.stats.requested = BitVec.ofNat 32 ((requests ++ [r]).countP CueRequest.valid) ∧
    t.stats.played = BitVec.ofNat 32 ((events ++ [e]).countP CueEvent.granted) := by
  intro s events t e
  have history : GateHistory events s := gate_history requests
  have after : GateHistory (events ++ [e]) t := gateHistory_step history r
  have asked : (events ++ [e]).map CueEvent.request = requests ++ [r] := by
    rw [List.map_append, trace_requests]
    rfl
  refine ⟨granted_bounded history,
    fun ch here some_time => refused_busy future ordered here some_time,
    refused_frame, fun ch => cueStep_other s, ?_, ?_, after.played⟩
  · rw [after.requested, after.played, after.blocked, ← BitVec.ofNat_add, valid_split after.sound]
  · rw [after.requested, ← asked, List.countP_map]
    rfl

/-- A long cue, a request in its cooldown, and a short cue at the end of the cooldown. -/
theorem bounded_haptics_cooldown :
    let requests : List CueRequest := [⟨1000, 0, 200, 5000⟩, ⟨1149, 0, 200, 20⟩]
    let r : CueRequest := ⟨1150, 0, 200, 20⟩
    let s := final cueStep .boot requests
    let events := trace cueStep .boot requests
    let t := (cueStep s r).1
    let e := (cueStep s r).2
    (e.granted = true → ∃ ch c, r.For ch ∧ e.cue ch = some c ∧ c.start = r.nowMs ∧
      c.stop - c.start = min (r.durationMs.toNat : ℤ) 100 ∧ c.start < c.stop ∧
      ∀ before ∈ cues ch events, before.stop + 50 ≤ c.start) ∧
    (∀ ch, r.For ch → r.durationMs ≠ 0 → e.granted = false →
      ∃ c ∈ cues ch events, c.start ≤ r.nowMs ∧ r.nowMs < c.stop + 50) ∧
    (e.granted = false → t.gate = s.gate ∧ e.calls = []) ∧
    (∀ ch, ¬ r.For ch → t.gate ch = s.gate ch) ∧
    t.stats.requested = t.stats.played + t.stats.blocked ∧
    t.stats.requested = BitVec.ofNat 32 ((requests ++ [r]).countP CueRequest.valid) ∧
    t.stats.played = BitVec.ofNat 32 ((events ++ [e]).countP CueEvent.granted) :=
  bounded_haptics (by decide) (by decide)

/-- In that run the second request is refused and the third one granted. -/
example : (trace cueStep .boot [⟨1000, 0, 200, 5000⟩, ⟨1149, 0, 200, 20⟩, ⟨1150, 0, 200, 20⟩]).map
    CueEvent.granted = [true, false, true] := by decide

/-! ### The service with its rumble source -/

private theorem gateHistory_cues {events : List CueEvent} {s : LraSvc}
    (history : GateHistory events s) (requests : List CueRequest) :
    GateHistory (events ++ trace cueStep s requests) (final cueStep s requests) := by
  induction requests generalizing events s with
  | nil =>
    rw [trace, List.append_nil]
    exact history
  | cons r rest ih =>
    have later := ih (gateHistory_step history r)
    rw [List.append_assoc] at later
    exact later

/-- Rumble frames and the switch leave the history of the gates as the cues alone would. -/
private theorem gateHistory_lraStep {events : List CueEvent} {s : LraSvc}
    (history : GateHistory events s) (act : LraAct) :
    GateHistory (events ++ (lraStep s act).2) (lraStep s act).1 := by
  cases act with
  | cue r => exact gateHistory_step history r
  | sourceEnable en =>
    rw [lraStep, List.append_nil]
    exact ⟨history.closed, history.last, history.requested, history.played, history.blocked,
      history.sound⟩
  | rumble nowMs rumble =>
    rw [lraStep, lraSvcRumble]
    split
    · exact gateHistory_cues history (rumbleRequests nowMs rumble)
    · rw [List.append_nil]
      exact history

theorem service_history (acts : List LraAct) :
    GateHistory (trace lraStep .boot acts).flatten (final lraStep .boot acts) := by
  have next (past : List LraAct) (outs : List (List CueEvent)) (s : LraSvc) (act : LraAct)
      (history : GateHistory outs.flatten s) :
      GateHistory (outs ++ [(lraStep s act).2]).flatten (lraStep s act).1 := by
    rw [List.flatten_append, List.flatten_singleton]
    exact gateHistory_lraStep history act
  exact @run_induction _ _ _ lraStep (fun _ outs s => GateHistory outs.flatten s) _
    (gate_history []) next acts

/-- **Whatever the calls of the service**, a cue that is granted is in the limits and after the
cooldown of every cue of its channel, those of rumble frames included. -/
theorem service_bounded (acts : List LraAct) {r : CueRequest}
    (granted : (cueStep (final lraStep .boot acts) r).2.granted = true) :
    ∃ ch c, r.For ch ∧ (cueStep (final lraStep .boot acts) r).2.cue ch = some c ∧
      c.start = r.nowMs ∧ c.stop - c.start = min (r.durationMs.toNat : ℤ) 100 ∧
      c.start < c.stop ∧
      ∀ before ∈ cues ch (trace lraStep .boot acts).flatten, before.stop + 50 ≤ c.start :=
  granted_bounded (service_history acts) granted

theorem sourceEn_cueStep (s : LraSvc) (r : CueRequest) :
    (cueStep s r).1.sourceEn = s.sourceEn := by
  rcases cueStep_cases s r with ⟨-, same⟩ | ⟨ch, -, -, stats, -, same⟩ |
    ⟨ch, -, -, granted, -, -, stats, -, same⟩
  all_goals rw [same]

/-- Until the source is switched on, rumble frames do nothing. -/
theorem rumble_disabled {acts : List LraAct} (off : ∀ act ∈ acts, act ≠ .sourceEnable true)
    (nowMs : Fin 2 → ℤ) (rumble : Bytes 2) :
    lraSvcRumble (final lraStep .boot acts) nowMs rumble = (final lraStep .boot acts, []) := by
  have next (s : LraSvc) (act : LraAct) (kept : act ≠ .sourceEnable true)
      (disabled : s.sourceEn = false) : (lraStep s act).1.sourceEn = false := by
    cases act with
    | cue r => exact (sourceEn_cueStep s r).trans disabled
    | sourceEnable en =>
      cases en with
      | false => rfl
      | true => exact absurd rfl kept
    | rumble nowMs rumble =>
      rw [lraStep, lraSvcRumble, disabled]
      exact disabled
  have disabled : (final lraStep .boot acts).sourceEn = false :=
    final_invariant lraStep (I := fun s => s.sourceEn = false) rfl next acts off
  rw [lraSvcRumble, disabled]
  rfl

end FanatecWheel.App
