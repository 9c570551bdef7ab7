import FanatecWheel.BaseSim.Panel
import FanatecWheel.Properties.DisplayText
import FanatecWheel.Properties.RxHandoff
import FanatecWheel.Properties.SimReconcile

/-!
# The rim shows what was entered

What reaches the outputs are panels that undamaged transactions sent, in that order and none
of them mixed. The queue may drop older ones, which it counts; when it is empty the rim shows
the panel that was sent last. A frame that comes before the services are initialised costs the
text, until the display changes.
-/

namespace FanatecWheel.BaseSim

open Foundation Rimlink App

/-! ### Glyphs there and back -/

private theorem segText_entry : ∀ entry ∈ seg7Map, segText entry.1 = [entry.2] := by decide

/-- A character entered is seen as its glyph, without a dot. -/
theorem segText_fromAscii (c : Char) : segText (seg7FromAscii c) = [shownChar c] := by
  unfold seg7FromAscii shownChar
  -- both functions read a 5 as an S first
  generalize (if c = '5' then 'S' else c) = c
  dsimp only
  cases found : seg7Map.find? fun entry => entry.2 = c with
  | some entry =>
    have member := List.mem_of_find?_eq_some found
    have same : entry.2 = c := by simpa using List.find?_some found
    have known : c ∈ seg7Map.map Prod.snd := same ▸ List.mem_map_of_mem member
    rw [if_pos known]
    exact same ▸ segText_entry entry member
  | none =>
    have unknown : c ∉ seg7Map.map Prod.snd := by
      intro known
      obtain ⟨entry, member, same⟩ := List.mem_map.mp known
      have other := List.find?_eq_none.mp found entry member
      exact other (decide_eq_true same)
    rw [if_neg unknown]
    decide

/-- Entering and looking commute. -/
theorem panelOf_enter (out : BaseOutputs) (cmd : SimCmd) :
    panelOf (enter out cmd) = (panelOf out).enter cmd := by
  cases cmd with
  | disp txt =>
    have glyph (i : ℕ) : segText (((txt.getD [])[i]?.map seg7FromAscii).getD 0) =
        [((txt.getD [])[i]?.map shownChar).getD ' '] := by
      cases (txt.getD [])[i]? with
      | none => decide
      | some c => exact segText_fromAscii c
    have text : displayText (enter out (.disp txt)).disp =
        (List.range 3).map fun i => ((txt.getD [])[i]?.map shownChar).getD ' ' := by
      have parts := congrArg₂ List.append (congrArg₂ List.append (glyph 0) (glyph 1)) (glyph 2)
      exact parts
    exact congrArg (fun text => ({ panelOf out with text } : Panel)) text
  | leds v => rfl
  | rumble b0 b1 => rfl
  | fault mode n => rfl
  | profile args => rfl

theorem panelOf_zero : panelOf ⟨fun _ => 0, 0, fun _ => 0⟩ = .blank := by
  have dark : displayText (fun _ => 0) = [' ', ' ', ' '] := by decide
  rw [panelOf, dark]
  rfl

/-- What is entered is seen in the frame held for sending. -/
theorem sender_entered (events : List LinkEvent) :
    (sender events).entered = panelOf (lastEntered events) := by
  induction events using List.reverseRecOn with
  | nil => exact panelOf_zero.symm
  | append_singleton events e ih =>
    rw [sender_snoc, lastEntered, List.foldl_append, List.foldl_cons, List.foldl_nil, ← lastEntered]
    cases e with
    | entered cmd => rw [Sender.after, ih, panelOf_enter]
    | transacted len injected decoded =>
      rw [Sender.after]
      split <;> exact ih
    | silent => exact ih

/-! ### Runs -/

/-- The steps of the link. -/
def linkEvents (events : List PanelEvent) : List LinkEvent := events.flatMap fun e => e.link.toList

/-- The frames the output service was given. -/
def shownFrames (events : List PanelEvent) : List (ℤ × BaseOutputs) :=
  events.flatMap PanelEvent.shown

/-- The panels of these frames, oldest first. -/
def shownPanels (events : List PanelEvent) : List Panel :=
  (shownFrames events).map fun frame => panelOf frame.2

/-- What the undamaged transactions sent, oldest first. -/
def sentPanels (events : List PanelEvent) : List Panel := (sender (linkEvents events)).sent

/-- The frames that wait for the work handler. -/
def PanelLink.queued (s : PanelLink) : List BaseOutputs := s.link.rim.msgq.items

private theorem linkEvents_snoc (events : List PanelEvent) (e : PanelEvent) :
    linkEvents (events ++ [e]) = linkEvents events ++ e.link.toList := by
  rw [linkEvents, List.flatMap_append, List.flatMap_singleton, linkEvents]

private theorem shownFrames_snoc (events : List PanelEvent) (e : PanelEvent) :
    shownFrames (events ++ [e]) = shownFrames events ++ e.shown := by
  rw [shownFrames, List.flatMap_append, List.flatMap_singleton, shownFrames]

/-! ### Frames before the initialisation -/

/-- The frames that reached the output service before `services_init` and after it. -/
structure Reception where
  early : List (ℤ × BaseOutputs)
  late : List (ℤ × BaseOutputs)
  initialised : Bool

def Reception.after (r : Reception) (e : PanelEvent) : Reception :=
  match e.link with
  | none => { r with initialised := true }
  | some _ =>
    if r.initialised then { r with late := r.late ++ e.shown }
    else { r with early := r.early ++ e.shown }

def reception (events : List PanelEvent) : Reception :=
  events.foldl Reception.after ⟨[], [], false⟩

theorem reception_snoc (events : List PanelEvent) (e : PanelEvent) :
    reception (events ++ [e]) = (reception events).after e := List.foldl_append

theorem reception_late (events : List PanelEvent)
    (waiting : (reception events).initialised = false) : (reception events).late = [] := by
  induction events using List.reverseRecOn with
  | nil => rfl
  | append_singleton events e ih =>
    rw [reception_snoc, Reception.after] at waiting ⊢
    cases linked : e.link with
    | none =>
      rw [linked] at waiting
      cases waiting
    | some _ =>
      simp only [linked] at waiting ⊢
      split at waiting
      next ready =>
        rw [ready] at waiting
        cases waiting
      next unready =>
        rw [if_neg unready]
        exact ih waiting

/-- The text is that of the display: no frame was early, or a later one changed the display. -/
def TextDue (r : Reception) : Prop :=
  r.early = [] ∨ ∃ frame ∈ r.late, frame.2.disp ≠ (displays r.early).getLastD noDisplay

/-- The outputs are those of the panel `p`, and so is the text when it is due; else it is blank. -/
structure Shows (due : Prop) (shown p : Panel) : Prop where
  leds : shown.leds = p.leds
  rumble : shown.rumble = p.rumble
  text : due → shown.text = p.text
  blank : ¬ due → shown.text = Panel.blank.text

/-- The service after its frames. -/
def served (mirror : Bool) (r : Reception) : OutputSvc :=
  let early := final (outputStep mirror) .boot r.early
  if r.initialised then final (outputStep mirror) (outputSvcInit mirror 0 early).1 r.late else early

/-- The panel of the last of some frames. -/
private theorem last_panel (frames : List (ℤ × BaseOutputs)) :
    (frames.map fun frame => panelOf frame.2).getLastD .blank =
      ⟨displayText ((displays frames).getLastD noDisplay), (ledWords frames).getLastD 0,
        (rumbles frames).getLastD noRumble⟩ := by
  rcases List.eq_nil_or_concat' frames with rfl | ⟨before, frame, rfl⟩
  · exact panelOf_zero.symm
  · simp only [displays, ledWords, rumbles, List.map_append, List.map_cons, List.map_nil,
      List.getLastD_concat, panelOf]

theorem served_shows (mirror : Bool) {r : Reception} (ready : r.initialised = true) :
    Shows (TextDue r) (svcPanel (served mirror r))
      (((r.early ++ r.late).map fun frame => panelOf frame.2).getLastD .blank) := by
  let early := final (outputStep mirror) .boot r.early
  let start := (outputSvcInit mirror 0 early).1
  have ended : served mirror r = final (outputStep mirror) start r.late := if_pos ready
  have before : OutputHistory r.early start :=
    outputHistory_init (outputHistory_frames outputHistory_boot mirror r.early) mirror 0
  have history := outputHistory_frames before mirror r.late
  have blank : cString start.text = Panel.blank.text := by
    rw [show start = _ from outputSvcInit_eq mirror 0 early, cString_blankText]
    rfl
  rw [ended, last_panel, ← history.prevDisp, ← history.ledsLast, ← history.rumbleLast]
  refine ⟨rfl, rfl, fun due => text_shown mirror ?_, fun idle => ?_⟩
  · rw [before.prevDisp]
    refine due.imp_left fun none => ?_
    -- no frame was early, and the display is dark as the text says
    rw [blank, none]
    decide
  · rw [TextDue, not_or] at idle
    push Not at idle
    rw [← before.prevDisp] at idle
    exact (congrArg cString (text_kept mirror idle.2).2).trans blank

/-! ### One step -/

/-- What was shown or waits, against what was sent. -/
structure Mirrored (sent shown : List Panel) (rim : Adapter) : Prop where
  kept : KeepsNewest (shown ++ rim.msgq.items.map panelOf) sent
  counted : BitVec.ofNat 32 sent.length =
    BitVec.ofNat 32 (shown.length + rim.msgq.items.length) + rim.lnk.stats.overrun

section Steps

variable {sent shown : List Panel} {rim : Adapter}

private theorem mirrored_same (held : Mirrored sent shown rim) {rim' : Adapter}
    (queue : rim'.msgq = rim.msgq) (overrun : rim'.lnk.stats.overrun = rim.lnk.stats.overrun) :
    Mirrored sent shown rim' := by
  constructor
  · rw [queue]
    exact held.kept
  · rw [queue, overrun]
    exact held.counted

/-- A frame more, and one that waited fewer if the queue was full. -/
private theorem mirrored_submit (held : Mirrored sent shown rim) {frame : Frame} {len : ℕ}
    (cycle : U32) {out : BaseOutputs} (handed : (rxReceive rim frame len cycle).2 = some out) :
    Mirrored (sent ++ [panelOf out]) shown (rxSubmit rim frame len cycle) := by
  obtain ⟨queue, overrun⟩ := rxSubmit_queues rim cycle handed
  have before := held.kept.sublist
  have bound := rim.msgq.bounded
  constructor
  · rw [queue, List.map_append, ← List.append_assoc]
    refine KeepsNewest.snoc (List.Sublist.trans ?_ before) (panelOf out)
    refine List.Sublist.append_left (List.Sublist.map _ ?_) shown
    -- a full queue drops its oldest frame
    split
    · exact List.Sublist.refl _
    · exact List.tail_sublist _
  · rw [queue, overrun, List.length_append, List.length_append, List.length_singleton,
      List.length_singleton, count_succ sent.length, held.counted]
    split
    · have longer : shown.length + (rim.msgq.items.length + 1) =
          shown.length + rim.msgq.items.length + 1 := rfl
      rw [longer, count_succ (_ + _), show rim.lnk.stats.overrun + 0 = _ from BitVec.add_zero _]
      ac_rfl
    next full =>
      have one : rim.msgq.items.tail.length + 1 = rim.msgq.items.length := by
        rw [List.length_tail]
        omega
      rw [one]
      exact BitVec.add_assoc _ _ _

/-- The work handler shows what waited. -/
private theorem mirrored_drain (held : Mirrored sent shown rim) {rim' : Adapter}
    (queue : rim'.msgq.items = []) (overrun : rim'.lnk.stats.overrun = rim.lnk.stats.overrun) :
    Mirrored sent (shown ++ rim.msgq.items.map panelOf) rim' := by
  constructor
  · rw [queue, List.map_nil, List.append_nil]
    exact held.kept
  · rw [queue, overrun, List.length_append, List.length_map, List.length_nil, Nat.add_zero]
    exact held.counted

/-- What a step of the link means for the outputs: a transaction, a run of the work handler, or
nothing. -/
private theorem link_step_cases {s t : IdealLink} {act : LinkAct} {e : LinkEvent}
    (stepped : s.step act = some (t, e)) :
    (∃ index fill cycle, act = .transact fill cycle ∧ t = s.transact index fill cycle ∧
      e = .transacted s.sim.txnLen s.sim.injected (s.decoded cycle)) ∨
    (∃ now cycle, act = .rim ⟨.rxWork, now, cycle⟩ ∧ t.rim = (rxWorkHandler s.rim).1 ∧
      e = .silent) ∨
    ((∀ now cycle, act ≠ .rim ⟨.rxWork, now, cycle⟩) ∧ t.rim.rxSide = s.rim.rxSide ∧
      ∀ p : Sender, (p.after e).sent = p.sent) := by
  cases act with
  | arm now cycle =>
    simp only [IdealLink.step] at stepped
    split at stepped <;> cases stepped
    exact .inr (.inr ⟨fun _ _ => by rintro ⟨⟩, txAcquire_rxSide s.rim now cycle, fun _ => rfl⟩)
  | transact fill cycle =>
    simp only [IdealLink.step] at stepped
    split at stepped
    · cases stepped
    next index _ =>
      cases stepped
      exact .inl ⟨index, fill, cycle, rfl, rfl, rfl⟩
  | command cmd =>
    cases stepped
    exact .inr (.inr ⟨fun _ _ => by rintro ⟨⟩, rfl, fun _ => rfl⟩)
  | rim c =>
    simp only [IdealLink.step] at stepped
    split at stepped
    · cases stepped
    · cases stepped
    · cases stepped
    next acquire receive reset =>
      cases stepped
      by_cases work : c.op = .rxWork
      · refine .inr (.inl ⟨c.now, c.cycle, by rw [← work], ?_, rfl⟩)
        simp only [Rimlink.step, work]
      · refine .inr (.inr ⟨fun now cycle same => work ?_, step_rxSide s.rim c receive work reset,
          fun _ => rfl⟩)
        cases same
        rfl

end Steps

/-! ### Runs -/

section Runs

variable {mirror : Bool} {id : RimId} {now : ℤ} {clockHz cadenceUs jitterUs flushBytes : U32}
  {events : List PanelEvent} {s : PanelLink}

variable (mirror id now clockHz cadenceUs jitterUs flushBytes) in
/-- What holds after every event. -/
structure PanelInv (events : List PanelEvent) (s : PanelLink) : Prop where
  link : (linkMachine id now clockHz cadenceUs jitterUs flushBytes).Reaches (linkEvents events) s.link
  callback : s.link.rim.lnk.hasRxCb = true
  initialised : (reception events).initialised = s.ready
  frames : shownFrames events = (reception events).early ++ (reception events).late
  service : s.svc = served mirror (reception events)
  mirrored : Mirrored (sentPanels events) (shownPanels events) s.link.rim

/-- The callback stays, and what was shown or waits follows what was sent. -/
private def Follows (events : List PanelEvent) (s : PanelLink) (act : LinkAct) (e : LinkEvent)
    (rim : Adapter) : Prop :=
  rim.lnk.hasRxCb = true ∧ Mirrored ((sender (linkEvents events)).after e).sent
    (shownPanels events ++ (s.delivered act).map fun frame => panelOf frame.2) rim

private theorem follows_transact
    (inv : PanelInv mirror id now clockHz cadenceUs jitterUs flushBytes events s) (index : Fin 2)
    (fill : Bytes 41) (cycle : U32)
    (reached : (linkMachine id now clockHz cadenceUs jitterUs flushBytes).Reaches
      (linkEvents events ++
        [.transacted s.link.sim.txnLen s.link.sim.injected (s.link.decoded cycle)])
      (s.link.transact index fill cycle)) :
    Follows events s (.transact fill cycle)
      (.transacted s.link.sim.txnLen s.link.sim.injected (s.link.decoded cycle))
      (s.link.transact index fill cycle).rim := by
  let count := min s.link.sim.txnLen 33
  let frame := s.link.received count s.link.sim.mosiTxn
  have silent : s.delivered (.transact fill cycle) = [] := rfl
  rw [Follows, silent, List.map_nil, List.append_nil]
  constructor
  · obtain ⟨msgq, workq, overrun, handed⟩ := rxSubmit_handsOver s.link.rim cycle frame count
    have kept := (rxReceive_queues s.link.rim cycle frame count).2.2
    simp only [IdealLink.transact, handed, kept, inv.callback, frame, count]
  · by_cases damaged : s.link.sim.injected = .crc ∨ s.link.sim.injected = .trunc
    · -- nothing was sent that counts, and nothing is handed over
      obtain ⟨queue, overrun⟩ := rxSubmit_discards s.link.rim cycle
        (decoded_damaged (reconciled_run inv.link) cycle damaged)
      rw [Sender.after, if_pos damaged]
      exact mirrored_same inv.mirrored queue overrun
    · rw [Sender.after, if_neg damaged, sender_entered]
      simp only [not_or] at damaged
      have faithful := (reconciled_run reached).faithful _ _ [] rfl
      exact mirrored_submit inv.mirrored cycle (faithful.2.2 damaged.1 damaged.2)

private theorem follows_handler
    (inv : PanelInv mirror id now clockHz cadenceUs jitterUs flushBytes events s) (time : ℤ)
    (cycle : U32) :
    Follows events s (.rim ⟨.rxWork, time, cycle⟩) .silent (rxWorkHandler s.link.rim).1 := by
  have items : s.delivered (.rim ⟨.rxWork, time, cycle⟩) =
      s.link.rim.msgq.items.map fun out => (time, out) := by
    simp only [PanelLink.delivered, inv.callback, if_true, (rxWorkHandler_all _).1]
  obtain ⟨q, same⟩ := rxWorkLoop_frame 5 s.link.rim
  have lnk : (rxWorkHandler s.link.rim).1.lnk = s.link.rim.lnk := by
    rw [rxWorkHandler, same]
  rw [Follows, items, List.map_map, lnk]
  exact ⟨inv.callback, mirrored_drain inv.mirrored (rxWorkHandler_all _).2
    (congrArg (·.stats.overrun) lnk)⟩

private theorem follows_other
    (inv : PanelInv mirror id now clockHz cadenceUs jitterUs flushBytes events s) {act : LinkAct}
    {e : LinkEvent} {rim : Adapter} (other : ∀ now cycle, act ≠ .rim ⟨.rxWork, now, cycle⟩)
    (side : rim.rxSide = s.link.rim.rxSide) (unsent : ∀ p : Sender, (p.after e).sent = p.sent) :
    Follows events s act e rim := by
  have silent : s.delivered act = [] := by
    unfold PanelLink.delivered
    split
    next time cycle => exact absurd rfl (other time cycle)
    · rfl
  rw [Follows, silent, List.map_nil, List.append_nil, unsent]
  exact ⟨(congrArg RxSide.hasRxCb side).trans inv.callback,
    mirrored_same inv.mirrored (congrArg RxSide.msgq side) (congrArg RxSide.overrun side)⟩

/-- A step of the link, with the frames it delivered. -/
private theorem panelInv_link
    (inv : PanelInv mirror id now clockHz cadenceUs jitterUs flushBytes events s) {act : LinkAct}
    {link : IdealLink} {e : LinkEvent} (moved : s.link.step act = some (link, e)) :
    PanelInv mirror id now clockHz cadenceUs jitterUs flushBytes
      (events ++ [⟨some e, s.delivered act⟩])
      { s with link, svc := final (outputStep mirror) s.svc (s.delivered act) } := by
  have reached := inv.link.next trivial moved
  have follows : Follows events s act e link.rim := by
    rcases link_step_cases moved with ⟨index, fill, cycle, rfl, rfl, rfl⟩ |
      ⟨time, cycle, rfl, drained, rfl⟩ | ⟨other, side, unsent⟩
    · exact follows_transact inv index fill cycle reached
    · exact drained ▸ follows_handler inv time cycle
    · exact follows_other inv other side unsent
  have late := reception_snoc events ⟨some e, s.delivered act⟩
  simp only [Reception.after] at late
  refine ⟨?_, follows.1, ?_, ?_, ?_, ?_⟩
  · rw [linkEvents_snoc]
    exact reached
  · rw [late, apply_ite Reception.initialised, ite_self]
    exact inv.initialised
  · rw [shownFrames_snoc, inv.frames, late]
    split
    · exact List.append_assoc _ _ _
    next unready =>
      -- before the initialisation no frame is late
      rw [reception_late events (by simpa using unready), List.append_nil, List.append_nil]
  · rw [late, inv.service, served, served]
    split <;> simp only [final_append]
  · rw [sentPanels, linkEvents_snoc, Option.toList_some, sender_snoc, shownPanels,
      shownFrames_snoc, List.map_append]
    exact follows.2

private theorem panelInv_step
    (inv : PanelInv mirror id now clockHz cadenceUs jitterUs flushBytes events s) {t : PanelLink}
    {act : PanelAct} {e : PanelEvent} (stepped : s.step mirror act = some (t, e)) :
    PanelInv mirror id now clockHz cadenceUs jitterUs flushBytes (events ++ [e]) t := by
  cases act with
  | servicesInit =>
    simp only [PanelLink.step] at stepped
    split at stepped
    · cases stepped
    next unready =>
      cases stepped
      have waiting : (reception events).initialised = false :=
        inv.initialised.trans (by simpa using unready)
      have links : linkEvents (events ++ [⟨none, []⟩]) = linkEvents events := by
        rw [linkEvents_snoc]
        exact List.append_nil _
      have frames : shownFrames (events ++ [⟨none, []⟩]) = shownFrames events := by
        rw [shownFrames_snoc, List.append_nil]
      refine ⟨?_, inv.callback, ?_, ?_, ?_, ?_⟩
      · rw [links]
        exact inv.link
      · rw [reception_snoc]
        rfl
      · rw [frames, reception_snoc]
        exact inv.frames
      · -- the frames so far were early ones, and none is late
        rw [reception_snoc, inv.service]
        simp only [Reception.after, served, waiting, reception_late events waiting, if_true,
          Bool.false_eq_true, if_false]
        rfl
      · rw [sentPanels, links, shownPanels, frames]
        exact inv.mirrored
  | link act =>
    simp only [PanelLink.step, Option.map_eq_some_iff, Prod.mk.injEq] at stepped
    obtain ⟨⟨link, e⟩, moved, rfl, rfl⟩ := stepped
    exact panelInv_link inv moved

theorem panel_inv
    (reached : (panelMachine mirror id now clockHz cadenceUs jitterUs flushBytes).Reaches events s) :
    PanelInv mirror id now clockHz cadenceUs jitterUs flushBytes events s := by
  refine Machine.ReachesBy.induct
    (P := PanelInv mirror id now clockHz cadenceUs jitterUs flushBytes) ?_
    (fun _ _ _ _ _ inv _ stepped => panelInv_step inv stepped) reached
  exact ⟨.start, rfl, rfl, rfl, rfl, ⟨rfl, List.Sublist.refl _⟩, rfl⟩

/-- **The rim shows what was entered.** In every run the panels that reach the output service are
panels that undamaged transactions sent, in that order; what was sent and did not reach it waits
or was counted as overrun; once the services are initialised the rim shows the panel that
reached it last; and after every run of the work handler that is the one that was sent last. -/
theorem panel_refines
    (reached : (panelMachine mirror id now clockHz cadenceUs jitterUs flushBytes).Reaches events s) :
    (shownPanels events).Sublist (sentPanels events) ∧
    BitVec.ofNat 32 (sentPanels events).length =
      BitVec.ofNat 32 ((shownPanels events).length + s.queued.length) +
        s.link.rim.lnk.stats.overrun ∧
    (s.ready = true →
      Shows (TextDue (reception events)) (svcPanel s.svc) ((shownPanels events).getLastD .blank)) ∧
    ∀ time cycle t e, s.step mirror (.link (.rim ⟨.rxWork, time, cycle⟩)) = some (t, e) →
      t.ready = true → Shows (TextDue (reception (events ++ [e]))) (svcPanel t.svc)
        ((sentPanels events).getLastD .blank) := by
  have inv := panel_inv reached
  have seen {events : List PanelEvent} {s : PanelLink}
      (inv : PanelInv mirror id now clockHz cadenceUs jitterUs flushBytes events s)
      (ready : s.ready = true) : Shows (TextDue (reception events)) (svcPanel s.svc)
        ((shownPanels events).getLastD .blank) := by
    rw [inv.service, shownPanels, inv.frames]
    exact served_shows mirror (inv.initialised.trans ready)
  refine ⟨(List.sublist_append_left _ _).trans inv.mirrored.kept.sublist, inv.mirrored.counted,
    seen inv, fun time cycle t e stepped ready => ?_⟩
  have after := panelInv_step inv stepped
  -- the handler has emptied the queue, and sent nothing
  have handled : t.link.rim.msgq.items = [] ∧ e.link = some .silent := by
    simp only [PanelLink.step, IdealLink.step, Rimlink.step, Option.map_some, Option.some.injEq,
      Prod.mk.injEq] at stepped
    obtain ⟨rfl, rfl⟩ := stepped
    exact ⟨(rxWorkHandler_all _).2, rfl⟩
  have last := after.mirrored.kept.last
  rw [handled.1, List.map_nil, List.append_nil] at last
  have sent : sentPanels (events ++ [e]) = sentPanels events := by
    rw [sentPanels, linkEvents_snoc, handled.2, Option.toList_some, sender_snoc]
    rfl
  have shows := seen after ready
  rwa [List.getLastD_eq_getLast?, last, sent, ← List.getLastD_eq_getLast?] at shows

end Runs

/-- `P5!` is entered, and a frame sent that comes before the services are initialised or after. -/
def panelRun (early : Bool) : List PanelAct :=
  let frame : List PanelAct := [.link (.arm 0 0), .link (.transact (fun _ => 0) 0),
    .link (.rim ⟨.rxWork, 1, 0⟩)]
  .link (.command (.disp (some ['P', '5', '!']))) ::
    if early then frame ++ [.servicesInit] else .servicesInit :: frame

def panelBench : Machine PanelLink PanelAct PanelEvent := panelMachine false 3 0 500000 2000 0 0

theorem panel_refines_run :
    (∃ events s, panelBench.run panelBench.start (panelRun false) = some (s, events) ∧
      (svcPanel s.svc).text = ['P', 'S', ' ']) ∧
    ∃ events s, panelBench.run panelBench.start (panelRun true) = some (s, events) ∧
      (svcPanel s.svc).text = [' ', ' ', ' '] := by
  constructor
  · have ran : (panelBench.run panelBench.start (panelRun false)).map (fun (s, events) =>
        (s.ready, (reception events).early.length, (shownPanels events).map Panel.text)) =
        some (true, 0, [['P', 'S', ' ']]) := by
      decide +kernel
    obtain ⟨⟨s, events⟩, reached, fields⟩ := Option.map_eq_some_iff.mp ran
    simp only [Prod.mk.injEq] at fields
    obtain ⟨panel, shown⟩ := List.map_eq_singleton_iff.mp fields.2.2
    have shows := (panel_refines (Machine.reaches_of_run reached)).2.2.1 fields.1
    have text := shows.text (.inl (List.length_eq_zero_iff.mp fields.2.1))
    rw [shown.1] at text
    exact ⟨events, s, reached, text.trans shown.2⟩
  -- a frame that comes early changes the display, and its text is overwritten
  · have ran : (panelBench.run panelBench.start (panelRun true)).map (fun (s, events) =>
        (s.ready, (reception events).early.length, (reception events).late.length)) =
        some (true, 1, 0) := by
      decide +kernel
    obtain ⟨⟨s, events⟩, reached, fields⟩ := Option.map_eq_some_iff.mp ran
    simp only [Prod.mk.injEq] at fields
    have shows := (panel_refines (Machine.reaches_of_run reached)).2.2.1 fields.1
    refine ⟨events, s, reached, shows.blank ?_⟩
    rintro (none | ⟨frame, member, -⟩)
    · rw [none] at fields
      exact absurd fields.2.1 (by decide)
    · rw [List.length_eq_zero_iff.mp fields.2.2] at member
      cases member

end FanatecWheel.BaseSim
