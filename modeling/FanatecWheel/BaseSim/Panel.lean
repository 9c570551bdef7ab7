import FanatecWheel.BaseSim.IdealLink
import FanatecWheel.App.OutputSvc

/-!
# From the simulator's shell to the rim's outputs

What somebody at the simulator enters and what somebody at the rim sees, as one text, one
word of LEDs and two rumble bytes. Under it the ideal link with the output service behind
the callback of the rim.
-/

namespace FanatecWheel.BaseSim

open Foundation Rimlink App

/-! ### What is meant -/

/-- The text, the LEDs and the rumble bytes. -/
structure Panel where
  text : Text
  leds : U16
  rumble : Bytes 2

def Panel.blank : Panel := ⟨[' ', ' ', ' '], 0, fun _ => 0⟩

/-- What a character entered looks like: `5` is an `S`, an unsupported one is blank. -/
def shownChar (c : Char) : Char :=
  let c := if c = '5' then 'S' else c
  if c ∈ seg7Map.map Prod.snd then c else ' '

/-- A command: three characters of text, or fewer and blanks. -/
def Panel.enter (p : Panel) : SimCmd → Panel
  | .disp txt =>
    { p with text := (List.range 3).map fun i => ((txt.getD [])[i]?.map shownChar).getD ' ' }
  | .leds v => { p with leds := v.setWidth 16 }
  | .rumble b0 b1 => { p with rumble := ![b0.setWidth 8, b1.setWidth 8] }
  | .fault _ _ | .profile _ => p

/-- What is entered now, and what the undamaged transactions sent, oldest first. -/
structure Sender where
  entered : Panel
  sent : List Panel

def Sender.start : Sender := ⟨.blank, []⟩

def Sender.after (s : Sender) : LinkEvent → Sender
  | .entered cmd => { s with entered := s.entered.enter cmd }
  | .transacted _ injected _ =>
    if injected = .crc ∨ injected = .trunc then s else { s with sent := s.sent ++ [s.entered] }
  | .silent => s

/-- The sender after some events of the link. -/
def sender (events : List LinkEvent) : Sender := events.foldl Sender.after .start

theorem sender_snoc (events : List LinkEvent) (e : LinkEvent) :
    sender (events ++ [e]) = (sender events).after e := List.foldl_append

/-! ### What the rim does -/

/-- The outputs as they are seen. -/
def panelOf (out : BaseOutputs) : Panel := ⟨displayText out.disp, out.leds, out.rumble⟩

/-- What the output service shows. -/
def svcPanel (svc : OutputSvc) : Panel := ⟨cString svc.text, svc.stats.ledsLast, svc.stats.rumbleLast⟩

/-- Both ends of the link and the output service, and whether `services_init` has run. -/
structure PanelLink where
  link : IdealLink
  svc : OutputSvc
  ready : Bool

/-- A step of the link, or `none` for `services_init`, and the frames that reached the output
service. -/
structure PanelEvent where
  link : Option LinkEvent
  shown : List (ℤ × BaseOutputs)

inductive PanelAct
  | servicesInit
  | link (act : LinkAct)

namespace PanelLink

variable (mirror : Bool) (s : PanelLink)

/-- What the work handler passes to the callback. -/
def delivered : LinkAct → List (ℤ × BaseOutputs)
  | .rim ⟨.rxWork, now, _⟩ =>
    if s.link.rim.lnk.hasRxCb then (rxWorkHandler s.link.rim).2.map fun out => (now, out) else []
  | _ => []

/-- The callback is there from the start: a frame may reach the service before `services_init`,
which is one step. -/
def step : PanelAct → Option (PanelLink × PanelEvent)
  | .servicesInit =>
    if s.ready then none
    else some ({ s with svc := (outputSvcInit mirror 0 s.svc).1, ready := true }, ⟨none, []⟩)
  | .link act =>
    (s.link.step act).map fun (link, e) =>
      ({ s with
        link
        svc := final (fun svc frame => outputSvcRx mirror svc frame.1 frame.2) s.svc
          (s.delivered act) }, ⟨some e, s.delivered act⟩)

end PanelLink

def panelMachine (mirror : Bool) (id : RimId) (now : ℤ)
    (clockHz cadenceUs jitterUs flushBytes : U32) : Machine PanelLink PanelAct PanelEvent where
  start := ⟨(linkMachine id now clockHz cadenceUs jitterUs flushBytes).start, .boot, false⟩
  step := PanelLink.step mirror

end FanatecWheel.BaseSim
