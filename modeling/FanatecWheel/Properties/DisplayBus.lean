import FanatecWheel.App.Tm1637
import FanatecWheel.Properties.DisplayMirror
import FanatecWheel.Properties.DisplayText

/-!
# The display at the end of the bus

What the module on the two wires shows is what the output service last wrote: the driver's writes
are heard as the messages they stand for, for every sequence of frames.
-/

namespace FanatecWheel.App

open Foundation Rimlink

/-- The display module: whether the address counts up, four digits, and the display control. -/
structure DisplayModule where
  auto : Bool
  digits : Bytes 4
  control : U8

/-- Before the first message. -/
def DisplayModule.off : DisplayModule := ⟨false, fun _ => 0, 0⟩

/-- A message: a data command, an address command with the digits from that address on, or the
display control. -/
def DisplayModule.obey (d : DisplayModule) : List U8 → DisplayModule
  | [] => d
  | cmd :: data =>
    if cmd &&& 0xC0 = cmdDataAuto then { d with auto := cmd = cmdDataAuto }
    else if cmd &&& 0xC0 = cmdAddrBase then
      let first := (cmd &&& 0x3F).toNat
      let written := if d.auto then data else data.take 1
      { d with digits := fun k =>
          if first ≤ k.val then (written[k.val - first]?).getD (d.digits k) else d.digits k }
    else if cmd &&& 0xC0 = cmdDispCtrl then { d with control := cmd }
    else d

/-- The module after the messages it received. -/
def displayAfter (messages : List (List U8)) : DisplayModule :=
  messages.foldl DisplayModule.obey .off

/-- The writes behind a call of the output service. -/
def OutputCall.wireOps : OutputCall → List WireOp
  | .tm1637SetSegments seg => App.tm1637SetSegments seg
  | _ => []

/-- The messages behind a call of the output service. -/
def OutputCall.messages : OutputCall → List (List U8)
  | .tm1637SetSegments seg => segmentMessages seg
  | _ => []

/-- The calls from `output_svc_init` on, whose result of `tm1637_init` was zero. -/
def displayCalls (frames : List (ℤ × BaseOutputs)) : List OutputCall :=
  let (svc, _, calls) := outputSvcInit true 0 .boot
  calls ++ (trace (outputStep true) svc frames).flatten

theorem wireOps_eq (call : OutputCall) :
    call.wireOps = call.messages.flatMap Listener.sendMessage := by
  cases call with
  | tm1637SetSegments seg => exact tm1637SetSegments_eq seg
  | _ => rfl

theorem wireOps_calls (calls : List OutputCall) : calls.flatMap OutputCall.wireOps =
    (calls.flatMap OutputCall.messages).flatMap Listener.sendMessage := by
  rw [List.flatMap_assoc]
  exact congrArg (List.flatMap · calls) (funext wireOps_eq)

/-- Writing all digits shows them, whatever was shown. -/
theorem obey_segments (d : DisplayModule) (seg : Bytes 4) :
    (segmentMessages seg).foldl DisplayModule.obey d = { d with auto := true, digits := seg } := by
  have whole : (fun k : Fin 4 => ([seg 0, seg 1, seg 2, seg 3][k.val - 0]?).getD (d.digits k)) =
      seg := by
    funext k
    fin_cases k <;> rfl
  simp only [segmentMessages, List.foldl_cons, List.foldl_nil]
  exact congrArg (fun digits => ({ d with auto := true, digits } : DisplayModule)) whole

/-- The digits are those of the last write, and nothing else moves. -/
theorem obey_calls (d : DisplayModule) (shown : Option (Bytes 4))
    (agree : ∀ seg ∈ shown, d.digits = seg) (calls : List OutputCall) :
    let after := (calls.flatMap OutputCall.messages).foldl DisplayModule.obey d
    (∀ seg ∈ lastSegments shown calls, after.digits = seg) ∧ after.control = d.control := by
  induction calls generalizing d shown with
  | nil => exact ⟨agree, rfl⟩
  | cons call rest ih =>
    rw [List.flatMap_cons, List.foldl_append]
    -- only a write of the digits is heard
    cases call with
    | tm1637SetSegments seg =>
      rw [OutputCall.messages, obey_segments]
      exact ih _ (some seg) fun _ member => Option.mem_some_iff.mp member
    | _ => exact ih d shown agree

/-- The boot banner was written, so something was. -/
theorem lastSegments_some (seg : Bytes 4) (calls : List OutputCall) :
    ∃ last, lastSegments (some seg) calls = some last := by
  induction calls generalizing seg with
  | nil => exact ⟨seg, rfl⟩
  | cons call rest ih =>
    cases call with
    | tm1637SetSegments seg' => exact ih seg'
    | _ => exact ih seg

/-- **The display shows the last write.** After the initialisation and any valid frames the bus is
quiet, the module heard one message for the brightness and two for every write of the digits, and
it is on and shows the segments that were written last. -/
theorem display_bus (frames : List (ℤ × BaseOutputs)) :
    ∃ l, Listener.idle.listen ((tm1637Init true true).2 ++
        (displayCalls frames).flatMap OutputCall.wireOps) = some l ∧ l.Quiet ∧
      l.received = [0x8D] :: (displayCalls frames).flatMap OutputCall.messages ∧
      some (displayAfter l.received).digits = lastSegments none (displayCalls frames) ∧
      (displayAfter l.received).control = 0x8D := by
  have init : (tm1637Init true true).2 = Listener.sendMessage [0x8D] := tm1637Brightness_eq 5 true
  have ops : (tm1637Init true true).2 ++ (displayCalls frames).flatMap OutputCall.wireOps =
      ([0x8D] :: (displayCalls frames).flatMap OutputCall.messages).flatMap
        Listener.sendMessage := by
    rw [init, wireOps_calls, List.flatMap_cons]
  -- the bus returns the messages, and the module then obeys them one by one
  obtain ⟨l, heard, quiet, received⟩ := Listener.listen_messages (by decide : 0 < 8)
    (⟨rfl, rfl, rfl⟩ : (Listener.idle : Listener 8).Quiet)
    ([0x8D] :: (displayCalls frames).flatMap OutputCall.messages)
  have lit : ([0x8D] :: (displayCalls frames).flatMap OutputCall.messages).foldl
      DisplayModule.obey .off = ((displayCalls frames).flatMap OutputCall.messages).foldl
        DisplayModule.obey { DisplayModule.off with control := 0x8D } := rfl
  obtain ⟨shown, control⟩ := obey_calls { DisplayModule.off with control := 0x8D } none
    (fun _ none => nomatch none) (displayCalls frames)
  rw [ops]
  refine ⟨l, heard, quiet, received, ?_, ?_⟩
  · rw [received, Listener.idle, List.nil_append, displayAfter, lit]
    obtain ⟨last, written⟩ := lastSegments_some ![0x50, 0x77, 0x58, 0x79]
      (trace (outputStep true) (outputSvcInit true 0 .boot).1 frames).flatten
    have same : lastSegments none (displayCalls frames) = some last := written
    rw [same, shown last (Option.mem_def.mpr same)]
  · rw [received, Listener.idle, List.nil_append, displayAfter, lit, control]

end FanatecWheel.App
