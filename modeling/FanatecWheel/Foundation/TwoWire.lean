import FanatecWheel.Foundation.ShiftRegister

/-!
# Two-wire bus

A clock and a data wire, driven by a list of writes with waits between them, and a listener on
them. Data that falls or rises while the clock is high starts or stops a message; a rising clock
latches a bit, lowest first, and after every word one more that acknowledges it. The listener
asks for a wait before every edge it reads something from, and hears nothing at all otherwise.
-/

namespace FanatecWheel.Foundation

/-- What a driver does to the wires. -/
inductive WireOp
  | clk (level : Bool)
  | dio (level : Bool)
  | wait
deriving DecidableEq

/-- The wires, whether a wait has passed since they changed, the message under way (its words and
the bits of the next one) and the messages that were stopped. -/
structure Listener (w : ℕ) where
  clk : Bool
  dio : Bool
  rested : Bool
  message : Option (List (BitVec w) × List Bool)
  received : List (List (BitVec w))

namespace Listener

open ShiftRegister

variable {w : ℕ}

/-- Both wires high and nothing heard. -/
def idle : Listener w := ⟨true, true, true, none, []⟩

/-- A bit was clocked in; the one behind a word acknowledges it. -/
def latch (l : Listener w) (bit : Bool) : Listener w :=
  match l.message with
  | none => l
  | some (words, bits) =>
    if bits.length < w then { l with message := some (words, bits ++ [bit]) }
    else { l with message := some (words ++ [pack bits], []) }

/-- One write; `none` when an edge comes without a wait. -/
def hear (l : Listener w) : WireOp → Option (Listener w)
  | .wait => some { l with rested := true }
  | .clk level =>
    if level = l.clk then some l
    else if !l.rested then none
    else
      let l := { l with clk := level, rested := false }
      some (if level then l.latch l.dio else l)
  | .dio level =>
    if level = l.dio then some l
    else if !l.clk then some { l with dio := level, rested := false }
    else if !l.rested then none
    else
      let l := { l with dio := level, rested := false }
      -- the clock is high: a message stops or starts
      if level then
        match l.message with
        | none => some l
        | some (words, _) => some { l with message := none, received := l.received ++ [words] }
      else some { l with message := some ([], []) }

def listen (l : Listener w) (ops : List WireOp) : Option (Listener w) := ops.foldlM hear l

theorem listen_append (l : Listener w) (first second : List WireOp) :
    l.listen (first ++ second) = (l.listen first).bind fun l => l.listen second :=
  List.foldlM_append

/-! ### One clock cycle -/

/-- A bit on the data wire and a clock that rises behind it. -/
def pulse (bit : Bool) : List WireOp := [.clk false, .dio bit, .wait, .clk true, .wait]

/-- In a message, with the clock about to fall or low. -/
structure Between (words : List (BitVec w)) (bits : List Bool) (l : Listener w) : Prop where
  message : l.message = some (words, bits)
  falls : l.clk = true → l.rested = true

/-- What a pulse leaves: the clock is high and may fall. -/
theorem listen_pulse {words : List (BitVec w)} {bits : List Bool} {l : Listener w}
    (between : Between words bits l) (bit : Bool) :
    l.listen (pulse bit) = some
      { clk := true
        dio := bit
        rested := true
        message := some
          (if bits.length < w then (words, bits ++ [bit]) else (words ++ [pack bits], []))
        received := l.received } := by
  obtain ⟨clk, dio, rested, message, received⟩ := l
  obtain ⟨rfl, falls⟩ := between
  have low : (⟨clk, dio, rested, some (words, bits), received⟩ : Listener w).listen
      [.clk false, .dio bit, .wait] =
        some ⟨false, bit, true, some (words, bits), received⟩ := by
    cases clk with
    | false =>
      by_cases same : bit = dio <;> simp [listen, hear, same]
    | true =>
      have may : rested = true := falls rfl
      by_cases same : bit = dio <;> simp [listen, hear, may, same]
  have split : pulse bit = [.clk false, .dio bit, .wait] ++ [.clk true, .wait] := rfl
  rw [split, listen_append, low]
  -- the rising clock latches the bit
  by_cases inside : bits.length < w <;> simp [listen, hear, latch, inside]

/-! ### Words and messages -/

/-- The bits of a word, lowest first. -/
def bitsOf (b : BitVec w) : List Bool := List.ofFn fun i : Fin w => b.getLsbD i

/-- The bits, the released data wire for the acknowledge, and a low clock. -/
def sendWord (b : BitVec w) : List WireOp := (bitsOf b).flatMap pulse ++ pulse true ++ [.clk false]

/-- Data falls while the clock is high. -/
def startOps : List WireOp := [.dio true, .clk true, .wait, .dio false, .wait, .clk false]

/-- Data rises while the clock is high. -/
def stopOps : List WireOp := [.clk false, .dio false, .wait, .clk true, .wait, .dio true, .wait]

def sendMessage (words : List (BitVec w)) : List WireOp :=
  startOps ++ words.flatMap sendWord ++ stopOps

@[simp] theorem length_bitsOf (b : BitVec w) : (bitsOf b).length = w := by
  rw [bitsOf, List.length_ofFn]

theorem pack_bitsOf (b : BitVec w) : pack (bitsOf b) = b := by
  apply BitVec.eq_of_getLsbD_eq
  intro i inside
  rw [getLsbD_pack _ i inside]
  simp [bitsOf, inside]

/-- The bits of the next word, as long as there is room for them. -/
theorem listen_bits {words : List (BitVec w)} {bits : List Bool} {l : Listener w}
    (between : Between words bits l) (more : List Bool) (room : bits.length + more.length ≤ w) :
    ∃ l', l.listen (more.flatMap pulse) = some l' ∧ Between words (bits ++ more) l' ∧
      l'.received = l.received := by
  induction more generalizing bits l with
  | nil => exact ⟨l, rfl, by rwa [List.append_nil], rfl⟩
  | cons bit more ih =>
    rw [List.length_cons] at room
    have pulsed := listen_pulse between bit
    rw [if_pos (by omega)] at pulsed
    obtain ⟨l', heard, between', same⟩ := @ih (bits ++ [bit])
      ⟨true, bit, true, some (words, bits ++ [bit]), l.received⟩ ⟨rfl, fun _ => rfl⟩
      (by rw [List.length_append, List.length_singleton]; omega)
    refine ⟨l', ?_, ?_, same⟩
    · rw [List.flatMap_cons, listen_append, pulsed, Option.bind_some, heard]
    · rwa [List.append_assoc] at between'

theorem listen_word {words : List (BitVec w)} {l : Listener w} (between : Between words [] l)
    (b : BitVec w) :
    ∃ l', l.listen (sendWord b) = some l' ∧ Between (words ++ [b]) [] l' ∧
      l'.received = l.received := by
  obtain ⟨l₁, heard, between₁, same⟩ := listen_bits between (bitsOf b) (by simp)
  rw [List.nil_append] at between₁
  -- the pulse behind the last bit closes the word
  have acknowledged := listen_pulse between₁ true
  rw [if_neg (by simp), pack_bitsOf] at acknowledged
  refine ⟨⟨false, true, false, some (words ++ [b], []), l.received⟩, ?_, ⟨rfl, nofun⟩, rfl⟩
  rw [sendWord, listen_append, listen_append, heard, Option.bind_some, acknowledged, same]
  rfl

theorem listen_words {words : List (BitVec w)} {l : Listener w} (between : Between words [] l)
    (more : List (BitVec w)) :
    ∃ l', l.listen (more.flatMap sendWord) = some l' ∧ Between (words ++ more) [] l' ∧
      l'.received = l.received := by
  induction more generalizing words l with
  | nil => exact ⟨l, rfl, by rwa [List.append_nil], rfl⟩
  | cons b more ih =>
    obtain ⟨l₁, heard, between₁, same⟩ := listen_word between b
    obtain ⟨l₂, rest, between₂, same₂⟩ := ih between₁
    refine ⟨l₂, ?_, ?_, same₂.trans same⟩
    · rw [List.flatMap_cons, listen_append, heard, Option.bind_some, rest]
    · rwa [List.append_assoc] at between₂

/-- Both wires are high and no message is under way. -/
structure Quiet (l : Listener w) : Prop where
  clk : l.clk = true
  dio : l.dio = true
  message : l.message = none

theorem listen_start {l : Listener w} (quiet : Quiet l) :
    l.listen startOps = some ⟨false, false, false, some ([], []), l.received⟩ := by
  obtain ⟨clk, dio, rested, message, received⟩ := l
  obtain ⟨rfl, rfl, rfl⟩ := quiet
  simp [startOps, listen, hear]

theorem listen_stop {words : List (BitVec w)} {l : Listener w} (between : Between words [] l)
    (wide : 0 < w) :
    l.listen stopOps = some ⟨true, true, true, none, l.received ++ [words]⟩ := by
  -- the clock rises over low data, which starts a word that is never finished
  have split : stopOps = pulse false ++ [.dio true, .wait] := rfl
  rw [split, listen_append, listen_pulse between false, Option.bind_some]
  simp [listen, hear, wide]

/-- **A message that is sent is received**, and the bus is quiet again. -/
theorem listen_message (wide : 0 < w) {l : Listener w} (quiet : Quiet l)
    (words : List (BitVec w)) :
    l.listen (sendMessage words) = some ⟨true, true, true, none, l.received ++ [words]⟩ := by
  obtain ⟨l', heard, between, same⟩ :=
    @listen_words w [] ⟨false, false, false, some ([], []), l.received⟩ ⟨rfl, nofun⟩ words
  rw [List.nil_append] at between
  rw [sendMessage, listen_append, listen_append, listen_start quiet, Option.bind_some, heard,
    Option.bind_some, listen_stop between wide, same]

theorem listen_messages (wide : 0 < w) {l : Listener w} (quiet : Quiet l)
    (messages : List (List (BitVec w))) :
    ∃ l', l.listen (messages.flatMap sendMessage) = some l' ∧ Quiet l' ∧
      l'.received = l.received ++ messages := by
  induction messages generalizing l with
  | nil => exact ⟨l, rfl, quiet, (List.append_nil _).symm⟩
  | cons words rest ih =>
    obtain ⟨l', heard, quiet', same⟩ :=
      @ih ⟨true, true, true, none, l.received ++ [words]⟩ ⟨rfl, rfl, rfl⟩
    refine ⟨l', ?_, quiet', ?_⟩
    · rw [List.flatMap_cons, listen_append, listen_message wide quiet, Option.bind_some, heard]
    · rw [same, List.append_assoc, List.singleton_append]

end Listener

end FanatecWheel.Foundation
