import FanatecWheel.App.Printf
import FanatecWheel.Foundation.Fields
import FanatecWheel.Host.FrameModel
import FanatecWheel.Host.SoakRunner

/-!
# Decoding a trace of the logic analyser

`scripts/capture/la_decode.py`: the transactions in the rows of the analyser's export, and a
record for each. The rows are what `csv.reader` returns and `none` is an exception; `float` is
a parameter, for nothing reads the time again.
-/

namespace FanatecWheel.Host

open Foundation App

abbrev Row := List Text

/-- What `---` and blank cells stand for: CS was released. -/
def boundaryCell (c : Text) : Bool :=
  strip spaceChar c = [] || strip spaceChar c = "---".toList

def boundaryRow (row : Row) : Bool := row.isEmpty || row.all boundaryCell

/-- `transactions` from the rows collected so far on. -/
def transactionsFrom (cur : List Row) : List Row → List (List Row)
  | [] => if cur.isEmpty then [] else [cur]
  | row :: rest =>
    if boundaryRow row then
      if cur.isEmpty then transactionsFrom cur rest else cur :: transactionsFrom [] rest
    else transactionsFrom (cur ++ [row]) rest

def transactions (rows : List Row) : List (List Row) := transactionsFrom [] rows

/-! ### Cells -/

/-- A digit of any base. -/
def digitValue (c : Char) : Option ℕ :=
  if c.isDigit then some (c.toNat - '0'.toNat)
  else if c.isLower then some (c.toNat - 'a'.toNat + 10)
  else if c.isUpper then some (c.toNat - 'A'.toNat + 10)
  else none

def digitsStep (base n : ℕ) (c : Char) : Option ℕ := do
  let d ← digitValue c
  if d < base then some (n * base + d) else none

def digitsValue (base : ℕ) (text : Text) : Option ℕ :=
  if text.isEmpty then none else text.foldlM (digitsStep base) 0

/-- A literal without its sign; one that starts with a zero and has no prefix is zero. -/
def literalValue (text : Text) : Option ℕ :=
  match text with
  | '0' :: mark :: rest =>
    if mark = 'x' ∨ mark = 'X' then digitsValue 16 rest
    else if mark = 'o' ∨ mark = 'O' then digitsValue 8 rest
    else if mark = 'b' ∨ mark = 'B' then digitsValue 2 rest
    else if (mark :: rest).all (· == '0') then some 0
    else none
  | _ => digitsValue 10 text

/-- `int(text, 0)` of a text without underscores. -/
def int0 (text : Text) : Option ℤ :=
  match strip spaceChar text with
  | '-' :: rest => (literalValue rest).map fun n => -(n : ℤ)
  | '+' :: rest => (literalValue rest).map Int.ofNat
  | rest => (literalValue rest).map Int.ofNat

/-- A cell as one of the integers `bytes` takes. -/
def byteValue (cell : Text) : Option U8 := do
  let z ← int0 cell
  if 0 ≤ z ∧ z < 256 then some (BitVec.ofInt 8 z) else none

def byteCell (column : ℕ) (row : Row) : Option U8 := row[column]?.bind byteValue

/-! ### Records -/

/-- A record of the output. -/
structure LaRec (F : Type) where
  n : ℕ
  t0 : F
  len : ℕ
  mosiCrcOk : Bool
  misoCrcOk : Bool
  mosiHex : Text
  misoHex : Text
deriving DecidableEq

/-- `bytes.hex`. -/
def hexText (data : List U8) : Text := data.flatMap fmtHex

/-- The verdict on one side of a transaction. -/
def frameCrcOk (data : List U8) : Option Bool :=
  if data.length = frameLen then do
    let crc ← crc8 (data.take 32)
    return data[32]?.map BitVec.toNat = some crc
  else some false

section Decoder

variable {F : Type} (float : Text → Option F)

def decodeTxn (n : ℕ) (txn : List Row) : Option (LaRec F) := do
  let first ← txn.head?
  let t0 ← float (← first.head?)
  let mosi ← txn.mapM (byteCell 1)
  let miso ← txn.mapM (byteCell 2)
  return {
    n
    t0
    len := txn.length
    mosiCrcOk := ← frameCrcOk mosi
    misoCrcOk := ← frameCrcOk miso
    mosiHex := hexText mosi
    misoHex := hexText miso }

/-- The first row is a header unless its first cell is a number; an empty one raises. -/
def dropHeader (rows : List Row) : Option (List Row) :=
  match rows with
  | [] => some []
  | [] :: _ => none
  | (cell :: _) :: rest =>
    let plain := (cell.filter (· ≠ '.')).filter (· ≠ '-')
    if !plain.isEmpty && plain.all Char.isDigit then some rows else some rest

/-- The records of `main`. -/
def laDecode (rows : List Row) : Option (List (LaRec F)) := do
  let rows ← dropHeader rows
  (transactions rows).zipIdx.mapM fun (txn, n) => decodeTxn float n txn

end Decoder

/-- `load_la` of `ring_diff.py`: the MISO side, then the MOSI side. -/
def loadLa {F : Type} (recs : List (LaRec F)) : List Text × List Text :=
  (recs.map LaRec.misoHex, recs.map LaRec.mosiHex)

/-! ### What the analyser exports -/

/-- The bytes of a transaction, in both directions. -/
structure Transfer where
  bytes : List (U8 × U8)
deriving DecidableEq

def Transfer.mosi (t : Transfer) : List U8 := t.bytes.map Prod.fst

def Transfer.miso (t : Transfer) : List U8 := t.bytes.map Prod.snd

def hexCell (b : U8) : Text := "0x".toList ++ fmtHexUpper b

/-- The row of a byte: its time, MOSI and MISO. -/
def byteRow (time : Text) (b : U8 × U8) : Row := [time, hexCell b.1, hexCell b.2]

def Transfer.byteRows (time : ℕ → Text) (t : Transfer) : List Row :=
  t.bytes.zipIdx.map fun (b, i) => byteRow (time i) b

/-- The rows of a transaction and the boundary behind them. -/
def Transfer.rows (time : ℕ → Text) (t : Transfer) : List Row :=
  t.byteRows time ++ [List.replicate 3 "---".toList]

/-- The file: its header and the transactions. -/
def laFile (time : ℕ → ℕ → Text) (transfers : List Transfer) : List Row :=
  ["time".toList, "mosi".toList, "miso".toList] ::
    transfers.zipIdx.flatMap fun (t, n) => t.rows (time n)

/-! ### The export reads back -/

private theorem hexDigit_value {n : ℕ} (digit : n < 16) :
    digitValue (Nat.digitChar n).toUpper = some n := by
  have all : ∀ k < 16, digitValue (Nat.digitChar k).toUpper = some k := by decide
  exact all n digit

private theorem hexDigit_solid {n : ℕ} (digit : n < 16) :
    spaceChar (Nat.digitChar n).toUpper = false := by
  have all : ∀ k < 16, spaceChar (Nat.digitChar k).toUpper = false := by decide
  exact all n digit

theorem strip_hexCell (b : U8) : strip spaceChar (hexCell b) = hexCell b := by
  have high := hexDigit_solid (Nat.div_lt_of_lt_mul b.isLt : b.toNat / 16 < 16)
  have low := hexDigit_solid (Nat.mod_lt b.toNat (by decide : 0 < 16))
  have digits : ∀ c ∈ fmtHexUpper b, spaceChar c = false :=
    List.forall_mem_cons.mpr ⟨high, List.forall_mem_singleton.mpr low⟩
  exact strip_solid (List.forall_mem_cons.mpr ⟨rfl, List.forall_mem_cons.mpr ⟨rfl, digits⟩⟩)

theorem int0_hexCell (b : U8) : int0 (hexCell b) = some (b.toNat : ℤ) := by
  have high := hexDigit_value (Nat.div_lt_of_lt_mul b.isLt : b.toNat / 16 < 16)
  have low := hexDigit_value (Nat.mod_lt b.toNat (by decide : 0 < 16))
  have value : digitsValue 16 (fmtHexUpper b) = some b.toNat := by
    have whole := Nat.div_add_mod' b.toNat 16
    simp [digitsValue, fmtHexUpper, fmtHex, digitsStep, high, low, Nat.mod_lt, whole,
      (Nat.div_lt_of_lt_mul b.isLt : b.toNat / 16 < 16)]
  rw [int0, strip_hexCell]
  change (literalValue ('0' :: 'x' :: fmtHexUpper b)).map Int.ofNat = _
  rw [literalValue, if_pos (.inl rfl), value]
  rfl

theorem byteValue_hexCell (b : U8) : byteValue (hexCell b) = some b := by
  have small : (b.toNat : ℤ) < 256 := by exact_mod_cast b.isLt
  simp only [byteValue, int0_hexCell, Option.bind_eq_bind, Option.bind_some]
  rw [if_pos ⟨Int.natCast_nonneg _, small⟩, BitVec.ofInt_natCast, BitVec.ofNat_toNat,
    BitVec.setWidth_eq]

theorem byteRow_byte (time : Text) (b : U8 × U8) : boundaryRow (byteRow time b) = false := by
  have cell : boundaryCell (hexCell b.1) = false := by
    rw [boundaryCell, strip_hexCell]
    rfl
  simp [boundaryRow, byteRow, cell]

/-- Rows of bytes are collected. -/
theorem transactionsFrom_bytes (cur : List Row) {block : List Row}
    (bytes : ∀ row ∈ block, boundaryRow row = false) (rest : List Row) :
    transactionsFrom cur (block ++ rest) = transactionsFrom (cur ++ block) rest := by
  induction block generalizing cur with
  | nil => rw [List.nil_append, List.append_nil]
  | cons row block ih =>
    obtain ⟨byte, bytes⟩ := List.forall_mem_cons.mp bytes
    rw [List.cons_append, transactionsFrom, if_neg (by rw [byte]; exact Bool.false_ne_true),
      ih _ bytes, List.append_assoc, List.singleton_append]

theorem transactionsFrom_transfer (time : ℕ → Text) {t : Transfer} (clocked : t.bytes ≠ [])
    (rest : List Row) : transactionsFrom [] (t.rows time ++ rest) =
      t.byteRows time :: transactionsFrom [] rest := by
  have bytes : ∀ row ∈ t.byteRows time, boundaryRow row = false := by
    intro row member
    obtain ⟨⟨b, i⟩, -, rfl⟩ := List.mem_map.mp member
    exact byteRow_byte (time i) b
  have collected : (t.byteRows time).isEmpty = false := by
    rw [List.isEmpty_eq_false_iff, Transfer.byteRows, Ne, List.map_eq_nil_iff,
      List.zipIdx_eq_nil_iff]
    exact clocked
  -- the boundary row closes the transaction
  have released : boundaryRow (List.replicate 3 "---".toList) = true := by decide
  rw [Transfer.rows, List.append_assoc, transactionsFrom_bytes [] bytes, List.nil_append,
    List.singleton_append, transactionsFrom, if_pos released, collected]
  rfl

/-- The decoder finds the transactions. -/
theorem transactions_transfers (time : ℕ → ℕ → Text) {transfers : List Transfer}
    (clocked : ∀ t ∈ transfers, t.bytes ≠ []) (first : ℕ) :
    transactions ((transfers.zipIdx first).flatMap fun (t, n) => t.rows (time n)) =
      (transfers.zipIdx first).map fun (t, n) => t.byteRows (time n) := by
  induction transfers generalizing first with
  | nil => rfl
  | cons t rest ih =>
    obtain ⟨here, later⟩ := List.forall_mem_cons.mp clocked
    rw [List.zipIdx_cons, List.flatMap_cons, transactions, transactionsFrom_transfer _ here]
    exact congrArg (_ :: ·) (ih later (first + 1))

/-- Both sides of a transaction, read from its rows. -/
theorem mapM_byteRows (time : ℕ → Text) (t : Transfer) :
    (t.byteRows time).mapM (byteCell 1) = some t.mosi ∧
      (t.byteRows time).mapM (byteCell 2) = some t.miso := by
  have rows (bytes : List (U8 × U8)) (first : ℕ) :
      ((bytes.zipIdx first).map fun (b, i) => byteRow (time i) b).mapM (byteCell 1) =
          some (bytes.map Prod.fst) ∧
        ((bytes.zipIdx first).map fun (b, i) => byteRow (time i) b).mapM (byteCell 2) =
          some (bytes.map Prod.snd) := by
    induction bytes generalizing first with
    | nil => exact ⟨rfl, rfl⟩
    | cons b rest ih =>
      obtain ⟨mosi, miso⟩ := ih (first + 1)
      have cell1 : byteCell 1 (byteRow (time first) b) = some b.1 := byteValue_hexCell b.1
      have cell2 : byteCell 2 (byteRow (time first) b) = some b.2 := byteValue_hexCell b.2
      rw [List.zipIdx_cons, List.map_cons, List.mapM_cons, List.mapM_cons, cell1, cell2, mosi,
        miso]
      exact ⟨rfl, rfl⟩
  exact rows t.bytes 0

/-- The verdict on the bytes of one direction. -/
def wireCrcOk (data : List U8) : Bool :=
  data.length = frameLen ∧ data[32]? = some (Rimlink.crc8 (data.take 32))

theorem frameCrcOk_eq (data : List U8) : frameCrcOk data = some (wireCrcOk data) := by
  unfold frameCrcOk wireCrcOk
  split
  next whole =>
    simp only [crc8_eq, Option.bind_eq_bind, Option.bind_some, Option.pure_def, whole, true_and,
      Option.some.injEq, decide_eq_decide]
    cases data[32]? with
    | none => exact iff_of_false (fun h => nomatch h) (fun h => nomatch h)
    | some b =>
      simp only [Option.map_some, Option.some.injEq]
      exact BitVec.toNat_inj
  next other => simp only [other, false_and, decide_false]

section Decoder

variable {F : Type} {float : Text → Option F}

/-- The record of a transaction. -/
def laRec (n : ℕ) (t0 : F) (t : Transfer) : LaRec F where
  n
  t0
  len := t.bytes.length
  mosiCrcOk := wireCrcOk t.mosi
  misoCrcOk := wireCrcOk t.miso
  mosiHex := hexText t.mosi
  misoHex := hexText t.miso

/-- What does not depend on the number or the time of a record. -/
theorem map_laRecs {β : Type*} {g : LaRec F → β} {h : Transfer → β} (t0 : ℕ → F)
    (same : ∀ n t, g (laRec n (t0 n) t) = h t) (transfers : List Transfer) :
    (transfers.zipIdx.map fun (t, n) => laRec n (t0 n) t).map g = transfers.map h := by
  have timeless : (g ∘ fun (t, n) => laRec n (t0 n) t) = h ∘ Prod.fst :=
    funext fun (t, n) => same n t
  rw [List.map_map, timeless, ← List.map_map, List.zipIdx_map_fst]

theorem decodeTxn_transfer {time : ℕ → Text} {t0 : F} (timed : float (time 0) = some t0)
    {t : Transfer} (clocked : t.bytes ≠ []) (n : ℕ) :
    decodeTxn float n (t.byteRows time) = some (laRec n t0 t) := by
  obtain ⟨mosi, miso⟩ := mapM_byteRows time t
  have first : (t.byteRows time).head?.bind List.head? = some (time 0) := by
    rw [Transfer.byteRows]
    cases bytes : t.bytes with
    | nil => exact absurd bytes clocked
    | cons b rest => rfl
  obtain ⟨row, head, cell⟩ := Option.bind_eq_some_iff.mp first
  have len : (t.byteRows time).length = t.bytes.length := by
    rw [Transfer.byteRows, List.length_map, List.length_zipIdx]
  simp only [decodeTxn, head, cell, timed, mosi, miso, frameCrcOk_eq, Option.bind_eq_bind,
    Option.bind_some, Option.pure_def, len]
  rfl

private theorem decodeTxn_transfers {time : ℕ → ℕ → Text} {t0 : ℕ → F}
    (timed : ∀ n, float (time n 0) = some (t0 n)) {transfers : List Transfer}
    (clocked : ∀ t ∈ transfers, t.bytes ≠ []) (first : ℕ) :
    (((transfers.zipIdx first).map fun (t, n) => t.byteRows (time n)).zipIdx first).mapM
        (fun (txn, n) => decodeTxn float n txn) =
      some ((transfers.zipIdx first).map fun (t, n) => laRec n (t0 n) t) := by
  induction transfers generalizing first with
  | nil => rfl
  | cons t rest ih =>
    obtain ⟨here, later⟩ := List.forall_mem_cons.mp clocked
    simp only [List.zipIdx_cons, List.map_cons, List.mapM_cons,
      decodeTxn_transfer (timed first) here, ih later (first + 1)]
    rfl

/-- **The analyser's file reads back.** Every transaction becomes a record of its bytes. -/
theorem laDecode_laFile {time : ℕ → ℕ → Text} {t0 : ℕ → F}
    (timed : ∀ n, float (time n 0) = some (t0 n)) {transfers : List Transfer}
    (clocked : ∀ t ∈ transfers, t.bytes ≠ []) :
    laDecode float (laFile time transfers) =
      some (transfers.zipIdx.map fun (t, n) => laRec n (t0 n) t) := by
  -- `time` is not a number, so the first row is taken for a header
  have header : dropHeader (laFile time transfers) =
      some (transfers.zipIdx.flatMap fun (t, n) => t.rows (time n)) := rfl
  rw [laDecode, header, Option.bind_eq_bind, Option.bind_some, transactions_transfers time clocked]
  exact decodeTxn_transfers timed clocked 0

end Decoder

end FanatecWheel.Host
