import Mathlib.Data.List.Basic

/-!
# Link statistics of an analyser trace

`scripts/capture/link_stats.py`: transactions and byte gaps from the rows of a byte-level trace,
and the gaps between transactions. Times are whole ticks and ascend.
-/

namespace FanatecWheel.Host

/-- The lists and the two locals of the loop of `main`. -/
structure LaScan where
  txnStarts : List ℕ
  txnEnds : List ℕ
  byteGaps : List ℕ
  prevT : Option ℕ
  curStart : Option ℕ

def LaScan.start : LaScan := ⟨[], [], [], none, none⟩

/-- The boundary of a transaction, or the end of the trace. -/
def laBoundary (s : LaScan) : LaScan :=
  match s.curStart, s.prevT with
  | some curStart, some prevT =>
    { s with
      txnStarts := s.txnStarts ++ [curStart]
      txnEnds := s.txnEnds ++ [prevT]
      curStart := none }
  | _, _ => { s with curStart := none }

def laByte (s : LaScan) (t : ℕ) : LaScan :=
  match s.curStart, s.prevT with
  | none, _ => { s with curStart := some t, prevT := some t }
  | some _, some prevT => { s with byteGaps := s.byteGaps ++ [t - prevT], prevT := some t }
  | some _, none => { s with prevT := some t }

/-- A row holds the time of a byte or, as `none`, a boundary. -/
def laRow (s : LaScan) : Option ℕ → LaScan
  | none => laBoundary s
  | some t => laByte s t

def laScan (rows : List (Option ℕ)) : LaScan := laBoundary (rows.foldl laRow .start)

/-- Next start minus previous end. -/
def gaps (txnStarts txnEnds : List ℕ) : List ℕ :=
  List.zipWith (fun e s => s - e) txnEnds txnStarts.tail

/-! ### The scan finds the transactions -/

/-- The bytes of one transaction. -/
structure Burst where
  first : ℕ
  more : List ℕ

def Burst.last (b : Burst) : ℕ := b.more.getLastD b.first

/-- A burst and the boundary behind it. -/
def Burst.rows (b : Burst) : List (Option ℕ) := some b.first :: b.more.map some ++ [none]

/-- Further bytes only move the end. -/
theorem laByte_more (s : LaScan) {curStart prevT : ℕ} (started : s.curStart = some curStart)
    (read : s.prevT = some prevT) (more : List ℕ) :
    ∃ byteGaps, (more.map some).foldl laRow s =
      { s with byteGaps, prevT := some (more.getLastD prevT) } := by
  induction more generalizing s prevT with
  | nil => exact ⟨s.byteGaps, by rw [List.getLastD_nil, ← read]; rfl⟩
  | cons t more ih =>
    have moved : laRow s (some t) =
        { s with byteGaps := s.byteGaps ++ [t - prevT], prevT := some t } := by
      rw [laRow, laByte, started, read]
    obtain ⟨byteGaps, done⟩ := ih (laRow s (some t)) (by rw [moved]; exact started)
      (by rw [moved])
    refine ⟨byteGaps, ?_⟩
    rw [List.map_cons, List.foldl_cons, done, moved, List.getLastD_cons]

theorem laRow_burst (s : LaScan) (idle : s.curStart = none) (b : Burst) :
    (b.rows.foldl laRow s).txnStarts = s.txnStarts ++ [b.first] ∧
      (b.rows.foldl laRow s).txnEnds = s.txnEnds ++ [b.last] ∧
      (b.rows.foldl laRow s).curStart = none := by
  have first : laRow s (some b.first) =
      { s with curStart := some b.first, prevT := some b.first } := by
    rw [laRow, laByte, idle]
  obtain ⟨byteGaps, done⟩ := laByte_more (laRow s (some b.first)) (by rw [first])
    (by rw [first]) b.more
  have rows : b.rows.foldl laRow s =
      laRow ((b.more.map some).foldl laRow (laRow s (some b.first))) none := by
    rw [Burst.rows, List.cons_append, List.foldl_cons, List.foldl_append]
    rfl
  rw [rows, done, first]
  exact ⟨rfl, rfl, rfl⟩

theorem laRow_bursts (s : LaScan) (idle : s.curStart = none) (bursts : List Burst) :
    ((bursts.flatMap Burst.rows).foldl laRow s).txnStarts =
        s.txnStarts ++ bursts.map Burst.first ∧
      ((bursts.flatMap Burst.rows).foldl laRow s).txnEnds = s.txnEnds ++ bursts.map Burst.last ∧
      ((bursts.flatMap Burst.rows).foldl laRow s).curStart = none := by
  induction bursts generalizing s with
  | nil => exact ⟨(List.append_nil _).symm, (List.append_nil _).symm, idle⟩
  | cons b rest ih =>
    obtain ⟨starts, ends, idle'⟩ := laRow_burst s idle b
    obtain ⟨starts', ends', later⟩ := ih (b.rows.foldl laRow s) idle'
    rw [List.flatMap_cons, List.foldl_append]
    refine ⟨?_, ?_, later⟩
    · rw [starts', starts, List.append_assoc]
      rfl
    · rw [ends', ends, List.append_assoc]
      rfl

/-- The starts and ends of a trace are the first and last bytes of its bursts. -/
theorem laScan_bursts (bursts : List Burst) :
    (laScan (bursts.flatMap Burst.rows)).txnStarts = bursts.map Burst.first ∧
      (laScan (bursts.flatMap Burst.rows)).txnEnds = bursts.map Burst.last := by
  obtain ⟨starts, ends, idle⟩ := laRow_bursts .start rfl bursts
  rw [laScan, laBoundary, idle]
  exact ⟨starts, ends⟩

end FanatecWheel.Host
