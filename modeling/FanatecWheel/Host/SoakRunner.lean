import Mathlib.Data.List.AList
import FanatecWheel.Foundation.Pattern

/-!
# Soak runner

`scripts/soak/soak_runner.py`: the counters read from the console text and the
thresholds of a soak run. The console prints ASCII, where the classes of the regular
expression are the ones below.
-/

namespace FanatecWheel.Host

open Foundation

/-- `THRESHOLDS`. -/
def thresholds : List (List Char × ℕ) :=
  [("crc_err_rx".toList, 0), ("short_frame".toList, 0), ("overrun".toList, 0),
    ("rearm_miss".toList, 10), ("stale_clear".toList, 0), ("funky_faults".toList, 0),
    ("wdt_resets".toList, 0)]

/-- `\w`. -/
def wordChar (c : Char) : Bool := c.isAlphanum || c == '_'

/-- `\s`: the blank, tab to carriage return, and the four separators. -/
def spaceChar (c : Char) : Bool :=
  c == ' ' || (9 ≤ c.toNat && c.toNat ≤ 13) || (28 ≤ c.toNat && c.toNat ≤ 31)

/-- `[=:]`. -/
def sepChar (c : Char) : Bool := c == '=' || c == ':'

/-- `(\w+)[=:]\s*(\d+)`. -/
def statRe : Pattern Char where
  items :=
    [{ cls := wordChar, least := 1, most := none, group := true },
      { cls := sepChar, least := 1, most := some 1, group := false },
      { cls := spaceChar, least := 0, most := none, group := false },
      { cls := Char.isDigit, least := 1, most := none, group := true }]
  consumes := ⟨_, List.mem_cons_self, Nat.zero_lt_one⟩

/-- A dictionary of counters. -/
abbrev SoakStats := AList fun _ : List Char => ℕ

/-- One turn of the comprehension: a key that comes again is overwritten. -/
def parseStat (stats : SoakStats) : List (List Char) → SoakStats
  | [k, v] => stats.insert k (Nat.ofDigitChars 10 v 0)
  | _ => stats

def parseStats (text : List Char) : SoakStats := (findAll statRe text).foldl parseStat ∅

/-- A counter that is missing counts as 0. -/
def statOf (stats : SoakStats) (key : List Char) : ℕ := (stats.lookup key).getD 0

/-- The texts of the failures. -/
def evaluate (stats : SoakStats) : List (List Char) :=
  thresholds.filterMap fun (key, limit) =>
    if limit < statOf stats key then
      some (key ++ "=".toList ++ Nat.toDigits 10 (statOf stats key) ++ " > ".toList ++
        Nat.toDigits 10 limit)
    else none

end FanatecWheel.Host
