import FanatecWheel.Foundation.Words

/-!
# Text

The conversions of `printf` that the services and the shell use, on lists of
characters.
-/

namespace FanatecWheel.App

abbrev Text := List Char

/-- `%u` and `%llu`. -/
def fmtU (n : ℕ) : Text := Nat.toDigits 10 n

/-- `%d`. -/
def fmtD (z : ℤ) : Text := if z < 0 then '-' :: fmtU z.natAbs else fmtU z.natAbs

/-- `%02x` of a byte. -/
def fmtHex (b : U8) : Text := [Nat.digitChar (b.toNat / 16), Nat.digitChar (b.toNat % 16)]

/-- `%02X` of a byte. -/
def fmtHexUpper (b : U8) : Text := (fmtHex b).map Char.toUpper

/-- `%04X` of a 16-bit word. -/
def fmtHexUpper16 (w : U16) : Text :=
  fmtHexUpper ((w >>> 8).setWidth 8) ++ fmtHexUpper (w.setWidth 8)

/-- `shell_print`: the format with its conversions filled in, and a newline. -/
def shellPrint (parts : List Text) : Text := parts.flatten ++ ['\n']

/-- `shell_fprintf`. -/
def shellFprintf (parts : List Text) : Text := parts.flatten

/-- What the shell's serial backend sends: a carriage return before every newline. -/
def serial (text : Text) : Text := text.flatMap fun c => if c = '\n' then ['\r', '\n'] else [c]

theorem fmtU_digits (n : ℕ) : ∀ c ∈ fmtU n, c.isDigit = true :=
  fun _ member => Nat.isDigit_of_mem_toDigits (by decide) (by decide) member

end FanatecWheel.App
