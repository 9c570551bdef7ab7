import FanatecWheel.Foundation.Words

/-!
# Seven-segment glyphs

`app/src/seg7.c`: the table of patterns and its two lookups.
-/

namespace FanatecWheel.App

/-- `map`. -/
def seg7Map : List (U8 × Char) :=
  [(0x3F, '0'), (0x06, '1'), (0x5B, '2'), (0x4F, '3'), (0x66, '4'), (0x6D, 'S'), (0x7D, '6'),
   (0x07, '7'), (0x7F, '8'), (0x6F, '9'), (0x39, 'C'), (0x38, 'L'), (0x08, '_'), (0x79, 'E'),
   (0x54, 'n'), (0x71, 'F'), (0x76, 'H'), (0x5C, 'o'), (0x77, 'A'), (0x7C, 'b'), (0x5E, 'd'),
   (0x50, 'r'), (0x30, 'I'), (0x73, 'P'), (0x78, 't'), (0x40, '-'), (0x3E, 'u'), (0x2A, '*'),
   (0x00, ' ')]

/-- `seg7_to_ascii`; `none` is the null character of an unknown pattern. -/
def seg7ToAscii (seg : U8) : Option Char :=
  (seg7Map.find? fun entry => entry.1 = seg &&& 0x7F).map Prod.snd

/-- `seg7_from_ascii`: `5` shares the glyph of `S`, an unsupported character is blank. -/
def seg7FromAscii (c : Char) : U8 :=
  let c := if c = '5' then 'S' else c
  ((seg7Map.find? fun entry => entry.2 = c).map Prod.fst).getD 0

end FanatecWheel.App
