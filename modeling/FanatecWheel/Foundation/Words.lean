import Mathlib.Algebra.Order.Ring.Int
import Mathlib.Data.Fin.VecNotation
import Mathlib.Data.Fintype.Pi

/-!
# Machine words

Fixed-width words are bit vectors and a C array of bytes is a function on its
indices.
-/

namespace FanatecWheel

abbrev U8 := BitVec 8

abbrev U16 := BitVec 16

abbrev U32 := BitVec 32

abbrev U64 := BitVec 64

/-- A two's-complement `int8_t`, read with `BitVec.toInt`. -/
abbrev I8 := BitVec 8

/-- A two's-complement `int16_t`. -/
abbrev I16 := BitVec 16

/-- A two's-complement `int`. -/
abbrev I32 := BitVec 32

/-- `uint8_t x[n]`. -/
abbrev Bytes (n : ℕ) := Fin n → U8

/-! The sizes of the arrays that are indexed by literals. -/

instance size2 : NeZero 2 := ⟨by decide⟩

instance size3 : NeZero 3 := ⟨by decide⟩

instance size4 : NeZero 4 := ⟨by decide⟩

instance size8 : NeZero 8 := ⟨by decide⟩

instance size33 : NeZero 33 := ⟨by decide⟩

end FanatecWheel
