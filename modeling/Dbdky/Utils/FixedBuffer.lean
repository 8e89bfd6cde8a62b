import Mathlib.Algebra.GroupWithZero.Nat
import Mathlib.Tactic.Common

/-!
`FixedBuffer<SIZE>` (`src/utils/LogStream.h`): a byte array with a write position.

Only the bytes between `data_` and `cur_` are ever read, so the model keeps those.
`append` writes an item whole or not at all, and only when more than `len` bytes are
free, so one byte always stays free; the structure carries that as a field.
-/

namespace Dbdky

/-- `kSmallBuffer`, the size of a `LogStream`'s buffer. -/
def kSmallBuffer : Nat := 4000

/-- `kLargeBuffer`, the size of an `AsyncLogging` buffer. -/
def kLargeBuffer : Nat := 4000 * 1000

instance : NeZero kSmallBuffer := ⟨by decide⟩
instance : NeZero kLargeBuffer := ⟨by decide⟩

/-- The bytes from `data_` to `cur_`, with at least one free byte behind them. -/
structure FixedBuffer (SIZE : Nat) where
  data : List UInt8
  room : data.length < SIZE
deriving DecidableEq, Repr

namespace FixedBuffer

variable {SIZE : Nat}

def length (b : FixedBuffer SIZE) : Nat := b.data.length

/-- `end() - cur_` -/
def avail (b : FixedBuffer SIZE) : Nat := SIZE - b.length

/-- A constructed or `reset()` buffer. -/
def empty [NeZero SIZE] : FixedBuffer SIZE := ⟨[], Nat.pos_of_ne_zero (NeZero.ne SIZE)⟩

/-- `append(buf, len)` -/
def append (b : FixedBuffer SIZE) (buf : List UInt8) : FixedBuffer SIZE :=
  if fits : b.avail > buf.length then
    ⟨b.data ++ buf, by simp only [avail, length] at fits; simp; omega⟩
  else b

theorem data_append_of_lt {b : FixedBuffer SIZE} {buf : List UInt8} (fits : buf.length < b.avail) :
    (b.append buf).data = b.data ++ buf := by
  simp [append, fits]

end FixedBuffer

end Dbdky
