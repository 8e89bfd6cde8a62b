import Dbdky.Port.Buffer

/-!
`Buffer::shrink` (`src/port/Buffer.h`).

The content is copied to a new vector through a `StringPiece`, which counts it with an
`int`: of a large content `append` is passed another length.

* **`shrinks_iff`.** `shrink` keeps the content exactly if its length is still the same when
  it has been an `int`.
-/

namespace Dbdky.Port

namespace Buffer

/-- A `StringPiece` (`src/utils/StringPiece.h`) that points into a vector. -/
structure Piece where
  ptr_ : Nat
  length_ : BitVec 32
deriving DecidableEq, Repr

def Piece.size (str : Piece) : Int := str.length_.toInt

variable (b : Buffer)

/-- The cast to `int` keeps the low bits. -/
def toStringPiece : Piece where
  ptr_ := b.readerIndex
  length_ := .ofNat 32 b.readableBytes

/-- `append(str)`, for a piece of `source`. The size is converted to the `size_t` that
`append(data, len)` takes. -/
def appendPiece (source : List UInt8) (str : Piece) : Option Buffer := do
  let data ← Block.load source str.ptr_ (SizeT.ofInt str.size)
  b.append data

/-- `shrink(reserve)`; `swap` makes the other buffer this one. -/
def shrink (reserve : Nat) : Option Buffer := do
  let other ← Buffer.new.ensureWritableBytes (SizeT.add b.readableBytes reserve)
  other.appendPiece b.buffer b.toStringPiece

/-- What `shrink(reserve)` is for. -/
def Shrinks (reserve : Nat) : Prop :=
  ∃ t, b.shrink reserve = some t ∧ t.content = b.content ∧
    t.prependableBytes = kCheapPrepend ∧ reserve ≤ t.writableBytes

variable {b} {c : List UInt8} {reserve : Nat}

/-- A size that is converted to `int` and back. -/
theorem ofInt_toInt_eq_iff {n : Nat} (bound : n < SizeT.range) :
    SizeT.ofInt (BitVec.ofNat 32 n).toInt = n ↔ n < 2 ^ 31 ∨ 2 ^ 64 - 2 ^ 31 ≤ n := by
  rw [BitVec.toInt_eq_toNat_bmod, BitVec.toNat_ofNat, SizeT.ofInt, Int.bmod_def]
  simp only [SizeT.range] at bound ⊢
  omega

/-- The other buffer, before the content is copied. -/
theorem new_ensureWritableBytes {len : Nat} (fits : kCheapPrepend + len < SizeT.range) :
    ∃ u, Buffer.new.ensureWritableBytes len = some u ∧ Represents u [] ∧
      u.readerIndex = kCheapPrepend ∧ u.writerIndex = kCheapPrepend ∧
      kCheapPrepend + len ≤ u.buffer.length := by
  obtain ⟨u, ensured, rep, room⟩ := ensureWritableBytes_spec new_represents (.inr fits)
  have reader : u.readerIndex = kCheapPrepend := by
    obtain same | moved := ensureWritableBytes_readerIndex ensured
    · exact same
    · exact moved
  have writer : u.writerIndex = kCheapPrepend := by
    have length := rep.length
    have ordered := rep.valid.reader
    rw [List.length_nil] at length
    omega
  rw [writer] at room
  exact ⟨u, ensured, rep, reader, writer, room⟩

/-- Whatever `shrink` returns, it holds as many bytes as `append` was told to copy. -/
theorem shrink_represents {t : Buffer} (rep : Represents b c)
    (fits : kCheapPrepend + c.length + reserve < SizeT.range) (shrunk : b.shrink reserve = some t) :
    ∃ copied, Represents t copied ∧ copied.length = SizeT.ofInt b.toStringPiece.size := by
  rw [Nat.add_assoc] at fits
  simp only [shrink, appendPiece, rep.readableBytes, Option.bind_eq_bind,
    Option.bind_eq_some_iff] at shrunk
  obtain ⟨other, ensured, data, loaded, appended⟩ := shrunk
  rw [SizeT.add_eq (by omega)] at ensured
  obtain ⟨u, ensured', empty, -⟩ := new_ensureWritableBytes fits
  obtain rfl : other = u := Option.some.inj (ensured.symm.trans ensured')
  obtain ⟨inside, ⟨⟩⟩ := Option.ite_none_right_eq_some.mp loaded
  refine ⟨_, append_represents empty appended, ?_⟩
  rw [List.nil_append, List.length_take, List.length_drop]
  omega

/-- **Shrinking.** -/
theorem shrinks_iff (valid : b.Valid)
    (fits : kCheapPrepend + b.readableBytes + reserve < SizeT.range) :
    b.Shrinks reserve ↔ b.readableBytes < 2 ^ 31 ∨ 2 ^ 64 - 2 ^ 31 ≤ b.readableBytes := by
  have rep := valid.represents
  have readable := rep.readableBytes
  have bound : b.readableBytes < SizeT.range := by omega
  rw [← ofInt_toInt_eq_iff bound]
  change _ ↔ SizeT.ofInt b.toStringPiece.size = b.readableBytes
  constructor
  · rintro ⟨t, shrunk, content, -⟩
    rw [readable] at fits
    obtain ⟨copied, rep', length⟩ := shrink_represents rep fits shrunk
    rw [← length, ← rep'.content, content, readable]
  · intro same
    rw [Nat.add_assoc] at fits
    obtain ⟨u, ensured, empty, reader, writer, room⟩ := new_ensureWritableBytes fits
    have loaded : Block.load b.buffer b.readerIndex b.readableBytes = some b.content := by
      have inside : b.readerIndex + b.readableBytes ≤ b.buffer.length := by
        have := rep.length
        have := valid.reader
        have := valid.writer
        omega
      rw [Block.load_eq inside, readable, rep.length]
      rfl
    have space : u.writerIndex + b.content.length ≤ u.buffer.length := by omega
    obtain ⟨t, appended, rep', length, reader', writer'⟩ := append_room empty space
    refine ⟨t, ?_, rep'.content, ?_, ?_⟩
    · simp only [shrink, appendPiece, SizeT.add_eq (a := b.readableBytes) (b := reserve) (by omega),
        ensured, same, Option.bind_eq_bind, Option.bind_some]
      change (Block.load b.buffer b.readerIndex b.readableBytes).bind _ = _
      rw [loaded, Option.bind_some, appended]
    · exact reader'.trans reader
    · rw [rep'.writableBytes]
      omega

end Buffer

end Dbdky.Port
