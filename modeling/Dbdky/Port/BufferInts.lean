import Dbdky.Memory.ByteOrder
import Dbdky.Port.Buffer

/-!
Integers in a `Buffer` (`src/port/Buffer.h`, `src/port/Endian.h`).

An integer lies in the buffer with its most significant byte first. A signed and an
unsigned integer of one width are the same word, so the conversions between them that
the calls make are not seen here.

* **`appendIntN_eq`, `prependIntN_eq`.** What is stored does not depend on the machine.
* **`readIntN_spec`.** A read takes the word off that the bytes at the front encode.
-/

namespace Dbdky.Port

open Memory

section Endian

variable (host : ByteOrder)

def hostToNetwork32 (host32 : BitVec 32) : BitVec 32 := host.htobe (n := 4) host32

def networkToHost32 (net32 : BitVec 32) : BitVec 32 := host.betoh (n := 4) net32

def hostToNetwork16 (host16 : BitVec 16) : BitVec 16 := host.htobe (n := 2) host16

def networkToHost16 (net16 : BitVec 16) : BitVec 16 := host.betoh (n := 2) net16

end Endian

/-- The widths that the interface of `Buffer` knows. -/
inductive Width where
  | int8
  | int16
  | int32
deriving DecidableEq, Repr

/-- `sizeof` -/
def Width.size : Width → Nat
  | int8 => 1
  | int16 => 2
  | int32 => 4

/-- An integer of one of these widths. -/
structure IntN where
  width : Width
  value : BitVec (8 * width.size)
deriving DecidableEq, Repr

namespace Buffer

variable (host : ByteOrder) (b : Buffer)

/-- `peekInt8`, `peekInt16` and `peekInt32`: `n` bytes, converted from the order of the
network. -/
def peekInt (n : Nat) (networkToHost : BitVec (8 * n) → BitVec (8 * n)) :
    Option (BitVec (8 * n)) := do
  assert (b.readableBytes ≥ n)
  let bytes ← Block.load b.buffer b.readerIndex n
  some (networkToHost (host.word n bytes))

def peekInt32 : Option (BitVec 32) := b.peekInt host 4 (networkToHost32 host)

def peekInt16 : Option (BitVec 16) := b.peekInt host 2 (networkToHost16 host)

def peekInt8 : Option (BitVec 8) := b.peekInt host 1 id

def retrieveInt32 : Option Buffer := b.retrieve 4

def retrieveInt16 : Option Buffer := b.retrieve 2

def retrieveInt8 : Option Buffer := b.retrieve 1

def readInt32 : Option (BitVec 32 × Buffer) := do
  let result ← b.peekInt32 host
  let b ← b.retrieveInt32
  some (result, b)

def readInt16 : Option (BitVec 16 × Buffer) := do
  let result ← b.peekInt16 host
  let b ← b.retrieveInt16
  some (result, b)

def readInt8 : Option (BitVec 8 × Buffer) := do
  let result ← b.peekInt8 host
  let b ← b.retrieveInt8
  some (result, b)

def appendInt32 (x : BitVec 32) : Option Buffer :=
  let be32 := hostToNetwork32 host x
  b.append (host.bytes (n := 4) be32)

def appendInt16 (x : BitVec 16) : Option Buffer :=
  let be16 := hostToNetwork16 host x
  b.append (host.bytes (n := 2) be16)

def appendInt8 (x : BitVec 8) : Option Buffer := b.append (host.bytes (n := 1) x)

def prependInt32 (x : BitVec 32) : Option Buffer :=
  let be32 := hostToNetwork32 host x
  b.prepend (host.bytes (n := 4) be32)

def prependInt16 (x : BitVec 16) : Option Buffer :=
  let be16 := hostToNetwork16 host x
  b.prepend (host.bytes (n := 2) be16)

def prependInt8 (x : BitVec 8) : Option Buffer := b.prepend (host.bytes (n := 1) x)

/-! ### By width -/

/-- `retrieveInt8`, `retrieveInt16` and `retrieveInt32` -/
def retrieveIntN : Width → Option Buffer
  | .int8 => b.retrieveInt8
  | .int16 => b.retrieveInt16
  | .int32 => b.retrieveInt32

/-- `readInt8`, `readInt16` and `readInt32` -/
def readIntN : (width : Width) → Option (BitVec (8 * width.size) × Buffer)
  | .int8 => b.readInt8 host
  | .int16 => b.readInt16 host
  | .int32 => b.readInt32 host

/-- `appendInt8`, `appendInt16` and `appendInt32` -/
def appendIntN : IntN → Option Buffer
  | ⟨.int8, x⟩ => b.appendInt8 host x
  | ⟨.int16, x⟩ => b.appendInt16 host x
  | ⟨.int32, x⟩ => b.appendInt32 host x

/-- `prependInt8`, `prependInt16` and `prependInt32` -/
def prependIntN : IntN → Option Buffer
  | ⟨.int8, x⟩ => b.prependInt8 host x
  | ⟨.int16, x⟩ => b.prependInt16 host x
  | ⟨.int32, x⟩ => b.prependInt32 host x

end Buffer

/-- The bytes of an integer as it lies in a buffer. -/
def IntN.encoded (x : IntN) : List UInt8 := ByteOrder.big.bytes x.value

@[simp] theorem IntN.length_encoded (x : IntN) : x.encoded.length = x.width.size :=
  ByteOrder.length_bytes _ _

namespace Buffer

variable {host : ByteOrder} {b : Buffer} {c : List UInt8}

theorem retrieveIntN_eq (width : Width) : b.retrieveIntN width = b.retrieve width.size := by
  cases width <;> rfl

theorem appendIntN_eq (x : IntN) : b.appendIntN host x = b.append x.encoded := by
  obtain ⟨width, value⟩ := x
  cases width with
  | int8 => exact congrArg b.append (host.bytes_byte value)
  | int16 => exact congrArg b.append (host.bytes_htobe (n := 2) value)
  | int32 => exact congrArg b.append (host.bytes_htobe (n := 4) value)

theorem prependIntN_eq (x : IntN) : b.prependIntN host x = b.prepend x.encoded := by
  obtain ⟨width, value⟩ := x
  cases width with
  | int8 => exact congrArg b.prepend (host.bytes_byte value)
  | int16 => exact congrArg b.prepend (host.bytes_htobe (n := 2) value)
  | int32 => exact congrArg b.prepend (host.bytes_htobe (n := 4) value)

theorem appendIntN_spec (host : ByteOrder) {x : IntN} (rep : Represents b c)
    (fits : b.Fits x.width.size) :
    ∃ t, b.appendIntN host x = some t ∧ Represents t (c ++ x.encoded) := by
  rw [← x.length_encoded] at fits
  rw [appendIntN_eq]
  exact append_spec rep fits

theorem prependIntN_spec (host : ByteOrder) {x : IntN} (rep : Represents b c)
    (room : x.width.size ≤ b.prependableBytes) :
    ∃ t, b.prependIntN host x = some t ∧ Represents t (x.encoded ++ c) := by
  rw [← x.length_encoded] at room
  rw [prependIntN_eq]
  exact prepend_spec rep room

theorem peekInt_spec (host : ByteOrder) {n : Nat} (x : BitVec (8 * n))
    (rep : Represents b (ByteOrder.big.bytes x ++ c)) : b.peekInt host n host.betoh = some x := by
  have valid := rep.valid
  have reader := valid.reader
  have writer := valid.writer
  have length := rep.length
  rw [List.length_append, ByteOrder.length_bytes] at length
  have enough : b.readableBytes ≥ n := by
    rw [rep.readableBytes, List.length_append, ByteOrder.length_bytes]
    exact Nat.le_add_right _ _
  have loaded : (b.buffer.drop b.readerIndex).take n = ByteOrder.big.bytes x := by
    have first : n ≤ b.writerIndex - b.readerIndex := by omega
    have content := congrArg (List.take n) rep.content
    rw [Buffer.content, List.take_take, Nat.min_eq_left first,
      List.take_left' (ByteOrder.length_bytes _ _)] at content
    exact content
  have inside : b.readerIndex + n ≤ b.buffer.length := by omega
  simp only [peekInt, assert_eq enough, Block.load_eq inside, loaded, Option.bind_eq_bind,
    Option.bind_some, host.betoh_word (ByteOrder.length_bytes _ _), ByteOrder.word_bytes]

theorem readIntN_eq (host : ByteOrder) (b : Buffer) (width : Width) :
    b.readIntN host width =
      (b.peekInt host width.size host.betoh).bind fun result =>
        (b.retrieve width.size).bind fun t => some (result, t) := by
  cases width with
  | int8 =>
      have same : host.betoh (n := 1) = id := funext host.betoh_byte
      change b.readInt8 host = (b.peekInt host 1 (host.betoh (n := 1))).bind _
      rw [same]
      rfl
  | int16 => rfl
  | int32 => rfl

theorem readIntN_spec (host : ByteOrder) (x : IntN) (rep : Represents b (x.encoded ++ c)) :
    ∃ t, b.readIntN host x.width = some (x.value, t) ∧ Represents t c := by
  have enough : x.width.size ≤ (x.encoded ++ c).length := by
    rw [List.length_append, IntN.length_encoded]
    exact Nat.le_add_right _ _
  obtain ⟨t, retrieved, after⟩ := retrieve_spec rep enough
  rw [List.drop_left' x.length_encoded] at after
  refine ⟨t, ?_, after⟩
  rw [readIntN_eq, peekInt_spec host x.value rep, retrieved]
  rfl

/-- Whatever lies at the front is the encoding of some integer. -/
theorem readIntN_front (host : ByteOrder) {width : Width} (rep : Represents b c)
    (enough : width.size ≤ c.length) :
    ∃ t, b.readIntN host width = some (ByteOrder.big.word width.size (c.take width.size), t) ∧
      Represents t (c.drop width.size) := by
  have encoded : ByteOrder.big.bytes (ByteOrder.big.word width.size (c.take width.size)) =
      c.take width.size := ByteOrder.big.bytes_word (List.length_take_of_le enough)
  refine readIntN_spec host ⟨width, ByteOrder.big.word width.size (c.take width.size)⟩ ?_
  rw [IntN.encoded, encoded, List.take_append_drop]
  exact rep

end Buffer

end Dbdky.Port
