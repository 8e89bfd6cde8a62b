import Dbdky.Memory.Block

/-!
`Buffer` (`src/port/Buffer.{h,cpp}`): one byte vector with a reader and a writer index.

The record is raw: nothing keeps the indices in order but the operations themselves.
Size arithmetic is that of `size_t`, memory is touched through `Block`, and an operation
whose assertion fails or that leaves the vector's storage is `none`.

* **`Represents b c`.** The indices of `b` are in order and the bytes between them are `c`.
  One specification lemma per operation says what becomes of `c`; callers use these and
  never unfold an operation.
-/

namespace Dbdky.Port

/-- `assert(p)` -/
def assert (p : Prop) [Decidable p] : Option Unit := if p then some () else none

@[simp] theorem assert_eq {p : Prop} [Decidable p] (holds : p) : assert p = some () := if_pos holds

abbrev Errno := Int

structure Buffer where
  buffer : List UInt8
  readerIndex : Nat
  writerIndex : Nat
deriving DecidableEq, Repr

namespace Buffer

def kCheapPrepend : Nat := 8
def kInitialSize : Nat := 1024

/-- `Buffer()` -/
def new : Buffer where
  buffer := List.replicate (kCheapPrepend + kInitialSize) 0
  readerIndex := kCheapPrepend
  writerIndex := kCheapPrepend

variable (b : Buffer)

def readableBytes : Nat := SizeT.sub b.writerIndex b.readerIndex

def writableBytes : Nat := SizeT.sub b.buffer.length b.writerIndex

def prependableBytes : Nat := b.readerIndex

def retrieveAll : Buffer := { b with readerIndex := kCheapPrepend, writerIndex := kCheapPrepend }

def retrieve (len : Nat) : Option Buffer := do
  assert (len ≤ b.readableBytes)
  if len < b.readableBytes then
    some { b with readerIndex := SizeT.add b.readerIndex len }
  else
    some b.retrieveAll

def retriveAsString (len : Nat) : Option (List UInt8 × Buffer) := do
  assert (len ≤ b.readableBytes)
  let result ← Block.load b.buffer b.readerIndex len
  let b ← b.retrieve len
  some (result, b)

def retrieveAllAsString : Option (List UInt8 × Buffer) := b.retriveAsString b.readableBytes

def makeSpace (len : Nat) : Option Buffer :=
  if SizeT.add b.writableBytes b.prependableBytes < SizeT.add len kCheapPrepend then
    some { b with buffer := Block.resize b.buffer (SizeT.add b.writerIndex len) 0 }
  else do
    assert (kCheapPrepend < b.readerIndex)
    let readable := b.readableBytes
    let buffer ← Block.copyForward b.buffer b.readerIndex kCheapPrepend readable
    let b : Buffer :=
      { buffer, readerIndex := kCheapPrepend, writerIndex := SizeT.add kCheapPrepend readable }
    assert (readable = b.readableBytes)
    some b

def ensureWritableBytes (len : Nat) : Option Buffer := do
  let b ← if b.writableBytes < len then b.makeSpace len else some b
  assert (b.writableBytes ≥ len)
  some b

def hasWritten (len : Nat) : Buffer := { b with writerIndex := SizeT.add b.writerIndex len }

/-- `append(data, len)` -/
def append (data : List UInt8) : Option Buffer := do
  let b ← b.ensureWritableBytes data.length
  let buffer ← Block.store b.buffer b.writerIndex data
  some ({ b with buffer }.hasWritten data.length)

/-- `prepend(data, len)` -/
def prepend (data : List UInt8) : Option Buffer := do
  assert (data.length ≤ b.prependableBytes)
  let readerIndex := SizeT.sub b.readerIndex data.length
  let buffer ← Block.store b.buffer readerIndex data
  some { b with buffer, readerIndex }

/-- `sizeof extrabuf` -/
def extrabufSize : Nat := 65536

/-- `readFd`, when `readv` fails with an error number or delivers `bytes`: the buffer,
the returned `n` and what is stored in `*savedErrno`. `readv` never delivers more than
the two areas hold. -/
def readFd : Except Errno (List UInt8) → Option (Buffer × Int × Option Errno)
  | .error errno => some (b, -1, some errno)
  | .ok bytes => do
      let writable := b.writableBytes
      let n := bytes.length
      assert (n ≤ writable + extrabufSize)
      let buffer ← Block.store b.buffer b.writerIndex (bytes.take writable)
      let b := { b with buffer }
      if n ≤ writable then
        some ({ b with writerIndex := SizeT.add b.writerIndex n }, n, none)
      else do
        let b := { b with writerIndex := b.buffer.length }
        let b ← b.append (bytes.drop writable)
        some (b, n, none)

/-! ### The content -/

/-- The bytes between the two indices. -/
def content : List UInt8 :=
  (b.buffer.drop b.readerIndex).take (b.writerIndex - b.readerIndex)

/-- The indices are in order and inside the vector, whose size is a `size_t`. The writer
never falls below `kCheapPrepend`; the reader does, after a `prepend`. -/
structure Valid : Prop where
  reader : b.readerIndex ≤ b.writerIndex
  writer : b.writerIndex ≤ b.buffer.length
  cheap : kCheapPrepend ≤ b.writerIndex
  size : b.buffer.length < SizeT.range

/-- Room for `len` more bytes: they fit once the free space is joined, or the vector can
grow to hold them. -/
def Fits (len : Nat) : Prop :=
  b.content.length + len + kCheapPrepend ≤ b.buffer.length ∨ b.writerIndex + len < SizeT.range

instance (len : Nat) : Decidable (b.Fits len) := inferInstanceAs (Decidable (_ ∨ _))

variable {b} {c xs : List UInt8} {len : Nat}

/-- The buffer holds the bytes `c` between two well-placed indices. -/
structure Represents (b : Buffer) (c : List UInt8) : Prop where
  valid : b.Valid
  content : b.content = c

theorem Valid.represents (valid : b.Valid) : Represents b b.content := ⟨valid, rfl⟩

theorem Valid.length_content (valid : b.Valid) :
    b.content.length = b.writerIndex - b.readerIndex := by
  have := valid.reader
  have := valid.writer
  simp only [Buffer.content, List.length_take, List.length_drop]
  omega

theorem Represents.length (rep : Represents b c) :
    c.length = b.writerIndex - b.readerIndex := by
  rw [← rep.content, rep.valid.length_content]

/-- The vector in three parts. -/
theorem Represents.split (rep : Represents b c) :
    b.buffer = b.buffer.take b.readerIndex ++ c ++ b.buffer.drop b.writerIndex := by
  have ordered := rep.valid.reader
  have tail : b.buffer.drop b.writerIndex =
      (b.buffer.drop b.readerIndex).drop (b.writerIndex - b.readerIndex) := by
    rw [List.drop_drop]
    congr 1
    omega
  rw [← rep.content, Buffer.content, tail, List.append_assoc, List.take_append_drop,
    List.take_append_drop]

/-- A vector in three parts, with the indices at the two borders. -/
theorem Represents.of_split (front back : List UInt8) (split : b.buffer = front ++ c ++ back)
    (reader : b.readerIndex = front.length) (writer : b.writerIndex = front.length + c.length)
    (cheap : kCheapPrepend ≤ b.writerIndex) (size : b.buffer.length < SizeT.range) :
    Represents b c := by
  refine ⟨⟨by omega, ?_, cheap, size⟩, ?_⟩
  · rw [split, writer]
    simp
  · rw [Buffer.content, split, reader, writer, List.append_assoc, List.drop_left,
      Nat.add_sub_cancel_left, List.take_left]

theorem Represents.readableBytes (rep : Represents b c) : b.readableBytes = c.length := by
  rw [rep.length, Buffer.readableBytes]
  exact SizeT.sub_eq rep.valid.reader (Nat.lt_of_le_of_lt rep.valid.writer rep.valid.size)

theorem Represents.writableBytes (rep : Represents b c) :
    b.writableBytes = b.buffer.length - b.writerIndex :=
  SizeT.sub_eq rep.valid.writer rep.valid.size

theorem Represents.fits_iff (rep : Represents b c) :
    b.Fits len ↔ c.length + len + kCheapPrepend ≤ b.buffer.length ∨
      b.writerIndex + len < SizeT.range := by
  rw [Fits, rep.content]

/-! ### What each operation does to the content -/

theorem new_represents : Represents new [] := by
  have size : new.buffer.length = kCheapPrepend + kInitialSize := List.length_replicate
  refine .of_split (List.replicate kCheapPrepend 0) (List.replicate kInitialSize 0) ?_
    List.length_replicate.symm
    List.length_replicate.symm (Nat.le_refl _) (by rw [size]; decide)
  rw [List.append_nil, List.replicate_append_replicate]
  rfl

theorem retrieveAll_represents (rep : Represents b c) : Represents b.retrieveAll [] := by
  have := rep.valid.cheap
  have := rep.valid.writer
  refine .of_split (b.buffer.take kCheapPrepend) (b.buffer.drop kCheapPrepend)
    (by simp [retrieveAll]) ?_ ?_ (Nat.le_refl _) rep.valid.size
  all_goals
    simp only [retrieveAll, List.length_take, List.length_nil]
    omega

theorem retrieve_spec (rep : Represents b c) (enough : len ≤ c.length) :
    ∃ t, b.retrieve len = some t ∧ Represents t (c.drop len) := by
  obtain ⟨valid, -⟩ := id rep
  have length := rep.length
  simp only [retrieve, rep.readableBytes, assert_eq enough, Option.bind_eq_bind, Option.bind_some]
  split
  · rename_i less
    have bound : b.readerIndex + len < SizeT.range := by
      have := valid.writer
      have := valid.size
      omega
    refine ⟨_, rfl, .of_split (b.buffer.take b.readerIndex ++ c.take len)
      (b.buffer.drop b.writerIndex) ?_ ?_ ?_ valid.cheap valid.size⟩
    · rw [List.append_assoc (b.buffer.take b.readerIndex), List.take_append_drop]
      exact rep.split
    all_goals
      have := valid.reader
      have := valid.writer
      simp only [SizeT.add_eq bound, List.length_append, List.length_take, List.length_drop]
      omega
  · rename_i all
    refine ⟨_, rfl, ?_⟩
    rw [List.drop_of_length_le (Nat.not_lt.mp all)]
    exact retrieveAll_represents rep

theorem retriveAsString_spec (rep : Represents b c) (enough : len ≤ c.length) :
    ∃ t, b.retriveAsString len = some (c.take len, t) ∧ Represents t (c.drop len) := by
  obtain ⟨t, retrieved, after⟩ := retrieve_spec rep enough
  have inside : b.readerIndex + len ≤ b.buffer.length := by
    have := rep.length
    have := rep.valid.reader
    have := rep.valid.writer
    omega
  have loaded : (b.buffer.drop b.readerIndex).take len = c.take len := by
    rw [← rep.content, Buffer.content, List.take_take, ← rep.length, Nat.min_eq_left enough]
  refine ⟨t, ?_, after⟩
  simp only [retriveAsString, rep.readableBytes, assert_eq enough, Block.load_eq inside, loaded,
    retrieved, Option.bind_eq_bind, Option.bind_some]

theorem prepend_spec (rep : Represents b c) (room : xs.length ≤ b.prependableBytes) :
    ∃ t, b.prepend xs = some t ∧ Represents t (xs ++ c) := by
  obtain ⟨valid, -⟩ := id rep
  have := valid.reader
  have := valid.writer
  have := valid.size
  have front : xs.length ≤ b.readerIndex := room
  have sub : SizeT.sub b.readerIndex xs.length = b.readerIndex - xs.length :=
    SizeT.sub_eq front (by omega)
  have stored := Block.store_eq b.buffer xs (i := b.readerIndex - xs.length) (by omega)
  have back : b.buffer.drop b.readerIndex = c ++ b.buffer.drop b.writerIndex := by
    conv_lhs => rw [rep.split, List.append_assoc]
    rw [List.drop_left' (by simp; omega)]
  rw [Nat.sub_add_cancel front, back] at stored
  simp only [prepend, assert_eq room, sub, stored, Option.bind_eq_bind, Option.bind_some]
  refine ⟨_, rfl, .of_split (b.buffer.take (b.readerIndex - xs.length))
    (b.buffer.drop b.writerIndex) (by simp) ?_ ?_ valid.cheap ?_⟩
  · simp
    omega
  · have := rep.length
    simp
    omega
  · have := rep.length
    simp
    omega

/-- A larger vector holds the same content. -/
theorem Represents.grow {size : Nat} (rep : Represents b c) (larger : b.buffer.length ≤ size)
    (bound : size < SizeT.range) :
    Represents { b with buffer := Block.resize b.buffer size 0 } c := by
  have := rep.valid.reader
  have := rep.valid.writer
  have := rep.length
  refine .of_split (b.buffer.take b.readerIndex)
    (b.buffer.drop b.writerIndex ++ List.replicate (size - b.buffer.length) 0)
    ?_ ?_ ?_ rep.valid.cheap ?_
  · rw [Block.resize_eq_append larger, ← List.append_assoc, ← rep.split]
  · simp
    omega
  · simp
    omega
  · rw [Block.length_resize]
    exact bound

/-- The content moved down to `kCheapPrepend`: both ranges may overlap. -/
theorem Represents.moveDown (rep : Represents b c) (below : kCheapPrepend < b.readerIndex) :
    ∃ buffer, Block.copyForward b.buffer b.readerIndex kCheapPrepend c.length = some buffer ∧
      buffer.length = b.buffer.length ∧
      Represents ⟨buffer, kCheapPrepend, kCheapPrepend + c.length⟩ c := by
  have reader := rep.valid.reader
  have writer := rep.valid.writer
  have size := rep.valid.size
  have length := rep.length
  have moved := Block.copyForward_eq b.buffer c.length (Nat.le_of_lt below) (by omega)
  have content : (b.buffer.drop b.readerIndex).take c.length = c := by
    rw [length]
    exact rep.content
  rw [content] at moved
  simp only [kCheapPrepend] at below
  refine ⟨_, moved, ?_, .of_split _ _ rfl ?_ ?_ (Nat.le_add_right _ _) ?_⟩
  all_goals
    simp [kCheapPrepend]
    omega

/-- **`makeSpace`.** Its assertions hold: when the vector does not grow, the bytes that
lack behind the writer are free before the reader, beyond `kCheapPrepend`. -/
theorem makeSpace_spec (rep : Represents b c) (fits : b.Fits len)
    (short : b.buffer.length - b.writerIndex < len) :
    ∃ t, b.makeSpace len = some t ∧ Represents t c ∧
      t.writerIndex + len ≤ t.buffer.length := by
  obtain ⟨⟨reader, writer, cheap, size⟩, -⟩ := id rep
  have length := rep.length
  rw [rep.fits_iff] at fits
  simp only [kCheapPrepend] at cheap fits
  have need : SizeT.add len kCheapPrepend = len + 8 :=
    SizeT.add_eq (by simp only [kCheapPrepend]; omega)
  have free : SizeT.add b.writableBytes b.prependableBytes =
      b.buffer.length - b.writerIndex + b.readerIndex := by
    rw [rep.writableBytes]
    exact SizeT.add_eq (by simp only [prependableBytes]; omega)
  rw [makeSpace, free, need]
  split
  · -- the vector grows to exactly the size that is needed
    have grown : SizeT.add b.writerIndex len = b.writerIndex + len := SizeT.add_eq (by omega)
    rw [grown]
    refine ⟨_, rfl, rep.grow (by omega) (by omega), ?_⟩
    simp only [Block.length_resize, Nat.le_refl]
  · have below : kCheapPrepend < b.readerIndex := by
      simp only [kCheapPrepend]
      omega
    obtain ⟨buffer, moved, same, rep'⟩ := rep.moveDown below
    have writer' : SizeT.add kCheapPrepend c.length = kCheapPrepend + c.length :=
      SizeT.add_eq (by simp only [kCheapPrepend]; omega)
    simp only [rep.readableBytes, assert_eq below, moved, writer', Option.bind_eq_bind,
      Option.bind_some, assert_eq rep'.readableBytes.symm]
    refine ⟨_, rfl, rep', ?_⟩
    simp only [kCheapPrepend, same]
    omega

theorem ensureWritableBytes_spec (rep : Represents b c) (fits : b.Fits len) :
    ∃ t, b.ensureWritableBytes len = some t ∧ Represents t c ∧
      t.writerIndex + len ≤ t.buffer.length := by
  have enough : ∀ {t : Buffer}, Represents t c → t.writerIndex + len ≤ t.buffer.length →
      t.writableBytes ≥ len := by
    intro t rep' room
    rw [rep'.writableBytes]
    omega
  simp only [ensureWritableBytes, rep.writableBytes]
  split
  · rename_i short
    obtain ⟨t, made, rep', room⟩ := makeSpace_spec rep fits short
    refine ⟨t, ?_, rep', room⟩
    simp only [made, assert_eq (enough rep' room), Option.bind_eq_bind, Option.bind_some]
  · have room : b.writerIndex + len ≤ b.buffer.length := by
      have := rep.valid.writer
      omega
    refine ⟨b, ?_, rep, room⟩
    simp only [assert_eq (enough rep room), Option.bind_eq_bind, Option.bind_some]

/-- Bytes written behind the writer, with the writer moved past them. -/
theorem Represents.write (rep : Represents b c)
    (room : b.writerIndex + xs.length ≤ b.buffer.length) :
    ∃ buffer, Block.store b.buffer b.writerIndex xs = some buffer ∧
      buffer.length = b.buffer.length ∧
      Represents { b with buffer, writerIndex := b.writerIndex + xs.length } (c ++ xs) := by
  have stored := Block.store_eq b.buffer xs room
  have length := Block.length_store stored
  have := rep.valid.reader
  have := rep.valid.cheap
  have := rep.length
  have front : b.buffer.take b.writerIndex = b.buffer.take b.readerIndex ++ c := by
    conv_lhs => rw [rep.split]
    exact List.take_left' (by simp; omega)
  rw [front] at stored
  refine ⟨_, stored, Block.length_store stored, .of_split (b.buffer.take b.readerIndex)
    (b.buffer.drop (b.writerIndex + xs.length)) (by simp) ?_ ?_ (by simp; omega) ?_⟩
  · simp
    omega
  · simp
    omega
  · have size := rep.valid.size
    rw [← Block.length_store stored] at size
    exact size

theorem append_spec (rep : Represents b c) (fits : b.Fits xs.length) :
    ∃ t, b.append xs = some t ∧ Represents t (c ++ xs) := by
  obtain ⟨u, ensured, repU, room⟩ := ensureWritableBytes_spec rep fits
  obtain ⟨buffer, stored, -, rep'⟩ := repU.write room
  have writer : SizeT.add u.writerIndex xs.length = u.writerIndex + xs.length :=
    SizeT.add_eq (Nat.lt_of_le_of_lt room repU.valid.size)
  refine ⟨_, ?_, rep'⟩
  simp only [append, ensured, stored, hasWritten, writer, Option.bind_eq_bind, Option.bind_some]

/-! ### What has happened when an operation has returned -/

theorem makeSpace_cases {t : Buffer} (made : b.makeSpace len = some t) :
    t = { b with buffer := Block.resize b.buffer (SizeT.add b.writerIndex len) 0 } ∨
      kCheapPrepend < b.readerIndex ∧ ∃ buffer,
        Block.copyForward b.buffer b.readerIndex kCheapPrepend b.readableBytes = some buffer ∧
        t = ⟨buffer, kCheapPrepend, SizeT.add kCheapPrepend b.readableBytes⟩ := by
  unfold makeSpace at made
  split at made
  · exact .inl (Option.some.inj made).symm
  · simp only [Option.bind_eq_bind, Option.bind_eq_some_iff] at made
    obtain ⟨_, below, buffer, moved, _, -, ⟨⟩⟩ := made
    exact .inr ⟨(Option.ite_none_right_eq_some.mp below).1, buffer, moved, rfl⟩

theorem ensureWritableBytes_cases {t : Buffer} (ensured : b.ensureWritableBytes len = some t) :
    t = b ∨ b.writableBytes < len ∧ b.makeSpace len = some t := by
  simp only [ensureWritableBytes, Option.bind_eq_bind] at ensured
  split at ensured
  · rename_i short
    simp only [Option.bind_eq_some_iff] at ensured
    obtain ⟨u, made, -, -, ⟨⟩⟩ := ensured
    exact .inr ⟨short, made⟩
  · simp only [Option.bind_some, Option.bind_eq_some_iff] at ensured
    obtain ⟨-, -, ⟨⟩⟩ := ensured
    exact .inl rfl

theorem append_cases {t : Buffer} (appended : b.append xs = some t) :
    ∃ u buffer, b.ensureWritableBytes xs.length = some u ∧
      Block.store u.buffer u.writerIndex xs = some buffer ∧
      t = { u with buffer, writerIndex := SizeT.add u.writerIndex xs.length } := by
  simp only [append, Option.bind_eq_bind, Option.bind_eq_some_iff] at appended
  obtain ⟨u, ensured, buffer, stored, ⟨⟩⟩ := appended
  exact ⟨u, buffer, ensured, stored, rfl⟩

/-- Making space leaves the reader alone or moves it to `kCheapPrepend`. -/
theorem ensureWritableBytes_readerIndex {t : Buffer}
    (ensured : b.ensureWritableBytes len = some t) :
    t.readerIndex = b.readerIndex ∨ t.readerIndex = kCheapPrepend := by
  obtain rfl | ⟨-, made⟩ := ensureWritableBytes_cases ensured
  · exact .inl rfl
  · obtain rfl | ⟨-, buffer, -, rfl⟩ := makeSpace_cases made
    · exact .inl rfl
    · exact .inr rfl

theorem append_prependableBytes {t : Buffer} (appended : b.append xs = some t) :
    min b.prependableBytes kCheapPrepend ≤ t.prependableBytes := by
  obtain ⟨u, buffer, ensured, -, rfl⟩ := append_cases appended
  change _ ≤ u.readerIndex
  obtain same | moved := ensureWritableBytes_readerIndex ensured
  · rw [same]
    exact Nat.min_le_left _ _
  · rw [moved]
    exact Nat.min_le_right _ _

/-- Only what fits is appended: where the size of the vector wraps around, the bytes do not
find room in it. -/
theorem fits_of_append {t : Buffer} (rep : Represents b c) (appended : b.append xs = some t) :
    b.Fits xs.length := by
  obtain ⟨u, buffer, ensured, stored, -⟩ := append_cases appended
  have room := (Option.ite_none_right_eq_some.mp stored).1
  have writer := rep.valid.writer
  have size := rep.valid.size
  rw [rep.fits_iff]
  obtain rfl | ⟨-, made⟩ := ensureWritableBytes_cases ensured
  · exact .inr (Nat.lt_of_le_of_lt room size)
  · obtain rfl | ⟨below, buffer, moved, rfl⟩ := makeSpace_cases made
    · have wrapped : SizeT.add b.writerIndex xs.length < SizeT.range :=
        Nat.mod_lt _ (by decide)
      simp only [Block.length_resize] at room
      exact .inr (Nat.lt_of_le_of_lt room wrapped)
    · rw [rep.readableBytes] at moved room
      obtain ⟨buffer', moved', length, -⟩ := rep.moveDown below
      obtain rfl : buffer = buffer' := Option.some.inj (moved.symm.trans moved')
      have small : kCheapPrepend + c.length < SizeT.range := by
        have := rep.length
        have := rep.valid.cheap
        omega
      simp only [SizeT.add_eq small, length] at room
      left
      omega

theorem append_represents {t : Buffer} (rep : Represents b c) (appended : b.append xs = some t) :
    Represents t (c ++ xs) := by
  obtain ⟨u, appended', after⟩ := append_spec rep (fits_of_append rep appended)
  obtain rfl : t = u := Option.some.inj (appended.symm.trans appended')
  exact after

/-- Where there is room, nothing is moved. -/
theorem append_room (rep : Represents b c) (room : b.writerIndex + xs.length ≤ b.buffer.length) :
    ∃ t, b.append xs = some t ∧ Represents t (c ++ xs) ∧ t.buffer.length = b.buffer.length ∧
      t.readerIndex = b.readerIndex ∧ t.writerIndex = b.writerIndex + xs.length := by
  obtain ⟨buffer, stored, length, after⟩ := rep.write room
  have enough : b.writableBytes ≥ xs.length := by
    rw [rep.writableBytes]
    omega
  have writer : SizeT.add b.writerIndex xs.length = b.writerIndex + xs.length :=
    SizeT.add_eq (Nat.lt_of_le_of_lt room rep.valid.size)
  refine ⟨_, ?_, after, length, rfl, rfl⟩
  simp only [append, ensureWritableBytes, if_neg (Nat.not_lt.mpr enough), assert_eq enough, stored,
    hasWritten, writer, Option.bind_eq_bind, Option.bind_some]

theorem readFd_error (errno : Errno) : b.readFd (.error errno) = some (b, -1, some errno) := rfl

/-- **`readFd`.** What does not fit behind the writer goes through `extrabuf` and is
appended to a vector that is full by then. -/
theorem readFd_spec (rep : Represents b c)
    (asked : xs.length ≤ b.writableBytes + extrabufSize) (fits : b.Fits xs.length) :
    ∃ t, b.readFd (.ok xs) = some (t, (xs.length : Int), none) ∧ Represents t (c ++ xs) := by
  have valid := rep.valid
  have := valid.writer
  rw [rep.writableBytes] at asked
  simp only [readFd, rep.writableBytes, assert_eq asked, Option.bind_eq_bind, Option.bind_some]
  have room : b.writerIndex + (xs.take (b.buffer.length - b.writerIndex)).length ≤
      b.buffer.length := by
    simp only [List.length_take]
    omega
  obtain ⟨buffer, stored, length, rep'⟩ := rep.write room
  rw [stored]
  simp only [Option.bind_some]
  split
  · rename_i small
    rw [List.take_of_length_le small] at rep'
    have writer : SizeT.add b.writerIndex xs.length = b.writerIndex + xs.length :=
      SizeT.add_eq (by have := valid.size; omega)
    rw [writer]
    exact ⟨_, rfl, rep'⟩
  · rename_i large
    have full : b.writerIndex + (xs.take (b.buffer.length - b.writerIndex)).length =
        buffer.length := by
      simp only [List.length_take]
      omega
    rw [full] at rep'
    have fits' : Fits ⟨buffer, b.readerIndex, buffer.length⟩
        (xs.drop (b.buffer.length - b.writerIndex)).length := by
      rw [rep.fits_iff] at fits
      rw [rep'.fits_iff]
      simp only [List.length_append, List.length_drop, List.length_take]
      omega
    obtain ⟨t, appended, after⟩ := append_spec rep' fits'
    rw [List.append_assoc, List.take_append_drop] at after
    exact ⟨t, by rw [appended]; rfl, after⟩

/-! ### A buffer whose content is taken as a whole -/

/-- As the constructor and `retrieveAll` leave it. -/
structure Drained (b : Buffer) : Prop where
  represents : Represents b []
  writer : b.writerIndex = kCheapPrepend

theorem new_drained : new.Drained := ⟨new_represents, rfl⟩

theorem retrieveAll_drained (rep : Represents b c) : b.retrieveAll.Drained :=
  ⟨retrieveAll_represents rep, rfl⟩

theorem retriveAsString_all (rep : Represents b c) :
    b.retriveAsString c.length = some (c, b.retrieveAll) := by
  have inside : b.readerIndex + c.length ≤ b.buffer.length := by
    have := rep.length
    have := rep.valid.reader
    have := rep.valid.writer
    omega
  have loaded : (b.buffer.drop b.readerIndex).take c.length = c := by
    rw [rep.length]
    exact rep.content
  simp only [retriveAsString, retrieve, rep.readableBytes, assert_eq (Nat.le_refl _),
    Block.load_eq inside, loaded, Nat.lt_irrefl, if_false, Option.bind_eq_bind, Option.bind_some]

theorem readFd_nil (valid : b.Valid) : b.readFd (.ok []) = some (b, 0, none) := by
  have stored : Block.store b.buffer b.writerIndex [] = some b.buffer := by
    rw [Block.store_eq _ _ valid.writer]
    simp
  have same : SizeT.add b.writerIndex 0 = b.writerIndex :=
    SizeT.add_eq (Nat.lt_of_le_of_lt valid.writer valid.size)
  simp [readFd, stored, same]

theorem readFd_cases {t : Buffer} {n : Int} {savedErrno : Option Errno}
    (read : b.readFd (.ok xs) = some (t, n, savedErrno)) :
    ∃ buffer, Block.store b.buffer b.writerIndex (xs.take b.writableBytes) = some buffer ∧
      (xs.length ≤ b.writableBytes ∧
          t = { b with buffer, writerIndex := SizeT.add b.writerIndex xs.length } ∨
        b.writableBytes < xs.length ∧
          Buffer.append { b with buffer, writerIndex := buffer.length }
            (xs.drop b.writableBytes) = some t) := by
  simp only [readFd, Option.bind_eq_bind, Option.bind_eq_some_iff] at read
  obtain ⟨-, -, buffer, stored, read⟩ := read
  refine ⟨buffer, stored, ?_⟩
  split at read
  · obtain ⟨⟩ := read
    exact .inl ⟨‹_›, rfl⟩
  · rename_i large
    obtain ⟨u, appended, ⟨⟩⟩ := Option.bind_eq_some_iff.mp read
    exact .inr ⟨Nat.not_le.mp large, appended⟩

/-- The vector grows to what the bytes need. -/
theorem readFd_drained (drained : b.Drained)
    (asked : xs.length ≤ b.writableBytes + extrabufSize) (fits : b.Fits xs.length) :
    ∃ t, b.readFd (.ok xs) = some (t, (xs.length : Int), none) ∧ Represents t xs ∧
      t.buffer.length = max b.buffer.length (kCheapPrepend + xs.length) := by
  obtain ⟨rep, writer⟩ := drained
  obtain ⟨t, read, rep'⟩ := readFd_spec rep asked fits
  refine ⟨t, read, rep', ?_⟩
  have room : kCheapPrepend ≤ b.buffer.length := Nat.le_trans rep.valid.cheap rep.valid.writer
  have reader : b.readerIndex = kCheapPrepend := by
    have empty := rep.length
    have := rep.valid.reader
    rw [List.length_nil] at empty
    omega
  have writable : b.writableBytes = b.buffer.length - kCheapPrepend := by
    rw [rep.writableBytes, writer]
  obtain ⟨buffer, stored, ⟨small, rfl⟩ | ⟨large, appended⟩⟩ := readFd_cases read
  · simp only [Block.length_store stored]
    omega
  · -- the vector is full, and nothing is free before the reader
    obtain ⟨u, grown, ensured, stored', rfl⟩ := append_cases appended
    have length := Block.length_store stored
    have fitted := (Option.ite_none_right_eq_some.mp stored').1
    simp only [Block.length_store stored']
    rw [rep.fits_iff] at fits
    obtain rfl | ⟨-, made⟩ := ensureWritableBytes_cases ensured
    · simp only [List.length_drop] at fitted
      omega
    · obtain rfl | ⟨below, -⟩ := makeSpace_cases made
      · have size : SizeT.add buffer.length (xs.drop b.writableBytes).length =
            kCheapPrepend + xs.length := by
          rw [List.length_drop, SizeT.add_eq (by omega)]
          omega
        simp only [Block.length_resize, size]
        omega
      · exact absurd below (by simp [reader])

end Buffer

end Dbdky.Port
