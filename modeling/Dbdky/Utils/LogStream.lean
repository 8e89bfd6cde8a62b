import Dbdky.Utils.FixedBuffer
import Dbdky.Utils.LogStreamFormat

/-!
`LogStream` (`src/utils/LogStream.{h,cpp}`): items inserted into a fixed buffer.

`RawBuffer` is the buffer as it lies in memory, where a write past its end is undefined.
Text is copied if more bytes are free than it has. A number is written first, at the
position `cur_` is at, and `cur_` moves behind it afterwards; it is let in if
`kMaxNumericSize` bytes are free. What `snprintf` makes of a double is a parameter.

* **`insert_represents`.** On memory an insertion does what `insertText` does to a
  `FixedBuffer`, whose free byte is part of its type.
* **`items_whole`.** No write leaves the buffer, a byte stays free, and the content is the
  text of some of the items, each of them whole.
-/

namespace Dbdky

open CInt

/-- `FixedBuffer<SIZE>`: `data_`, and how far behind it `cur_` is. -/
structure RawBuffer where
  data : List UInt8
  cur : Nat
deriving DecidableEq, Repr

namespace RawBuffer

/-- `static_cast<int>(end() - cur_)` -/
def avail (b : RawBuffer) : Int := toInt (b.data.length - b.cur)

/-- `append`, of `len` bytes from `buf` on -/
def append (b : RawBuffer) (buf : Nat → UInt8) (len : Nat) : Option RawBuffer :=
  if SizeT.ofInt b.avail > len then do
    let data ← Block.store b.data b.cur ((List.range len).map buf)
    some ⟨data, b.cur + len⟩
  else some b

def debugString (b : RawBuffer) : Option RawBuffer := do
  let data ← Block.store b.data b.cur [0]
  some ⟨data, b.cur⟩

end RawBuffer

namespace LogStream

/-- `snprintf(buf, size, ...)`, where the whole text is `text`: the memory and the length. -/
def snprintf (mem : List UInt8) (buf size : Nat) (text : List UInt8) :
    Option (List UInt8 × Nat) := do
  let mem ← Block.store mem buf (text.take (size - 1) ++ [0])
  some (mem, text.length)

/-- A `Fmt` whose assertion has held: the text has fit into `buf_`. -/
structure Fmt where
  text : List UInt8
  held : text.length < 32
deriving DecidableEq, Repr

/-- `Fmt(fmt, val)`, where the whole text is `text` -/
def Fmt.new (text : List UInt8) : Option Fmt :=
  if held : text.length < 32 then some ⟨text, held⟩ else none

/-- The bytes of a text that a NUL follows. -/
def memory (text : List UInt8) (i : Nat) : UInt8 := text.getD i 0

/-- What can be inserted. A `float` is inserted as the double it is. -/
inductive Item (Double : Type) where
  | bool (v : Bool)
  | char (v : UInt8)
  | integer (T : IntegerType) (v : T.Value)
  | pointer (p : Uintptr)
  | double (v : Double)
  | fmt (v : Fmt)
  /-- A C string or a `string`. -/
  | string (v : List UInt8)
  | stringPiece (data : Nat → UInt8) (size : IntegerType.Value .int)
  | append (data : Nat → UInt8) (len : IntegerType.Value .int)

section Operators

variable {Double : Type}

/-- `append(data, len)`, where an `int` becomes a `size_t` -/
def append (b : RawBuffer) (data : Nat → UInt8) (len : Int) : Option RawBuffer :=
  b.append data (SizeT.ofInt len)

def formatInteger (b : RawBuffer) (v : Int) : Option RawBuffer :=
  if b.avail ≥ kMaxNumericSize then do
    let (data, len) ← convert b.data b.cur v
    some ⟨data, b.cur + len⟩
  else some b

/-- `operator<<(const void*)` -/
def formatPointer (b : RawBuffer) (v : Uintptr) : Option RawBuffer :=
  if b.avail ≥ kMaxNumericSize then do
    let data ← Block.store b.data b.cur (bytes ['0'])
    let data ← Block.store data (b.cur + 1) (bytes ['x'])
    let (data, len) ← convertHex data (b.cur + 2) v.val.toNat
    some ⟨data, b.cur + (len + 2)⟩
  else some b

/-- `operator<<(double)`, where `g12` is the text of `%.12g` -/
def formatDouble (g12 : Double → List UInt8) (b : RawBuffer) (v : Double) : Option RawBuffer :=
  if b.avail ≥ kMaxNumericSize then do
    let (data, len) ← snprintf b.data b.cur kMaxNumericSize (g12 v)
    some ⟨data, b.cur + len⟩
  else some b

/-- `operator<<`, and `append` -/
def insert (g12 : Double → List UInt8) (b : RawBuffer) : Item Double → Option RawBuffer
  | .bool v => b.append (memory (if v then bytes ['1'] else bytes ['0'])) 1
  | .char v => b.append (memory [v]) 1
  | .integer _ v => formatInteger b v.val
  | .pointer p => formatPointer b p
  | .double v => formatDouble g12 b v
  | .fmt v => append b (memory v.text) v.text.length
  | .string v => b.append (memory v) v.length
  | .stringPiece data size => b.append data (SizeT.ofInt size.val)
  | .append data len => append b data len.val

/-! ### Items on a `FixedBuffer` -/

/-- The text of an item; one of negative length has none. -/
def Item.text (g12 : Double → List UInt8) : Item Double → List UInt8
  | .bool v => if v then bytes ['1'] else bytes ['0']
  | .char v => [v]
  | .integer _ v => decimalText v.val
  | .pointer p => bytes ['0', 'x'] ++ hexText p.val.toNat
  | .double v => g12 v
  | .fmt v => v.text
  | .string v => v
  | .stringPiece data size => (List.range size.val.toNat).map data
  | .append data len => (List.range len.val.toNat).map data

/-- The items that are let in as numbers. -/
def Item.numeric : Item Double → Bool
  | .integer .. | .pointer _ | .double _ => true
  | _ => false

/-- An insertion into the buffer of a stream. -/
def insertText (g12 : Double → List UInt8) (b : FixedBuffer kSmallBuffer) (item : Item Double) :
    FixedBuffer kSmallBuffer :=
  if item.numeric ∧ b.avail < kMaxNumericSize then b else b.append (item.text g12)

/-- The buffer after a sequence of insertions. -/
def insertAll (g12 : Double → List UInt8) (b : FixedBuffer kSmallBuffer)
    (items : List (Item Double)) : FixedBuffer kSmallBuffer :=
  items.foldl (insertText g12) b

/-- The memory has the bytes of the buffer in front of `cur_`. -/
def Represents (raw : RawBuffer) (b : FixedBuffer kSmallBuffer) : Prop :=
  ∃ rest, raw = ⟨b.data ++ rest, b.data.length⟩ ∧ b.data.length + rest.length = kSmallBuffer

/-! ### One insertion -/

variable {g12 : Double → List UInt8} {raw : RawBuffer} {b : FixedBuffer kSmallBuffer}

theorem Represents.avail (represents : Represents raw b) : raw.avail = b.avail := by
  obtain ⟨rest, rfl, size⟩ := represents
  have room := b.room
  have small : kSmallBuffer = 4000 := rfl
  rw [RawBuffer.avail, FixedBuffer.avail, FixedBuffer.length]
  simp only [List.length_append]
  rw [toInt_eq (by omega) (by omega)]
  omega

theorem Represents.ofInt_avail (represents : Represents raw b) :
    SizeT.ofInt raw.avail = b.avail := by
  have small : kSmallBuffer = 4000 := rfl
  have bound : b.avail ≤ kSmallBuffer := Nat.sub_le ..
  rw [represents.avail, SizeT.ofInt_of_nonneg (by omega) (by omega)]
  rfl

theorem map_memory (text : List UInt8) : (List.range text.length).map (memory text) = text := by
  apply List.ext_getElem
  · simp
  · intro i first second
    simp [memory, second]

/-- `memcpy` of a text that fits. -/
theorem append_represents (represents : Represents raw b) (buf : Nat → UInt8) (len : Nat) :
    ∃ raw', raw.append buf len = some raw' ∧
      Represents raw' (b.append ((List.range len).map buf)) := by
  rw [RawBuffer.append, represents.ofInt_avail, FixedBuffer.append]
  simp only [List.length_map, List.length_range]
  split
  case isTrue fits =>
    obtain ⟨rest, rfl, size⟩ := represents
    have length : ((List.range len).map buf).length = len := by simp
    have room : ((List.range len).map buf).length ≤ rest.length := by
      rw [length]
      rw [FixedBuffer.avail, FixedBuffer.length] at fits
      omega
    rw [Block.store_append _ _ _ room]
    refine ⟨_, rfl, rest.drop len, ?_, ?_⟩
    · simp
    · simp
      omega
  case isFalse => exact ⟨raw, rfl, represents⟩

theorem append_nil (b : FixedBuffer kSmallBuffer) : b.append [] = b := by
  have room := b.room
  have fits : b.avail > ([] : List UInt8).length := Nat.sub_pos_of_lt room
  rw [FixedBuffer.append, dif_pos fits]
  cases b
  simp

/-- A negative length is a huge `size_t`, for which there is never room. -/
theorem append_int_represents (represents : Represents raw b) (data : Nat → UInt8)
    (len : IntegerType.Value .int) :
    ∃ raw', raw.append data (SizeT.ofInt len.val) = some raw' ∧
      Represents raw' (b.append ((List.range len.val.toNat).map data)) := by
  have least : -2147483648 ≤ len.val := len.min_le
  have greatest : len.val ≤ 2147483647 := len.le_max
  rcases Int.lt_or_le len.val 0 with negative | nonneg
  · have small : kSmallBuffer = 4000 := rfl
    have bound : b.avail ≤ kSmallBuffer := Nat.sub_le ..
    have range : (SizeT.range : Int) = 18446744073709551616 := rfl
    have huge : ¬ SizeT.ofInt raw.avail > SizeT.ofInt len.val := by
      rw [represents.ofInt_avail, SizeT.ofInt, range]
      omega
    have none : len.val.toNat = 0 := Int.toNat_of_nonpos (Int.le_of_lt negative)
    rw [RawBuffer.append, if_neg huge, none, List.range_zero, List.map_nil, append_nil]
    exact ⟨raw, rfl, represents⟩
  · rw [SizeT.ofInt_of_nonneg nonneg (by omega)]
    exact append_represents represents data len.val.toNat

theorem Represents.numeric_room (represents : Represents raw b) :
    raw.avail ≥ kMaxNumericSize ↔ ¬ b.avail < kMaxNumericSize := by
  rw [represents.avail]
  omega

/-- A text and a NUL in front of what is left of the old bytes. -/
theorem represents_append {rest : List UInt8} (size : b.data.length + rest.length = kSmallBuffer)
    (text : List UInt8) (room : text.length < b.avail) :
    Represents ⟨b.data ++ text ++ [0] ++ rest.drop (text.length + 1), b.data.length + text.length⟩
      (b.append text) := by
  rw [FixedBuffer.avail, FixedBuffer.length] at room
  refine ⟨[0] ++ rest.drop (text.length + 1), ?_, ?_⟩
  · rw [FixedBuffer.data_append_of_lt room, List.length_append, List.append_assoc _ [0]]
  · rw [FixedBuffer.data_append_of_lt room]
    simp only [List.length_append, List.length_drop, List.length_singleton]
    omega

/-- A number that is let in is written in front of a NUL, and `cur_` moves behind it. -/
theorem numeric_represents (g12 : Double → List UInt8) (represents : Represents raw b)
    (item : Item Double)
    (numeric : item.numeric = true) (small : (item.text g12).length < kMaxNumericSize)
    (write : RawBuffer → Option RawBuffer)
    (written : ∀ rest, kMaxNumericSize ≤ rest.length → write ⟨b.data ++ rest, b.data.length⟩ =
      some ⟨b.data ++ item.text g12 ++ [0] ++ rest.drop ((item.text g12).length + 1),
        b.data.length + (item.text g12).length⟩) :
    ∃ raw', (if raw.avail ≥ kMaxNumericSize then write raw else some raw) = some raw' ∧
      Represents raw' (insertText g12 b item) := by
  by_cases short : b.avail < kMaxNumericSize
  · have dropped : ¬ raw.avail ≥ kMaxNumericSize := by
      rw [represents.numeric_room]
      exact not_not_intro short
    rw [if_neg dropped, insertText, if_pos ⟨numeric, short⟩]
    exact ⟨raw, rfl, represents⟩
  · rw [if_pos (represents.numeric_room.mpr short), insertText,
      if_neg fun both => short both.2]
    obtain ⟨rest, rfl, size⟩ := represents
    have room : kMaxNumericSize ≤ b.avail := Nat.not_lt.mp short
    have inside : kMaxNumericSize ≤ rest.length := by
      rw [FixedBuffer.avail, FixedBuffer.length] at room
      omega
    exact ⟨_, written rest inside, represents_append size _ (Nat.lt_of_lt_of_le small room)⟩

theorem formatInteger_represents (represents : Represents raw b) {T : IntegerType} (v : T.Value) :
    ∃ raw', formatInteger raw v.val = some raw' ∧
      Represents raw' (insertText g12 b (.integer T v)) := by
  have length := length_decimalText v
  refine numeric_represents g12 represents (.integer T v) rfl length (fun raw => do
    let (data, len) ← convert raw.data raw.cur v.val
    some ⟨data, raw.cur + len⟩) ?_
  intro rest inside
  rw [convert_spec v.val b.data rest (Nat.lt_of_lt_of_le length inside)]
  rfl

theorem formatPointer_represents (represents : Represents raw b) (p : Uintptr) :
    ∃ raw', formatPointer raw p = some raw' ∧
      Represents raw' (insertText g12 b (.pointer p)) := by
  have length := length_hexText p
  have size : kMaxNumericSize = 32 := rfl
  have two : (bytes ['0', 'x']).length = 2 := rfl
  have small : (bytes ['0', 'x'] ++ hexText p.val.toNat).length < kMaxNumericSize := by
    rw [List.length_append, two]
    omega
  refine numeric_represents g12 represents (.pointer p) rfl small (fun raw => do
    let data ← Block.store raw.data raw.cur (bytes ['0'])
    let data ← Block.store data (raw.cur + 1) (bytes ['x'])
    let (data, len) ← convertHex data (raw.cur + 2) p.val.toNat
    some ⟨data, raw.cur + (len + 2)⟩) ?_
  intro rest inside
  have zero_one : (bytes ['0']).length = 1 := rfl
  have x_one : (bytes ['x']).length = 1 := rfl
  have zero_written := Block.store_append b.data rest (bytes ['0']) (by omega)
  have x_written := Block.store_append (b.data ++ bytes ['0']) (rest.drop 1) (bytes ['x']) (by
    rw [List.length_drop]
    omega)
  have hex_written := convertHex_spec p.val.toNat (b.data ++ bytes ['0'] ++ bytes ['x'])
    (rest.drop 2) (by
      rw [List.length_drop]
      omega)
  rw [zero_one] at zero_written
  rw [List.length_append, List.drop_drop, zero_one, x_one] at x_written
  rw [List.length_append, List.length_append, List.drop_drop, zero_one, x_one] at hex_written
  dsimp only
  rw [zero_written, Option.bind_eq_bind, Option.bind_some, x_written, Option.bind_eq_bind,
    Option.bind_some, hex_written, Option.bind_some]
  have both : bytes ['0', 'x'] = bytes ['0'] ++ bytes ['x'] := rfl
  have behind : (Item.text g12 (.pointer p)).length + 1 =
      2 + ((hexText p.val.toNat).length + 1) := by
    rw [Item.text, List.length_append, two, Nat.add_assoc]
  have moved : b.data.length + ((hexText p.val.toNat).length + 2) =
      b.data.length + (Item.text g12 (.pointer p)).length := by
    rw [Item.text, List.length_append, two, Nat.add_comm 2]
  dsimp only
  rw [behind, moved, Item.text, both, ← List.append_assoc b.data, ← List.append_assoc b.data]

theorem formatDouble_represents (short : ∀ v, (g12 v).length < kMaxNumericSize)
    (represents : Represents raw b) (v : Double) :
    ∃ raw', formatDouble g12 raw v = some raw' ∧
      Represents raw' (insertText g12 b (.double v)) := by
  refine numeric_represents g12 represents (.double v) rfl (short v) (fun raw => do
    let (data, len) ← snprintf raw.data raw.cur kMaxNumericSize (g12 v)
    some ⟨data, raw.cur + len⟩) ?_
  intro rest inside
  have whole : (g12 v).take (kMaxNumericSize - 1) = g12 v :=
    List.take_of_length_le (Nat.le_sub_one_of_lt (short v))
  have room : (g12 v ++ [0]).length ≤ rest.length := by
    rw [List.length_append, List.length_singleton]
    exact Nat.le_trans (short v) inside
  simp only [snprintf, whole, Block.store_append _ _ _ room, Option.bind_eq_bind, Option.bind_some]
  rw [List.length_append, List.length_singleton, ← List.append_assoc b.data]
  rfl

/-- **An insertion in memory is one into the `FixedBuffer`.** -/
theorem insert_represents (short : ∀ v, (g12 v).length < kMaxNumericSize)
    (represents : Represents raw b) (item : Item Double) :
    ∃ raw', insert g12 raw item = some raw' ∧ Represents raw' (insertText g12 b item) := by
  cases item with
  | bool v => cases v <;> exact append_represents represents _ 1
  | char v => exact append_represents represents (memory [v]) 1
  | integer T v => exact formatInteger_represents represents v
  | pointer p => exact formatPointer_represents represents p
  | double v => exact formatDouble_represents short represents v
  | fmt v =>
      have held := v.held
      have length : SizeT.ofInt v.text.length = v.text.length := by
        rw [SizeT.ofInt_of_nonneg (by omega) (by omega), Int.toNat_natCast]
      have copied := append_represents represents (memory v.text) v.text.length
      rw [map_memory] at copied
      rw [insert, append, length]
      exact copied
  | string v =>
      have copied := append_represents represents (memory v) v.length
      rwa [map_memory] at copied
  | stringPiece data size => exact append_int_represents represents data size
  | append data len => exact append_int_represents represents data len

/-! ### All insertions -/

/-- An item is kept whole or dropped whole. -/
theorem insertText_data (b : FixedBuffer kSmallBuffer) (item : Item Double) :
    (insertText g12 b item).data = b.data ∨
      (insertText g12 b item).data = b.data ++ item.text g12 := by
  unfold insertText
  split
  case isTrue => exact .inl rfl
  case isFalse =>
    unfold FixedBuffer.append
    split
    · exact .inr rfl
    · exact .inl rfl

theorem insertText_of_fits {item : Item Double} (fits : (item.text g12).length < b.avail)
    (room : item.numeric = true → kMaxNumericSize ≤ b.avail) :
    (insertText g12 b item).data = b.data ++ item.text g12 := by
  have let_in : ¬ (item.numeric = true ∧ b.avail < kMaxNumericSize) :=
    fun both => Nat.not_le.mpr both.2 (room both.1)
  rw [insertText, if_neg let_in, FixedBuffer.data_append_of_lt fits]

theorem insertText_of_not_fits {item : Item Double}
    (no_room : ¬ ((item.text g12).length < b.avail ∧
      (item.numeric = true → kMaxNumericSize ≤ b.avail))) : insertText g12 b item = b := by
  unfold insertText
  split
  case isTrue => rfl
  case isFalse let_in =>
    have long : ¬ b.avail > (item.text g12).length := by
      intro fits
      exact no_room ⟨fits, fun numeric => Nat.not_lt.mp fun short => let_in ⟨numeric, short⟩⟩
    rw [FixedBuffer.append, dif_neg long]

theorem length_insertText_le (b : FixedBuffer kSmallBuffer) (item : Item Double) :
    (insertText g12 b item).data.length ≤ b.data.length + (item.text g12).length := by
  rcases insertText_data b item with dropped | added
  · rw [dropped]
    exact Nat.le_add_right _ _
  · rw [added, List.length_append]

theorem insertAll_cons (b : FixedBuffer kSmallBuffer) (item : Item Double)
    (items : List (Item Double)) :
    insertAll g12 b (item :: items) = insertAll g12 (insertText g12 b item) items := rfl

theorem insertAll_data (b : FixedBuffer kSmallBuffer) (items : List (Item Double)) :
    ∃ kept : List (Item Double), kept.Sublist items ∧
      (insertAll g12 b items).data = b.data ++ kept.flatMap (Item.text g12) := by
  induction items generalizing b with
  | nil => exact ⟨[], .slnil, (List.append_nil _).symm⟩
  | cons item items ih =>
      obtain ⟨kept, sublist, content⟩ := ih (insertText g12 b item)
      rw [insertAll_cons]
      rcases insertText_data b item with dropped | added
      · rw [dropped] at content
        exact ⟨kept, .cons item sublist, content⟩
      · rw [added, List.append_assoc, ← List.flatMap_cons] at content
        exact ⟨item :: kept, sublist.cons_cons item, content⟩

theorem length_insertAll_le (b : FixedBuffer kSmallBuffer) (items : List (Item Double)) :
    (insertAll g12 b items).data.length ≤
      b.data.length + (items.flatMap (Item.text g12)).length := by
  induction items generalizing b with
  | nil => exact Nat.le_refl _
  | cons item items ih =>
      have first : _ ≤ _ + (item.text g12).length := length_insertText_le b item
      have rest := ih (insertText g12 b item)
      rw [List.flatMap_cons, List.length_append]
      exact Nat.le_trans rest (by omega)

/-- Every item is let in, one after the other, if `avail` bytes are free at first. -/
def AllFit (g12 : Double → List UInt8) : Nat → List (Item Double) → Prop
  | _, [] => True
  | avail, item :: items =>
      (item.text g12).length < avail ∧ (item.numeric = true → kMaxNumericSize ≤ avail) ∧
        AllFit g12 (avail - (item.text g12).length) items

/-- All items are kept exactly if all of them fit. -/
theorem insertAll_whole_iff {items : List (Item Double)}
    (nonempty : ∀ item ∈ items, item.numeric = true → item.text g12 ≠ []) :
    (insertAll g12 b items).data = b.data ++ items.flatMap (Item.text g12) ↔
      AllFit g12 b.avail items := by
  induction items generalizing b with
  | nil => exact iff_of_true (List.append_nil _).symm trivial
  | cons item items ih =>
      have whole := ih (b := insertText g12 b item)
        fun item mem => nonempty item (List.mem_cons_of_mem _ mem)
      rw [insertAll_cons, List.flatMap_cons, AllFit]
      by_cases fits : (item.text g12).length < b.avail ∧
          (item.numeric = true → kMaxNumericSize ≤ b.avail)
      · have added := insertText_of_fits fits.1 fits.2
        have avail : (insertText g12 b item).avail = b.avail - (item.text g12).length := by
          rw [FixedBuffer.avail, FixedBuffer.length, added, List.length_append, FixedBuffer.avail,
            FixedBuffer.length, Nat.sub_add_eq]
        rw [added, List.append_assoc, avail] at whole
        rw [whole]
        exact ⟨fun rest => ⟨fits.1, fits.2, rest⟩, fun all => all.2.2⟩
      · refine iff_of_false ?_ fun all => fits ⟨all.1, all.2.1⟩
        intro whole
        have lengths := congrArg List.length whole
        have most : _ ≤ _ + (items.flatMap (Item.text g12)).length := length_insertAll_le b items
        rw [insertText_of_not_fits fits, List.length_append, List.length_append] at lengths
        have empty : (item.text g12).length = 0 := by omega
        have numeric : item.numeric = true := by
          by_contra plain
          refine fits ⟨?_, fun numeric => absurd numeric plain⟩
          rw [empty]
          exact Nat.sub_pos_of_lt b.room
        exact nonempty item (List.mem_cons_self ..) numeric (List.length_eq_zero_iff.mp empty)

theorem insertAll_represents (short : ∀ v, (g12 v).length < kMaxNumericSize)
    (represents : Represents raw b) (items : List (Item Double)) :
    ∃ raw', items.foldlM (insert g12) raw = some raw' ∧
      Represents raw' (insertAll g12 b items) := by
  induction items generalizing raw b with
  | nil => exact ⟨raw, rfl, represents⟩
  | cons item items ih =>
      obtain ⟨next, inserted, represents⟩ := insert_represents short represents item
      rw [List.foldlM_cons, inserted]
      exact ih represents

theorem Represents.content (represents : Represents raw b) :
    raw.data.take raw.cur = b.data ∧ raw.data.length = kSmallBuffer ∧ raw.cur < kSmallBuffer := by
  obtain ⟨rest, rfl, size⟩ := represents
  refine ⟨List.take_left, ?_, b.room⟩
  rw [List.length_append, size]

/-- **A stream never overruns its buffer and never splits an item.** -/
theorem items_whole (short : ∀ v, (g12 v).length < kMaxNumericSize) {data : List UInt8}
    (size : data.length = kSmallBuffer) (items : List (Item Double)) :
    ∃ (raw : RawBuffer) (kept : List (Item Double)),
      items.foldlM (insert g12) ⟨data, 0⟩ = some raw ∧
      raw.data.length = kSmallBuffer ∧ raw.cur < kSmallBuffer ∧ raw.debugString.isSome ∧
      kept.Sublist items ∧ raw.data.take raw.cur = kept.flatMap (Item.text g12) := by
  have start : Represents ⟨data, 0⟩ FixedBuffer.empty := ⟨data, rfl, (Nat.zero_add _).trans size⟩
  obtain ⟨raw, inserted, represents⟩ := insertAll_represents short start items
  obtain ⟨kept, sublist, content⟩ := insertAll_data FixedBuffer.empty items
  obtain ⟨taken, length, room⟩ := represents.content
  have string : raw.debugString.isSome := by
    rw [RawBuffer.debugString, Block.store_eq _ _ (Nat.succ_le_of_lt (length.symm ▸ room))]
    rfl
  exact ⟨raw, kept, inserted, length, room, string, sublist, taken.trans content⟩

end Operators

/-- A text, a double and the least `long`, of the doubles from 0 to 999. -/
theorem items_whole_three :
    let g12 := fun v : Fin 1000 => decimalText v
    let items : List (Item (Fin 1000)) :=
      [.string (bytes ['x', '=']), .double 7,
        .integer .long ⟨-9223372036854775808, by decide, by decide⟩]
    ∃ (raw : RawBuffer) (kept : List (Item (Fin 1000))),
      items.foldlM (insert g12) ⟨List.replicate kSmallBuffer 0, 0⟩ = some raw ∧
      raw.data.length = kSmallBuffer ∧ raw.cur < kSmallBuffer ∧ raw.debugString.isSome ∧
      kept.Sublist items ∧ raw.data.take raw.cur = kept.flatMap (Item.text g12) := by
  have short (v : Fin 1000) : (decimalText v).length < kMaxNumericSize := by
    have least : IntegerType.min .int ≤ (v : Int) := by
      change -2147483648 ≤ _
      omega
    have greatest : (v : Int) ≤ IntegerType.max .int := by
      change _ ≤ 2147483647
      omega
    exact length_decimalText ⟨v, least, greatest⟩
  exact items_whole short List.length_replicate _

end LogStream

end Dbdky
