import Dbdky.Memory.Search
import Dbdky.Port.Buffer

/-!
The searches for the end of a line (`src/port/Buffer.h`).

A pointer into the vector is its distance from `begin()`, and the null pointer is `none`.
Behind the writer the vector holds what was written there earlier. `findEOL(start)` asks
`memchr` for as many bytes as are readable from `peek()` on, which from a later `start` on
reaches behind the writer.

* **`searches_iff`.** From `start` on all searches are right, and the line that is found can
  be retrieved, exactly if `findEOL(start)` has no use for the bytes behind the writer.
-/

namespace Dbdky.Port

open Block

namespace Buffer

/-- `'\n'` -/
def newline : UInt8 := 10

def kCRLF : List UInt8 := [13, newline]

variable (b : Buffer)

def findCRLF : Option (Option Nat) := do
  let range ← Block.load b.buffer b.readerIndex (b.writerIndex - b.readerIndex)
  let crlf := b.readerIndex + search kCRLF range
  some (if crlf = b.writerIndex then none else some crlf)

/-- `findCRLF(start)` -/
def findCRLFFrom (start : Nat) : Option (Option Nat) := do
  assert (b.readerIndex ≤ start)
  assert (start ≤ b.writerIndex)
  let range ← Block.load b.buffer start (b.writerIndex - start)
  let crlf := start + search kCRLF range
  some (if crlf = b.writerIndex then none else some crlf)

def findEOL : Option (Option Nat) := memchr b.buffer newline b.readerIndex b.readableBytes

/-- `findEOL(start)` -/
def findEOLFrom (start : Nat) : Option (Option Nat) := do
  assert (b.readerIndex ≤ start)
  assert (start ≤ b.writerIndex)
  -- the length counts from `peek()`
  memchr b.buffer newline start b.readableBytes

/-- `retrieveUtil(end)` -/
def retrieveUtil (last : Nat) : Option Buffer := do
  assert (b.readerIndex ≤ last)
  assert (last ≤ b.writerIndex)
  b.retrieve (SizeT.sub last b.readerIndex)

/-- What the searches are for: the first delimiter among the readable bytes, from `peek()`
or `start` on, and a line that can be dropped once its end is found. -/
structure Searches (start : Nat) : Prop where
  findCRLF : ∃ r, b.findCRLF = some r ∧ FirstIn b.buffer kCRLF b.readerIndex b.writerIndex r
  findCRLFFrom : ∃ r, b.findCRLFFrom start = some r ∧ FirstIn b.buffer kCRLF start b.writerIndex r
  findEOL : ∃ r, b.findEOL = some r ∧
    FirstIn b.buffer [newline] b.readerIndex b.writerIndex r
  findEOLFrom : ∃ r, b.findEOLFrom start = some r ∧
    FirstIn b.buffer [newline] start b.writerIndex r
  retrieveUtil : ∀ eol, b.findEOL = some (some eol) ∨ b.findEOLFrom start = some (some eol) →
    ∃ t, b.retrieveUtil (eol + 1) = some t ∧
      t.Represents (b.content.drop (eol + 1 - b.readerIndex))

/-- The readable bytes from `start` on. -/
def readableFrom (start : Nat) : List UInt8 := b.content.drop (start - b.readerIndex)

/-- The bytes behind the writer that `findEOL(start)` reads if it is not stopped before. -/
def readBehind (start : Nat) : List UInt8 :=
  (b.buffer.drop b.writerIndex).take (start - b.readerIndex)

variable {b} {c : List UInt8} {start last : Nat}

theorem retrieveUtil_spec (rep : Represents b c) (after : b.readerIndex ≤ last)
    (inside : last ≤ b.writerIndex) :
    ∃ t, b.retrieveUtil last = some t ∧ t.Represents (c.drop (last - b.readerIndex)) := by
  have bound : last < SizeT.range :=
    Nat.lt_of_le_of_lt inside (Nat.lt_of_le_of_lt rep.valid.writer rep.valid.size)
  have enough : last - b.readerIndex ≤ c.length := by
    rw [rep.length]
    exact Nat.sub_le_sub_right inside _
  obtain ⟨t, retrieved, after'⟩ := retrieve_spec rep enough
  refine ⟨t, ?_, after'⟩
  simp only [retrieveUtil, assert_eq after, assert_eq inside, SizeT.sub_eq after bound, retrieved,
    Option.bind_eq_bind, Option.bind_some]

theorem findCRLFFrom_spec (valid : b.Valid) (after : b.readerIndex ≤ start)
    (inside : start ≤ b.writerIndex) :
    ∃ r, b.findCRLFFrom start = some r ∧ FirstIn b.buffer kCRLF start b.writerIndex r := by
  have range : start + (b.writerIndex - start) ≤ b.buffer.length := by
    rw [Nat.add_sub_cancel' inside]
    exact valid.writer
  refine ⟨_, ?_, firstIn_search (List.cons_ne_nil _ _) inside valid.writer⟩
  simp only [findCRLFFrom, assert_eq after, assert_eq inside, Block.load_eq range,
    Option.bind_eq_bind, Option.bind_some]

theorem findCRLF_eq (valid : b.Valid) : b.findCRLF = b.findCRLFFrom b.readerIndex := by
  simp only [findCRLF, findCRLFFrom, assert_eq (Nat.le_refl _), assert_eq valid.reader,
    Option.bind_eq_bind, Option.bind_some]

theorem findEOL_eq (valid : b.Valid) : b.findEOL = b.findEOLFrom b.readerIndex := by
  simp only [findEOL, findEOLFrom, assert_eq (Nat.le_refl _), assert_eq valid.reader,
    Option.bind_eq_bind, Option.bind_some]

theorem readableFrom_eq (after : b.readerIndex ≤ start) :
    b.readableFrom start = (b.buffer.drop start).take (b.writerIndex - start) := by
  rw [readableFrom, content, List.drop_take, List.drop_drop, Nat.add_sub_cancel' after,
    Nat.sub_sub, Nat.add_sub_cancel' after]

theorem findEOLFrom_iff (valid : b.Valid) (after : b.readerIndex ≤ start)
    (inside : start ≤ b.writerIndex) :
    (∃ r, b.findEOLFrom start = some r ∧ FirstIn b.buffer [newline] start b.writerIndex r) ↔
      newline ∈ b.readableFrom start ∨
        start + b.readableBytes ≤ b.buffer.length ∧ newline ∉ b.readBehind start := by
  have readable := valid.represents.readableBytes
  rw [valid.length_content] at readable
  have further : b.writerIndex ≤ start + b.readableBytes := by omega
  have behind : start + b.readableBytes - b.writerIndex = start - b.readerIndex := by
    have := valid.reader
    omega
  have searched : b.findEOLFrom start = memchr b.buffer newline start b.readableBytes := by
    simp only [findEOLFrom, assert_eq after, assert_eq inside, Option.bind_eq_bind,
      Option.bind_some]
  rw [searched, memchr_overrun inside valid.writer further, behind, readableFrom_eq after]
  rfl

/-- From `peek()` on the length is right. -/
theorem findEOL_spec (valid : b.Valid) :
    ∃ r, b.findEOL = some r ∧ FirstIn b.buffer [newline] b.readerIndex b.writerIndex r := by
  rw [findEOL_eq valid]
  refine (findEOLFrom_iff valid (Nat.le_refl _) valid.reader).mpr ?_
  by_cases here : newline ∈ b.readableFrom b.readerIndex
  · exact .inl here
  · have readable := valid.represents.readableBytes
    rw [valid.length_content] at readable
    refine .inr ⟨?_, ?_⟩
    · rw [readable, Nat.add_sub_cancel' valid.reader]
      exact valid.writer
    · rw [readBehind, Nat.sub_self, List.take_zero]
      exact List.not_mem_nil

/-- **Searches.** -/
theorem searches_iff (valid : b.Valid) (after : b.readerIndex ≤ start)
    (inside : start ≤ b.writerIndex) :
    b.Searches start ↔
      newline ∈ b.readableFrom start ∨
        start + b.readableBytes ≤ b.buffer.length ∧ newline ∉ b.readBehind start := by
  rw [← findEOLFrom_iff valid after inside]
  constructor
  · exact Searches.findEOLFrom
  · intro right
    have line {first eol : Nat} (from_first : b.readerIndex ≤ first)
        (found : FirstIn b.buffer [newline] first b.writerIndex (some eol)) :
        ∃ t, b.retrieveUtil (eol + 1) = some t ∧
          t.Represents (b.content.drop (eol + 1 - b.readerIndex)) := by
      obtain ⟨behind, fits, -⟩ := found
      exact retrieveUtil_spec valid.represents (by omega) fits
    refine ⟨?_, findCRLFFrom_spec valid after inside, findEOL_spec valid, right, ?_⟩
    · rw [findCRLF_eq valid]
      exact findCRLFFrom_spec valid (Nat.le_refl _) valid.reader
    · rintro eol (found | found)
      · obtain ⟨r, found', first⟩ := findEOL_spec valid
        obtain rfl : some eol = r := Option.some.inj (found.symm.trans found')
        exact line (Nat.le_refl _) first
      · obtain ⟨r, found', first⟩ := right
        obtain rfl : some eol = r := Option.some.inj (found.symm.trans found')
        exact line after first

end Buffer

end Dbdky.Port
