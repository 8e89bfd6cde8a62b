import Dbdky.Transition.Machine
import Dbdky.Port.BufferInts
import Dbdky.Port.BufferSearch
import Dbdky.Port.BufferShrink

/-!
The buffers that the interface of `Buffer` reaches.

A machine takes every call that changes a buffer. `swap` is not among them: it makes a
buffer another one, that has been reached by the calls on that one.

* **`Reachable.valid`.** The indices of a buffer that has been reached are in order and
  inside the vector.
* **`reachable_searches_iff`, `reachable_shrinks_iff`.** For which of these buffers the
  searches and `shrink` do what they are for.
-/

namespace Dbdky.Port

open Transition Memory

namespace Buffer

/-- The calls; `fill` is what a caller writes behind `beginWrite()`. -/
inductive Call where
  | fill (data : List UInt8)
  | hasWritten (len : Nat)
  | append (data : List UInt8)
  | appendIntN (x : IntN)
  | ensureWritableBytes (len : Nat)
  | prepend (data : List UInt8)
  | prependIntN (x : IntN)
  | retrieve (len : Nat)
  | retrieveUtil (last : Nat)
  | retrieveIntN (width : Width)
  | retrieveAll
  | retriveAsString (len : Nat)
  | retrieveAllAsString
  | readIntN (width : Width)
  | shrink (reserve : Nat)
  | readFd (read : Except Errno (List UInt8))

def calls (host : ByteOrder) : Machine Buffer Call where
  init b := b = .new
  step b
    | .fill data => do
        let buffer ← Block.store b.buffer b.writerIndex data
        some { b with buffer }
    | .hasWritten len => some (b.hasWritten len)
    | .append data => b.append data
    | .appendIntN x => b.appendIntN host x
    | .ensureWritableBytes len => b.ensureWritableBytes len
    | .prepend data => b.prepend data
    | .prependIntN x => b.prependIntN host x
    | .retrieve len => b.retrieve len
    | .retrieveUtil last => b.retrieveUtil last
    | .retrieveIntN width => b.retrieveIntN width
    | .retrieveAll => some b.retrieveAll
    | .retriveAsString len => (b.retriveAsString len).map Prod.snd
    | .retrieveAllAsString => b.retrieveAllAsString.map Prod.snd
    | .readIntN width => (b.readIntN host width).map Prod.snd
    | .shrink reserve => b.shrink reserve
    | .readFd read => (b.readFd read).map Prod.fst

/-- What the callers and the kernel promise: sizes stay within `size_t`, nothing is taken
out or put in front that there is not (room for), and only what has been written, or read
by `readv`, behind the writer is counted. -/
def Promised : Guard Buffer Call
  | b, .fill data => data.length ≤ b.writableBytes
  | b, .hasWritten len => len ≤ b.writableBytes
  | b, .append data => b.Fits data.length
  | b, .appendIntN x => b.Fits x.width.size
  | b, .ensureWritableBytes len => b.Fits len
  | b, .prepend data => data.length ≤ b.prependableBytes
  | b, .prependIntN x => x.width.size ≤ b.prependableBytes
  | b, .retrieve len | b, .retriveAsString len => len ≤ b.readableBytes
  | b, .retrieveUtil last => b.readerIndex ≤ last ∧ last ≤ b.writerIndex
  | b, .retrieveIntN width | b, .readIntN width => width.size ≤ b.readableBytes
  | b, .shrink reserve => kCheapPrepend + b.readableBytes + reserve < SizeT.range
  | b, .readFd (.ok bytes) =>
      bytes.length ≤ b.writableBytes + extrabufSize ∧ b.Fits bytes.length
  | _, .retrieveAll | _, .retrieveAllAsString | _, .readFd (.error _) => True

instance (b : Buffer) : ∀ call, Decidable (Promised b call)
  | .fill _ | .hasWritten _ | .prepend _ | .prependIntN _ | .retrieve _ | .retriveAsString _
  | .retrieveIntN _ | .readIntN _ => inferInstanceAs (Decidable (_ ≤ _))
  | .append _ | .appendIntN _ | .ensureWritableBytes _ => inferInstanceAs (Decidable (Fits _ _))
  | .retrieveUtil _ | .readFd (.ok _) => inferInstanceAs (Decidable (_ ∧ _))
  | .shrink _ => inferInstanceAs (Decidable (_ < _))
  | .retrieveAll | .retrieveAllAsString | .readFd (.error _) => isTrue trivial

/-- A buffer that calls within the promises lead to, from a new one on. -/
def Reachable (host : ByteOrder) (b : Buffer) : Prop := (calls host).ReachableWhere Promised b

/-! ### The invariant -/

variable {host : ByteOrder} {b t : Buffer} {call : Call}

/-- An operation that returns leads to the buffer its specification speaks of. -/
theorem valid_of_spec {c : List UInt8} {op : Option Buffer} (returned : op = some t)
    (spec : ∃ u, op = some u ∧ Represents u c) : t.Valid := by
  obtain ⟨u, returned', rep⟩ := spec
  obtain rfl : t = u := Option.some.inj (returned.symm.trans returned')
  exact rep.valid

/-- The same of a call whose result is dropped. -/
theorem valid_of_spec_snd {α : Type} {result : α} {c : List UInt8} {op : Option (α × Buffer)}
    (returned : op.map Prod.snd = some t) (spec : ∃ u, op = some (result, u) ∧ Represents u c) :
    t.Valid := by
  obtain ⟨u, returned', rep⟩ := spec
  refine valid_of_spec returned ⟨u, ?_, rep⟩
  rw [returned']
  rfl

theorem fill_valid {data buffer : List UInt8} (valid : b.Valid)
    (stored : Block.store b.buffer b.writerIndex data = some buffer) :
    Valid { b with buffer } := by
  have length := Block.length_store stored
  refine ⟨valid.reader, ?_, valid.cheap, ?_⟩
  · rw [length]
    exact valid.writer
  · rw [length]
    exact valid.size

theorem hasWritten_valid {len : Nat} (valid : b.Valid) (written : len ≤ b.writableBytes) :
    (b.hasWritten len).Valid := by
  have writer := valid.writer
  rw [valid.represents.writableBytes] at written
  have inside : b.writerIndex + len ≤ b.buffer.length := by omega
  have moved : SizeT.add b.writerIndex len = b.writerIndex + len :=
    SizeT.add_eq (Nat.lt_of_le_of_lt inside valid.size)
  rw [hasWritten, moved]
  exact ⟨Nat.le_trans valid.reader (Nat.le_add_right _ _), inside,
    Nat.le_trans valid.cheap (Nat.le_add_right _ _), valid.size⟩

/-- **One call.** -/
theorem step_valid (valid : b.Valid) (promised : Promised b call)
    (step : (calls host).step b call = some t) : t.Valid := by
  have rep := valid.represents
  have readable := rep.readableBytes
  cases call with
  | fill data =>
      obtain ⟨buffer, stored, ⟨⟩⟩ := Option.bind_eq_some_iff.mp step
      exact fill_valid valid stored
  | hasWritten len =>
      cases step
      exact hasWritten_valid valid promised
  | append data => exact valid_of_spec step (append_spec rep promised)
  | appendIntN x => exact valid_of_spec step (appendIntN_spec host rep promised)
  | ensureWritableBytes len =>
      obtain ⟨u, ensured, rep', -⟩ := ensureWritableBytes_spec rep promised
      exact valid_of_spec step ⟨u, ensured, rep'⟩
  | prepend data => exact valid_of_spec step (prepend_spec rep promised)
  | prependIntN x => exact valid_of_spec step (prependIntN_spec host rep promised)
  | retrieve len => exact valid_of_spec step (retrieve_spec rep (readable ▸ promised))
  | retrieveUtil last => exact valid_of_spec step (retrieveUtil_spec rep promised.1 promised.2)
  | retrieveIntN width =>
      exact valid_of_spec ((retrieveIntN_eq width).symm.trans step)
        (retrieve_spec rep (readable ▸ promised))
  | retrieveAll =>
      cases step
      exact (retrieveAll_represents rep).valid
  | retriveAsString len =>
      exact valid_of_spec_snd step (retriveAsString_spec rep (readable ▸ promised))
  | retrieveAllAsString =>
      exact valid_of_spec_snd step (retriveAsString_spec rep (Nat.le_of_eq readable))
  | readIntN width =>
      exact valid_of_spec_snd step (readIntN_front host rep (readable ▸ promised))
  | shrink reserve =>
      obtain ⟨copied, rep', -⟩ := shrink_represents rep (readable ▸ promised) step
      exact rep'.valid
  | readFd read =>
      cases read with
      | error errno =>
          cases step
          exact valid
      | ok bytes =>
          obtain ⟨u, done, rep'⟩ := readFd_spec rep promised.1 promised.2
          refine valid_of_spec step ⟨u, ?_, rep'⟩
          change (b.readFd (.ok bytes)).map Prod.fst = some u
          rw [done]
          rfl

theorem Reachable.valid (reached : Reachable host b) : b.Valid := by
  refine Machine.ReachableWhere.invariant reached ?_ ?_
  · rintro b rfl
    exact new_represents.valid
  · intro b call t valid promised step
    exact step_valid valid promised step

/-! ### The searches -/

/-- **Searches, of every buffer.** `findEOL(start)` is misled by what lies behind the writer
if no line ends from `start` on. -/
theorem reachable_searches_iff (reached : Reachable host b) {start : Nat}
    (after : b.readerIndex ≤ start) (inside : start ≤ b.writerIndex) :
    b.Searches start ↔
      newline ∈ b.readableFrom start ∨
        start + b.readableBytes ≤ b.buffer.length ∧ newline ∉ b.readBehind start :=
  searches_iff reached.valid after inside

/-- The calls of `stale`: a line is read, and a shorter one arrives in parts. -/
def staleCalls : List Call := [.append [97, 98, newline], .retrieveAll, .append [97, 98]]

/-- The end of the first line is left behind the writer. -/
def stale : Buffer where
  buffer := List.replicate 8 0 ++ [97, 98, newline] ++ List.replicate 1021 0
  readerIndex := 8
  writerIndex := 10

theorem stale_run :
    (calls .little).Meets Promised .new staleCalls ∧
      (calls .little).run .new staleCalls = some stale := by
  decide +kernel

theorem stale_reachable : Reachable .little stale :=
  ⟨.new, rfl, Machine.leadsWhere_of_run staleCalls stale_run.1 stale_run.2⟩

theorem reachable_searches_iff_stale :
    stale.Searches 8 ↔
      newline ∈ stale.readableFrom 8 ∨
        8 + stale.readableBytes ≤ stale.buffer.length ∧ newline ∉ stale.readBehind 8 :=
  reachable_searches_iff stale_reachable (by decide) (by decide)

/-- From the second byte on, the newline that is found lies behind the content. -/
theorem stale_not_searched :
    Reachable .little stale ∧ stale.readerIndex ≤ 9 ∧ 9 ≤ stale.writerIndex ∧
      stale.findEOLFrom 9 = some (some stale.writerIndex) ∧ ¬stale.Searches 9 := by
  refine ⟨stale_reachable, by decide, by decide, by decide +kernel, ?_⟩
  rw [searches_iff stale_reachable.valid (by decide) (by decide)]
  decide +kernel

/-! ### `shrink` -/

/-- **Shrinking, of every buffer.** -/
theorem reachable_shrinks_iff (reached : Reachable host b) {reserve : Nat}
    (fits : kCheapPrepend + b.readableBytes + reserve < SizeT.range) :
    b.Shrinks reserve ↔ b.readableBytes < 2 ^ 31 ∨ 2 ^ 64 - 2 ^ 31 ≤ b.readableBytes :=
  shrinks_iff reached.valid fits

theorem reachable_shrinks_iff_stale :
    stale.Shrinks 100 ↔ stale.readableBytes < 2 ^ 31 ∨ 2 ^ 64 - 2 ^ 31 ≤ stale.readableBytes :=
  reachable_shrinks_iff stale_reachable (by decide)

/-- A content of 2³¹ bytes has a negative length as an `int`. -/
theorem append_not_shrinks {data : List UInt8} (length : data.length = 2 ^ 31) :
    ∃ b, Reachable .little b ∧ b.content = data ∧
      kCheapPrepend + b.readableBytes + 0 < SizeT.range ∧ ¬b.Shrinks 0 := by
  have promised : Promised .new (.append data) := by
    right
    rw [length]
    decide
  obtain ⟨b, appended, rep⟩ := append_spec new_represents promised
  have readable : b.readableBytes = 2 ^ 31 := by
    rw [rep.readableBytes, List.nil_append, length]
  have reached : Reachable .little b :=
    ⟨.new, rfl, (Machine.LeadsWhere.refl _).tail promised appended⟩
  have fits : kCheapPrepend + b.readableBytes + 0 < SizeT.range := by
    rw [readable]
    decide
  refine ⟨b, reached, rep.content, fits, ?_⟩
  rw [shrinks_iff reached.valid fits, readable]
  decide

theorem large_not_shrinks : ∃ b, Reachable .little b ∧
    b.content = List.replicate (2 ^ 31) 0 ∧
    kCheapPrepend + b.readableBytes + 0 < SizeT.range ∧ ¬b.Shrinks 0 :=
  append_not_shrinks List.length_replicate

end Buffer

end Dbdky.Port
