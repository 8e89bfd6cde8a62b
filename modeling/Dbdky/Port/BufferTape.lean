import Dbdky.Port.BufferCalls

/-!
Tapes of typed integers.

Integers of all widths are appended to a buffer, while bytes are taken out of it and its
vector grows and is compacted. The specification keeps what is left of the content from
before, and the integers behind it as integers.

* **`step_implements`.** What the specification allows the buffer does, with the same results.
* **`integers_survive`.** Once the earlier content is drained, the integers come back.
-/

namespace Dbdky.Port

open Transition Memory

namespace Buffer

/-- What happens to a buffer; `retrieveUtil len` stands for `retrieveUtil(peek() + len)`. -/
inductive TapeOp where
  | appendIntN (x : IntN)
  | readIntN (width : Width)
  | retrieveIntN (width : Width)
  | retrieve (len : Nat)
  | retrieveUtil (len : Nat)
  | retriveAsString (len : Nat)
  | ensureWritableBytes (len : Nat)
  | shrink (reserve : Nat)

/-- The integers that are appended. -/
def TapeOp.appends : TapeOp → List IntN
  | appendIntN x => [x]
  | _ => []

/-- A buffer, and what `readInt8`, `readInt16` and `readInt32` have returned. -/
structure Tape where
  buffer : Buffer
  returned : List IntN
deriving DecidableEq, Repr

def tapes (host : ByteOrder) : Machine Tape TapeOp where
  init s := Reachable host s.buffer ∧ s.returned = []
  step s
    | .appendIntN x => do
        let buffer ← s.buffer.appendIntN host x
        some { s with buffer }
    | .readIntN width => do
        let (value, buffer) ← s.buffer.readIntN host width
        some { buffer, returned := s.returned ++ [⟨width, value⟩] }
    | .retrieveIntN width => do
        let buffer ← s.buffer.retrieveIntN width
        some { s with buffer }
    | .retrieve len => do
        let buffer ← s.buffer.retrieve len
        some { s with buffer }
    | .retrieveUtil len => do
        let buffer ← s.buffer.retrieveUtil (s.buffer.readerIndex + len)
        some { s with buffer }
    | .retriveAsString len => do
        let (_, buffer) ← s.buffer.retriveAsString len
        some { s with buffer }
    | .ensureWritableBytes len => do
        let buffer ← s.buffer.ensureWritableBytes len
        some { s with buffer }
    | .shrink reserve => do
        let buffer ← s.buffer.shrink reserve
        some { s with buffer }

/-- Sizes stay within `size_t`, and `shrink` is called where it keeps the content. -/
def Roomy : Guard Tape TapeOp
  | s, .appendIntN x => s.buffer.Fits x.width.size
  | s, .ensureWritableBytes len => s.buffer.Fits len
  | s, .shrink reserve =>
      kCheapPrepend + s.buffer.readableBytes + reserve < SizeT.range ∧
        s.buffer.readableBytes < 2 ^ 31
  | _, _ => True

instance (s : Tape) : ∀ op, Decidable (Roomy s op)
  | .appendIntN _ | .ensureWritableBytes _ => inferInstanceAs (Decidable (Fits _ _))
  | .shrink _ => inferInstanceAs (Decidable (_ ∧ _))
  | .readIntN _ | .retrieveIntN _ | .retrieve _ | .retrieveUtil _ | .retriveAsString _ =>
      isTrue trivial

/-! ### The specification -/

/-- What is left of the content from before, the integers that have been read from it, the
integers behind it, and those of them that have been read back. -/
structure TypedQueue where
  earlier : List UInt8
  early : List IntN
  pending : List IntN
  readBack : List IntN
deriving DecidableEq, Repr

/-- Bytes are taken out of the earlier content only. -/
def TypedQueue.drain (q : TypedQueue) (len : Nat) : Option TypedQueue :=
  if len ≤ q.earlier.length then some { q with earlier := q.earlier.drop len } else none

/-- An integer is read from the earlier content, or with its own width from behind it. -/
def TypedQueue.read (q : TypedQueue) (width : Width) : Option TypedQueue :=
  if q.earlier = [] then
    match q.pending with
    | [] => none
    | x :: pending =>
        if x.width = width then some { q with pending, readBack := q.readBack ++ [x] } else none
  else do
    let t ← q.drain width.size
    let value := ByteOrder.big.word width.size (q.earlier.take width.size)
    some { t with early := q.early ++ [⟨width, value⟩] }

def typedQueues : Machine TypedQueue TapeOp where
  init q := q.early = [] ∧ q.pending = [] ∧ q.readBack = []
  step q
    | .appendIntN x => some { q with pending := q.pending ++ [x] }
    | .readIntN width => q.read width
    | .retrieveIntN width => q.drain width.size
    | .retrieve len | .retrieveUtil len | .retriveAsString len => q.drain len
    | .ensureWritableBytes _ | .shrink _ => some q

/-! ### Refinement -/

/-- The bytes of a queue. -/
def TypedQueue.bytes (q : TypedQueue) : List UInt8 := q.earlier ++ q.pending.flatMap IntN.encoded

/-- The buffer holds the bytes of the queue, and the same has been read. Nothing is read
back before the earlier content is drained. -/
structure Implements (s : Tape) (q : TypedQueue) : Prop where
  represents : s.buffer.Represents q.bytes
  returned : s.returned = q.early ++ q.readBack
  inOrder : q.earlier ≠ [] → q.readBack = []

variable {host : ByteOrder} {b : Buffer} {s : Tape} {q t : TypedQueue} {len : Nat} {width : Width}

theorem drain_bytes (drained : q.drain len = some t) :
    len ≤ q.bytes.length ∧ t.bytes = q.bytes.drop len := by
  obtain ⟨enough, ⟨⟩⟩ := Option.ite_none_right_eq_some.mp drained
  constructor
  · rw [TypedQueue.bytes, List.length_append]
    exact Nat.le_trans enough (Nat.le_add_right _ _)
  · rw [TypedQueue.bytes, TypedQueue.bytes, List.drop_append_of_le_length enough]

/-- The earlier content is drained by anything that retrieves as many bytes. -/
theorem Implements.drain (holds : Implements s q) (op : Option Buffer)
    (drained : q.drain len = some t)
    (spec : len ≤ q.bytes.length → ∃ u, op = some u ∧ Represents u (q.bytes.drop len)) :
    ∃ u, op = some u ∧ Implements { s with buffer := u } t := by
  obtain ⟨enough, bytes⟩ := drain_bytes drained
  obtain ⟨u, retrieved, rep⟩ := spec enough
  obtain ⟨-, ⟨⟩⟩ := Option.ite_none_right_eq_some.mp drained
  refine ⟨u, retrieved, bytes ▸ rep, holds.returned, ?_⟩
  intro left
  apply holds.inOrder
  rintro empty
  exact left (by rw [empty, List.drop_nil])

theorem Implements.append {x : IntN} {u : Buffer} (holds : Implements s q)
    (rep : u.Represents (q.bytes ++ x.encoded)) :
    Implements { s with buffer := u } { q with pending := q.pending ++ [x] } := by
  refine ⟨?_, holds.returned, holds.inOrder⟩
  have bytes : TypedQueue.bytes { q with pending := q.pending ++ [x] } = q.bytes ++ x.encoded := by
    simp only [TypedQueue.bytes, List.flatMap_append, List.flatMap_singleton, List.append_assoc]
  rw [bytes]
  exact rep

/-- An integer from behind the earlier content. -/
theorem read_pending (host : ByteOrder) {x : IntN} {pending : List IntN} (holds : Implements s q)
    (drained : q.earlier = []) (first : q.pending = x :: pending) :
    ∃ u, s.buffer.readIntN host x.width = some (x.value, u) ∧
      Implements ⟨u, s.returned ++ [x]⟩ { q with pending, readBack := q.readBack ++ [x] } := by
  have bytes : q.bytes = x.encoded ++ pending.flatMap IntN.encoded := by
    rw [TypedQueue.bytes, drained, first, List.nil_append, List.flatMap_cons]
  have rep := holds.represents
  rw [bytes] at rep
  obtain ⟨u, read, after⟩ := readIntN_spec host x rep
  refine ⟨u, read, ?_, ?_, ?_⟩
  · rw [TypedQueue.bytes, drained]
    exact after
  · rw [holds.returned, List.append_assoc]
  · intro left
    exact absurd drained left

/-- An integer from the earlier content. -/
theorem read_earlier (host : ByteOrder) (holds : Implements s q) (left : q.earlier ≠ [])
    (drained : q.drain width.size = some t) :
    ∃ u, s.buffer.readIntN host width =
        some (ByteOrder.big.word width.size (q.earlier.take width.size), u) ∧
      Implements
        ⟨u, s.returned ++ [⟨width, ByteOrder.big.word width.size (q.earlier.take width.size)⟩]⟩
        { t with
          early := q.early ++
            [⟨width, ByteOrder.big.word width.size (q.earlier.take width.size)⟩] } := by
  obtain ⟨enough, bytes⟩ := drain_bytes drained
  obtain ⟨u, read, rep⟩ := readIntN_front host holds.represents enough
  obtain ⟨inside, ⟨⟩⟩ := Option.ite_none_right_eq_some.mp drained
  have front : q.bytes.take width.size = q.earlier.take width.size := by
    rw [TypedQueue.bytes, List.take_append_of_le_length inside]
  have unread := holds.inOrder left
  rw [front] at read
  refine ⟨u, read, bytes ▸ rep, ?_, fun _ => unread⟩
  rw [holds.returned, unread, List.append_nil, List.append_nil]

theorem read_implements (holds : Implements s q) (read : q.read width = some t) :
    ∃ u, (tapes host).step s (.readIntN width) = some u ∧ Implements u t := by
  unfold TypedQueue.read at read
  split at read
  · rename_i drained
    split at read
    · cases read
    · rename_i x pending first
      obtain ⟨rfl, ⟨⟩⟩ := Option.ite_none_right_eq_some.mp read
      obtain ⟨u, read, holds'⟩ := read_pending host holds drained first
      exact ⟨_, by simp [tapes, read], holds'⟩
  · rename_i left
    obtain ⟨r, drained, ⟨⟩⟩ := Option.bind_eq_some_iff.mp read
    obtain ⟨u, read, holds'⟩ := read_earlier host holds left drained
    exact ⟨_, by simp [tapes, read], holds'⟩

/-- **One step.** -/
theorem step_implements (s : Tape) (q t : TypedQueue) (op : TapeOp) (holds : Implements s q)
    (roomy : Roomy s op) (step : typedQueues.step q op = some t) :
    ∃ u, (tapes host).step s op = some u ∧ Implements u t := by
  have rep := holds.represents
  cases op with
  | appendIntN x =>
      cases step
      obtain ⟨u, appended, rep'⟩ := appendIntN_spec host rep roomy
      exact ⟨_, by simp [tapes, appended], holds.append rep'⟩
  | readIntN width => exact read_implements holds step
  | retrieveIntN width =>
      obtain ⟨u, retrieved, holds'⟩ :=
        holds.drain (s.buffer.retrieveIntN width) step fun enough => by
          rw [retrieveIntN_eq]
          exact retrieve_spec rep enough
      exact ⟨_, by simp [tapes, retrieved], holds'⟩
  | retrieve len =>
      obtain ⟨u, retrieved, holds'⟩ := holds.drain _ step fun enough => retrieve_spec rep enough
      exact ⟨_, by simp [tapes, retrieved], holds'⟩
  | retrieveUtil len =>
      obtain ⟨u, retrieved, holds'⟩ :=
        holds.drain (s.buffer.retrieveUtil (s.buffer.readerIndex + len)) step fun enough => by
          have inside : s.buffer.readerIndex + len ≤ s.buffer.writerIndex := by
            have := rep.length
            have := rep.valid.reader
            omega
          have spec := retrieveUtil_spec rep (Nat.le_add_right _ _) inside
          rwa [Nat.add_sub_cancel_left] at spec
      exact ⟨_, by simp [tapes, retrieved], holds'⟩
  | retriveAsString len =>
      obtain ⟨enough, -⟩ := drain_bytes step
      obtain ⟨v, asString, rep'⟩ := retriveAsString_spec rep enough
      obtain ⟨u, retrieved, holds'⟩ := holds.drain (some v) step fun _ => ⟨v, rfl, rep'⟩
      cases retrieved
      exact ⟨_, by simp [tapes, asString], holds'⟩
  | ensureWritableBytes len =>
      cases step
      obtain ⟨u, ensured, rep', -⟩ := ensureWritableBytes_spec rep roomy
      refine ⟨{ s with buffer := u }, ?_, rep', holds.returned, holds.inOrder⟩
      simp [tapes, ensured]
  | shrink reserve =>
      cases step
      obtain ⟨fits, small⟩ := roomy
      obtain ⟨u, shrunk, content, -⟩ := (shrinks_iff rep.valid fits).mpr (.inl small)
      rw [rep.readableBytes] at fits
      obtain ⟨copied, rep', -⟩ := shrink_represents rep fits shrunk
      obtain rfl : copied = q.bytes := by rw [← rep'.content, content, rep.content]
      refine ⟨{ s with buffer := u }, ?_, rep', holds.returned, holds.inOrder⟩
      simp [tapes, shrunk]

/-- What is read back leaves the front of the integers that are pending. -/
theorem step_readBack (op : TapeOp) (step : typedQueues.step q op = some t) :
    t.readBack ++ t.pending = q.readBack ++ q.pending ++ op.appends := by
  have drain {len : Nat} (drained : q.drain len = some t) :
      t.readBack ++ t.pending = q.readBack ++ q.pending ++ [] := by
    obtain ⟨-, ⟨⟩⟩ := Option.ite_none_right_eq_some.mp drained
    exact (List.append_nil _).symm
  cases op with
  | appendIntN x =>
      cases step
      exact (List.append_assoc _ _ _).symm
  | readIntN width =>
      change q.read width = some t at step
      unfold TypedQueue.read at step
      split at step
      · split at step
        · cases step
        · rename_i x pending first
          obtain ⟨-, ⟨⟩⟩ := Option.ite_none_right_eq_some.mp step
          change q.readBack ++ [x] ++ pending = q.readBack ++ q.pending ++ []
          rw [first, List.append_nil, List.append_assoc, List.singleton_append]
      · obtain ⟨r, drained, ⟨⟩⟩ := Option.bind_eq_some_iff.mp step
        obtain ⟨-, ⟨⟩⟩ := Option.ite_none_right_eq_some.mp drained
        exact (List.append_nil _).symm
  | retrieveIntN width => exact drain step
  | retrieve len => exact drain step
  | retrieveUtil len => exact drain step
  | retriveAsString len => exact drain step
  | ensureWritableBytes len =>
      cases step
      exact (List.append_nil _).symm
  | shrink reserve =>
      cases step
      exact (List.append_nil _).symm

theorem run_readBack {r : TypedQueue} {ops : List TapeOp} (run : typedQueues.run q ops = some r) :
    r.readBack ++ r.pending = q.readBack ++ q.pending ++ ops.flatMap TapeOp.appends := by
  induction ops generalizing q with
  | nil =>
      cases run
      exact (List.append_nil _).symm
  | cons op ops ih =>
      obtain ⟨t, step, rest⟩ := Option.bind_eq_some_iff.mp run
      rw [ih rest, step_readBack op step, List.flatMap_cons, List.append_assoc]

/-! ### Reading back -/

/-- Read integers of these widths. -/
def readBack (host : ByteOrder) : List Width → Buffer → Option (List IntN × Buffer)
  | [], b => some ([], b)
  | width :: widths, b => do
      let (value, b) ← b.readIntN host width
      let (xs, b) ← readBack host widths b
      some (⟨width, value⟩ :: xs, b)

theorem readBack_spec (host : ByteOrder) {xs : List IntN}
    (rep : b.Represents (xs.flatMap IntN.encoded)) :
    ∃ t, readBack host (xs.map IntN.width) b = some (xs, t) ∧ t.Represents [] := by
  induction xs generalizing b with
  | nil => exact ⟨b, rfl, rep⟩
  | cons x xs ih =>
      rw [List.flatMap_cons] at rep
      obtain ⟨u, read, rest⟩ := readIntN_spec host x rep
      obtain ⟨t, others, empty⟩ := ih rest
      refine ⟨t, ?_, empty⟩
      simp only [List.map_cons, readBack, read, others, Option.bind_eq_bind, Option.bind_some]

/-- **Tapes.** What has been read and what is read back at the end is what was appended. -/
theorem integers_survive (reached : Reachable host b) :
    (∀ ops q, typedQueues.run ⟨b.content, [], [], []⟩ ops = some q →
      (tapes host).Meets Roomy ⟨b, []⟩ ops →
      ∃ s drained t, (tapes host).run ⟨b, []⟩ ops = some s ∧
        s.returned = q.early ++ q.readBack ∧ q.readBack ++ q.pending = ops.flatMap TapeOp.appends ∧
        s.buffer.retrieve q.earlier.length = some drained ∧
        readBack host (q.pending.map IntN.width) drained = some (q.pending, t) ∧
        t.content = []) ∧
    (∀ x : IntN, x.width.size ≤ b.prependableBytes →
      ∃ t u, b.prependIntN host x = some t ∧ t.readIntN host x.width = some (x.value, u) ∧
        u.content = b.content) ∧
    ∀ x : IntN,
      (b.Fits x.width.size → ∃ t, b.appendIntN host x = some t ∧
        t.content = b.content ++ twosComplement x.width.size x.value.toInt) ∧
      (x.width.size ≤ b.prependableBytes → ∃ t, b.prependIntN host x = some t ∧
        t.content = twosComplement x.width.size x.value.toInt ++ b.content) := by
  have rep := reached.valid.represents
  refine ⟨?_, ?_, ?_⟩
  · intro ops q run roomy
    have start : Implements ⟨b, []⟩ ⟨b.content, [], [], []⟩ := by
      refine ⟨?_, rfl, fun _ => rfl⟩
      rw [TypedQueue.bytes, List.flatMap_nil, List.append_nil]
      exact rep
    obtain ⟨s, run', holds⟩ :=
      Machine.run_implements Implements step_implements start roomy run
    have enough : q.earlier.length ≤ q.bytes.length := by
      rw [TypedQueue.bytes, List.length_append]
      exact Nat.le_add_right _ _
    obtain ⟨drained, retrieved, rest⟩ := retrieve_spec holds.represents enough
    rw [TypedQueue.bytes, List.drop_left] at rest
    obtain ⟨t, read, empty⟩ := readBack_spec host rest
    exact ⟨s, drained, t, run', holds.returned, run_readBack run, retrieved, read,
      empty.content⟩
  · intro x room
    obtain ⟨t, prepended, rep'⟩ := prependIntN_spec host rep room
    obtain ⟨u, read, rest⟩ := readIntN_spec host x rep'
    exact ⟨t, u, prepended, read, rest.content⟩
  · intro x
    rw [← ByteOrder.big_bytes]
    constructor
    · intro fits
      obtain ⟨t, appended, rep'⟩ := appendIntN_spec host rep fits
      exact ⟨t, appended, rep'.content⟩
    · intro room
      obtain ⟨t, prepended, rep'⟩ := prependIntN_spec host rep room
      exact ⟨t, prepended, rep'.content⟩

/-- Two integers behind the content `ab`: the first is read back on the way. -/
theorem integers_survive_stale : ∃ s drained t,
    (tapes .little).run ⟨stale, []⟩
      [.appendIntN ⟨.int16, -2⟩, .retrieveUtil 1, .readIntN .int8, .appendIntN ⟨.int32, -7⟩,
        .readIntN .int16, .ensureWritableBytes 2000, .shrink 5] = some s ∧
      s.returned = [⟨.int8, 98⟩, ⟨.int16, -2⟩] ∧
      s.buffer.retrieve 0 = some drained ∧
      readBack .little [.int32] drained = some ([⟨.int32, -7⟩], t) ∧ t.content = [] := by
  obtain ⟨s, drained, t, run, returned, -, rest⟩ := (integers_survive stale_reachable).1
    [.appendIntN ⟨.int16, -2⟩, .retrieveUtil 1, .readIntN .int8, .appendIntN ⟨.int32, -7⟩,
      .readIntN .int16, .ensureWritableBytes 2000, .shrink 5]
    ⟨[], [⟨.int8, 98⟩], [⟨.int32, -7⟩], [⟨.int16, -2⟩]⟩ (by decide +kernel) (by decide +kernel)
  exact ⟨s, drained, t, run, returned, rest⟩

end Buffer

end Dbdky.Port
