import Mathlib.Logic.Function.Basic
import Dbdky.Port.Buffer
import Dbdky.Transition.Machine

/-!
A family of `Buffer`s is a family of byte queues with a front.

Two machines take the same operations: one holds a `Buffer` under each index, the
other only the bytes in it, as a list that grows at both ends and shrinks at the front.

* **`buffers_refine_fifos`.** Every run within the callers' promises (`InRange`) also
  runs on the queues, returns the same results, and leaves in each buffer the bytes of
  its queue between two well-placed indices. That the run does not stop says that no
  assertion fails and no access leaves the vector.
-/

namespace Dbdky.Port

open Transition

namespace BufferFifo

/-- What a call hands back to its caller. -/
inductive Returned where
  | string (result : List UInt8)
  | count (n : Int) (savedErrno : Option Errno)
deriving DecidableEq, Repr

/-- A family of containers, and what the calls on them have returned. -/
structure Store (ι Container : Type) where
  held : ι → Container
  returned : List Returned

namespace Store

variable {ι Container : Type}

def record (s : Store ι Container) (r : Returned) : Store ι Container :=
  { s with returned := s.returned ++ [r] }

variable [DecidableEq ι]

def set (s : Store ι Container) (i : ι) (c : Container) : Store ι Container :=
  { s with held := Function.update s.held i c }

def swap (s : Store ι Container) (i j : ι) : Store ι Container :=
  (s.set i (s.held j)).set j (s.held i)

@[simp] theorem set_self (s : Store ι Container) (i : ι) : s.set i (s.held i) = s := by
  simp [set]

end Store

/-- The operations. `readFd` carries what `readv` does: an error number or the bytes. -/
inductive Op (ι : Type) where
  | append (i : ι) (data : List UInt8)
  | ensureWritableBytes (i : ι) (len : Nat)
  | retrieve (i : ι) (len : Nat)
  | retrieveAll (i : ι)
  | retriveAsString (i : ι) (len : Nat)
  | prepend (i : ι) (data : List UInt8)
  | swap (i j : ι)
  | readFd (i : ι) (read : Except Errno (List UInt8))

section Machines

variable (ι : Type) [DecidableEq ι]

/-- The buffers. -/
def buffers : Machine (Store ι Buffer) (Op ι) where
  init s := s = ⟨fun _ => .new, []⟩
  step s
    | .append i data => do
        let b ← (s.held i).append data
        some (s.set i b)
    | .ensureWritableBytes i len => do
        let b ← (s.held i).ensureWritableBytes len
        some (s.set i b)
    | .retrieve i len => do
        let b ← (s.held i).retrieve len
        some (s.set i b)
    | .retrieveAll i => some (s.set i (s.held i).retrieveAll)
    | .retriveAsString i len => do
        let (result, b) ← (s.held i).retriveAsString len
        some ((s.set i b).record (.string result))
    | .prepend i data => do
        let b ← (s.held i).prepend data
        some (s.set i b)
    | .swap i j => some (s.swap i j)
    | .readFd i read => do
        let (b, n, savedErrno) ← (s.held i).readFd read
        some ((s.set i b).record (.count n savedErrno))

/-- The queues. -/
def fifos : Machine (Store ι (List UInt8)) (Op ι) where
  init s := s = ⟨fun _ => [], []⟩
  step s
    | .append i data => some (s.set i (s.held i ++ data))
    | .ensureWritableBytes _ _ => some s
    | .retrieve i len =>
        if len ≤ (s.held i).length then some (s.set i ((s.held i).drop len)) else none
    | .retrieveAll i => some (s.set i [])
    | .retriveAsString i len =>
        if len ≤ (s.held i).length then
          some ((s.set i ((s.held i).drop len)).record (.string ((s.held i).take len)))
        else none
    | .prepend i data => some (s.set i (data ++ s.held i))
    | .swap i j => some (s.swap i j)
    | .readFd i (.ok bytes) =>
        some ((s.set i (s.held i ++ bytes)).record (.count bytes.length none))
    | .readFd _ (.error errno) => some (s.record (.count (-1) (some errno)))

end Machines

variable {ι : Type}

/-- What the callers and the kernel promise: sizes stay within `size_t`, no more is
retrieved or prepended than there is (room for), and `readv` fills its two areas at most. -/
def InRange : Guard (Store ι Buffer) (Op ι)
  | s, .append i data => (s.held i).Fits data.length
  | s, .ensureWritableBytes i len => (s.held i).Fits len
  | s, .retrieve i len | s, .retriveAsString i len => len ≤ (s.held i).readableBytes
  | s, .prepend i data => data.length ≤ (s.held i).prependableBytes
  | s, .readFd i (.ok bytes) =>
      bytes.length ≤ (s.held i).writableBytes + Buffer.extrabufSize ∧ (s.held i).Fits bytes.length
  | _, _ => True

instance (s : Store ι Buffer) : ∀ op, Decidable (InRange s op)
  | .append _ _ | .ensureWritableBytes _ _ => inferInstanceAs (Decidable (Buffer.Fits _ _))
  | .retrieve _ _ | .retriveAsString _ _ | .prepend _ _ => inferInstanceAs (Decidable (_ ≤ _))
  | .readFd _ (.ok _) => inferInstanceAs (Decidable (_ ∧ _))
  | .retrieveAll _ | .swap _ _ | .readFd _ (.error _) => isTrue trivial

/-- Every buffer represents its queue, and the same has been returned. -/
structure Refines (s : Store ι Buffer) (a : Store ι (List UInt8)) : Prop where
  represents : ∀ i, (s.held i).Represents (a.held i)
  returned : s.returned = a.returned

theorem new_refines : Refines (⟨fun _ => .new, []⟩ : Store ι Buffer) ⟨fun _ => [], []⟩ :=
  ⟨fun _ => Buffer.new_represents, rfl⟩

theorem Refines.record {s : Store ι Buffer} {a : Store ι (List UInt8)} (refines : Refines s a)
    (r : Returned) : Refines (s.record r) (a.record r) :=
  ⟨refines.represents, congrArg (· ++ [r]) refines.returned⟩

variable [DecidableEq ι]

theorem Refines.set {s : Store ι Buffer} {a : Store ι (List UInt8)} {b : Buffer}
    {c : List UInt8} (refines : Refines s a) (i : ι) (rep : b.Represents c) :
    Refines (s.set i b) (a.set i c) := by
  refine ⟨fun k => ?_, refines.returned⟩
  by_cases same : k = i
  · subst same
    simpa [Store.set] using rep
  · simpa [Store.set, same] using refines.represents k

/-- **One step.** Within the promises every operation of the buffers is enabled, and so
is the same operation of the queues. -/
theorem step_refines (s : Store ι Buffer) (a : Store ι (List UInt8)) (op : Op ι)
    (refines : Refines s a) (inRange : InRange s op) :
    ∃ t b, (buffers ι).step s op = some t ∧ (fifos ι).step a op = some b ∧ Refines t b := by
  have enough : ∀ i len, len ≤ (s.held i).readableBytes → len ≤ (a.held i).length := by
    intro i len inRange
    rwa [(refines.represents i).readableBytes] at inRange
  cases op with
  | append i data =>
      obtain ⟨b, appended, rep⟩ := Buffer.append_spec (refines.represents i) inRange
      exact ⟨_, _, by simp [buffers, appended], rfl, refines.set i rep⟩
  | ensureWritableBytes i len =>
      obtain ⟨b, ensured, rep, -⟩ := Buffer.ensureWritableBytes_spec (refines.represents i) inRange
      have kept := refines.set i rep
      rw [Store.set_self] at kept
      exact ⟨_, _, by simp [buffers, ensured], rfl, kept⟩
  | retrieve i len =>
      have enough := enough i len inRange
      obtain ⟨b, retrieved, rep⟩ := Buffer.retrieve_spec (refines.represents i) enough
      exact ⟨_, _, by simp [buffers, retrieved], if_pos enough, refines.set i rep⟩
  | retrieveAll i =>
      exact ⟨_, _, rfl, rfl, refines.set i (Buffer.retrieveAll_represents (refines.represents i))⟩
  | retriveAsString i len =>
      have enough := enough i len inRange
      obtain ⟨b, retrieved, rep⟩ := Buffer.retriveAsString_spec (refines.represents i) enough
      exact ⟨_, _, by simp [buffers, retrieved], if_pos enough, (refines.set i rep).record _⟩
  | prepend i data =>
      obtain ⟨b, prepended, rep⟩ := Buffer.prepend_spec (refines.represents i) inRange
      exact ⟨_, _, by simp [buffers, prepended], rfl, refines.set i rep⟩
  | swap i j =>
      exact ⟨_, _, rfl, rfl, (refines.set i (refines.represents j)).set j (refines.represents i)⟩
  | readFd i read =>
      cases read with
      | error errno =>
          refine ⟨s.record (.count (-1) (some errno)), _, ?_, rfl, refines.record _⟩
          simp [buffers, Buffer.readFd_error]
      | ok bytes =>
          obtain ⟨asked, fits⟩ := inRange
          obtain ⟨b, read, rep⟩ := Buffer.readFd_spec (refines.represents i) asked fits
          exact ⟨_, _, by simp [buffers, read], rfl, (refines.set i rep).record _⟩

/-- **Buffers refine queues.** Operations within the callers' promises all succeed, from
new buffers on; they return what the queues return, and between two indices that stay in
order inside the vector each buffer holds the bytes of its queue. -/
theorem buffers_refine_fifos (ops : List (Op ι))
    (inRange : (buffers ι).Meets InRange ⟨fun _ => .new, []⟩ ops) :
    ∃ s a, (buffers ι).run ⟨fun _ => .new, []⟩ ops = some s ∧
      (fifos ι).run ⟨fun _ => [], []⟩ ops = some a ∧ s.returned = a.returned ∧
      ∀ i, (s.held i).readerIndex ≤ (s.held i).writerIndex ∧
        (s.held i).writerIndex ≤ (s.held i).buffer.length ∧ (s.held i).content = a.held i := by
  obtain ⟨s, a, run, run', refines⟩ :=
    Machine.run_refines Refines step_refines new_refines inRange
  exact ⟨s, a, run, run', refines.returned, fun i => ⟨(refines.represents i).valid.reader,
    (refines.represents i).valid.writer, (refines.represents i).content⟩⟩

/-- Two buffers; the reader moves below `kCheapPrepend` and a read overflows the vector. -/
theorem buffers_refine_fifos_two : ∃ s a,
    (buffers Bool).run ⟨fun _ => .new, []⟩
      [.append true [1, 2, 3], .prepend true [9], .swap true false, .retriveAsString false 2,
        .readFd false (.ok (List.replicate 1100 7)), .readFd true (.error 11)] = some s ∧
    (fifos Bool).run ⟨fun _ => [], []⟩
      [.append true [1, 2, 3], .prepend true [9], .swap true false, .retriveAsString false 2,
        .readFd false (.ok (List.replicate 1100 7)), .readFd true (.error 11)] = some a ∧
    s.returned = a.returned ∧
    ∀ i, (s.held i).readerIndex ≤ (s.held i).writerIndex ∧
      (s.held i).writerIndex ≤ (s.held i).buffer.length ∧ (s.held i).content = a.held i :=
  buffers_refine_fifos _ (by decide +kernel)

end BufferFifo

end Dbdky.Port
