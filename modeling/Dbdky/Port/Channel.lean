import Mathlib.Data.List.Basic
import Mathlib.Logic.Function.Basic

/-!
`Channel` (`src/port/Channel.{h,cpp}`): the events a file descriptor is watched for, those
it was reported for, and which callbacks a report leads to.

Channels have distinct fds, so a `Channel*` is given by its fd. A callback is recorded,
not run: what it does to channels are operations that come after it.
-/

namespace Dbdky.Port

abbrev Fd := Nat

/-- A set of event bits. Those of `<poll.h>` fit in a `short`, so the casts between `int`,
`short` and `uint32_t` keep them. -/
abbrev Mask := BitVec 16

def POLLIN : Mask := 0x0001
def POLLPRI : Mask := 0x0002
def POLLOUT : Mask := 0x0004
def POLLERR : Mask := 0x0008
def POLLHUP : Mask := 0x0010
def POLLNVAL : Mask := 0x0020
def POLLRDHUP : Mask := 0x2000

/-- `mask & flags`, as a condition -/
def Mask.has (mask flags : Mask) : Bool := mask &&& flags != 0

/-- What the kernel reports of an fd that is watched with `mask`. -/
def Mask.report (mask conditions : Mask) : Mask :=
  conditions &&& (mask ||| POLLERR ||| POLLHUP)

inductive Callback where
  | close
  | error
  | read
  | write
deriving DecidableEq, Repr

structure Channel where
  events : Mask
  revents : Mask
  index : Int
  tied : Bool
  /-- Whether `tie_.lock()` succeeds. -/
  tieAlive : Bool
  /-- Which of the callbacks are set. -/
  isSet : Callback → Bool

namespace Channel

def kNoneEvent : Mask := 0
def kReadEvent : Mask := POLLIN ||| POLLPRI
def kWriteEvent : Mask := POLLOUT

def isNoneEvent (c : Channel) : Prop := c.events = kNoneEvent

instance (c : Channel) : Decidable c.isNoneEvent := inferInstanceAs (Decidable (_ = _))

/-- As the constructor leaves it. -/
structure Fresh (c : Channel) : Prop where
  events : c.events = 0
  index : c.index = -1

/-- A channel with all four callbacks that has not been used. -/
def unused : Channel := ⟨0, 0, -1, false, false, fun _ => true⟩

theorem unused_fresh : unused.Fresh := ⟨rfl, rfl⟩

/-- Invoke a callback if it is set. -/
def invoke (c : Channel) (callback : Callback) : List Callback :=
  if c.isSet callback then [callback] else []

/-- The callbacks `handleEventWithGuard` invokes, in order. -/
def handleEventWithGuard (c : Channel) : List Callback :=
  (if c.revents.has POLLHUP && !c.revents.has POLLIN then c.invoke .close else []) ++
  (if c.revents.has (POLLERR ||| POLLNVAL) then c.invoke .error else []) ++
  (if c.revents.has (POLLIN ||| POLLPRI ||| POLLRDHUP) then c.invoke .read else []) ++
  (if c.revents.has POLLOUT then c.invoke .write else [])

def handleEvent (c : Channel) : List Callback :=
  if c.tied then
    if c.tieAlive then c.handleEventWithGuard else []
  else c.handleEventWithGuard

/-- What `c.handleEvent` does after `set_revents(revents)`. -/
def react (c : Channel) (revents : Mask) : List Callback :=
  handleEvent { c with revents }

@[simp] theorem react_zero (c : Channel) : c.react 0 = [] := by
  simp [react, handleEvent, handleEventWithGuard, Mask.has]

/-- Two channels that differ at most in what the poller keeps in them. -/
structure Alike (c d : Channel) : Prop where
  events : c.events = d.events
  tied : c.tied = d.tied
  tieAlive : c.tieAlive = d.tieAlive
  isSet : c.isSet = d.isSet

theorem Alike.refl (c : Channel) : c.Alike c := ⟨rfl, rfl, rfl, rfl⟩

theorem Alike.symm {c d : Channel} (alike : c.Alike d) : d.Alike c :=
  ⟨alike.events.symm, alike.tied.symm, alike.tieAlive.symm, alike.isSet.symm⟩

theorem Alike.trans {b c d : Channel} (first : b.Alike c) (second : c.Alike d) : b.Alike d :=
  ⟨first.events.trans second.events, first.tied.trans second.tied,
    first.tieAlive.trans second.tieAlive, first.isSet.trans second.isSet⟩

theorem Alike.react {c d : Channel} (alike : c.Alike d) (revents : Mask) :
    c.react revents = d.react revents := by
  simp only [Channel.react, handleEvent, handleEventWithGuard, invoke, alike.tied, alike.tieAlive,
    alike.isSet]

/-- No condition on the fd makes the channel invoke a callback while it has no events
enabled: it is tied to an object that is gone, or has neither a close nor an error
callback. -/
def Silent (c : Channel) : Prop :=
  (c.tied = true ∧ c.tieAlive = false) ∨ (c.isSet .close = false ∧ c.isSet .error = false)

instance (c : Channel) : Decidable c.Silent := inferInstanceAs (Decidable (_ ∨ _))

theorem Alike.silent {c d : Channel} (alike : c.Alike d) (silent : c.Silent) : d.Silent := by
  rwa [Silent, ← alike.tied, ← alike.tieAlive, ← alike.isSet]

/-- Without events enabled only `POLLERR` and `POLLHUP` are reported. -/
theorem report_zero_has {flags : Mask} (outside : (0 ||| POLLERR ||| POLLHUP) &&& flags = 0)
    (conditions : Mask) : (Mask.report 0 conditions).has flags = false := by
  rw [Mask.has, Mask.report, BitVec.and_assoc, outside]
  simp

/-- A channel is silent iff, watched without events, it invokes nothing. -/
theorem silent_iff (c : Channel) :
    c.Silent ↔ ∀ conditions, c.react (Mask.report 0 conditions) = [] := by
  constructor
  · intro silent conditions
    have no_read :=
      report_zero_has (show _ &&& (POLLIN ||| POLLPRI ||| POLLRDHUP) = 0 from rfl) conditions
    have no_write := report_zero_has (show _ &&& POLLOUT = 0 from rfl) conditions
    generalize Mask.report 0 conditions = revents at no_read no_write
    rcases silent with ⟨tied, gone⟩ | ⟨close, error⟩
    · simp [react, handleEvent, tied, gone]
    · simp [react, handleEvent, handleEventWithGuard, invoke, close, error, no_read, no_write]
  · intro nothing
    have on_hup := nothing POLLHUP
    have on_error := nothing POLLERR
    rw [Silent]
    cases tied : c.tied <;> cases gone : c.tieAlive <;> cases close : c.isSet .close <;>
      cases error : c.isSet .error <;>
      simp_all [react, handleEvent, handleEventWithGuard, invoke, Mask.report, Mask.has, POLLHUP,
        POLLERR, POLLIN, POLLPRI, POLLOUT, POLLNVAL, POLLRDHUP]

end Channel

end Dbdky.Port
