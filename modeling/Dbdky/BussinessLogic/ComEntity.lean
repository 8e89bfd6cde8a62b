import Dbdky.Port.Buffer
import Dbdky.Transition.Machine

/-!
The output side of `ComEntity` (`src/bussiness_logic/ComEntity.{h,cpp}`): the three
overloads of `send`, `sendInLoop`, `shutdown` and the handler of writable events.

A `send` in the loop thread checks the state and writes in one step. In another thread
the check and the `push_back` into the loop's queue are two steps, and between them
anything may happen. What `::write` does is part of the label. Reading from the port does
not touch the output side and is left out.
-/

namespace Dbdky

open Transition

namespace ComEntity

open Port (Buffer Errno)

/-- The thread a call is made in. -/
inductive Thread where
  | loop
  | other
deriving DecidableEq, Repr

inductive ComState where
  | kIdle
  | kOpened
  | kError
deriving DecidableEq, Repr

/-- `StringPiece(const string&)` stores the size as an `int`. -/
def stringPieceLength (size : Nat) : Int := (size : Int).bmod (2 ^ 32)

/-- The argument of a `send`. -/
inductive Message where
  /-- `send(const void*, size_t)` -/
  | data (bytes : List UInt8)
  /-- `send(const StringPiece&)`, whose length is an `int` -/
  | stringPiece (bytes : List UInt8) (short : bytes.length < 2 ^ 31)
  /-- `send(Buffer*)` -/
  | buffer (buf : Buffer) (valid : buf.Valid)

/-- A functor in the queue of the loop. -/
inductive Functor where
  /-- `sendInLoop(const StringPiece&)`, bound to a string -/
  | sendInLoop (message : List UInt8)
  | shutdownInLoop
  | writeComplete
deriving DecidableEq, Repr

/-- What `::write` does: it takes the first `n` bytes, or fails. Where more bytes are asked
for than the message has, `beyond` is what lies behind it in memory. -/
inductive WriteResult where
  | wrote (n : Nat) (beyond : List UInt8)
  | failed (errno : Errno)
deriving DecidableEq, Repr

structure State where
  state : ComState
  /-- `channel_->isWriting()` -/
  isWriting : Bool
  /-- Whether `writeCompleteCallback_` is set. -/
  hasWriteComplete : Bool
  outputBuffer : Buffer
  /-- The functors queued in the loop, in the order in which it runs them. -/
  queue : List Functor
  /-- What other threads are about to queue, having checked the state. -/
  inFlight : List Functor
  /-- The bytes written to the fd. -/
  written : List UInt8
  /-- History: those of them that were written while the state was not `kOpened`. -/
  writtenUnopened : List UInt8
  /-- History: the messages `sendInLoop` has run on, in order. -/
  sent : List (List UInt8)
  /-- History: the buffers as `send(Buffer*)` has left them. -/
  leftBuffers : List Buffer

/-- After the constructor, when the port could be opened. -/
def State.new (hasWriteComplete : Bool) : State where
  state := .kOpened
  isWriting := false
  hasWriteComplete
  outputBuffer := .new
  queue := []
  inFlight := []
  written := []
  writtenUnopened := []
  sent := []
  leftBuffers := []

/-! ### The member functions -/

/-- `sendInLoop(data, len)` of the message `message`. -/
def sendInLoop (s : State) (message : List UInt8) (len : Nat) (result : WriteResult) :
    Option State :=
  let s := { s with sent := s.sent ++ [message] }
  if s.state = .kOpened then
    -- "com not opened yet, give up writing"
    some s
  else if !s.isWriting && s.outputBuffer.readableBytes == 0 then
    match result with
    | .wrote n beyond =>
        let bytes := (message ++ beyond).take n
        if n ≤ len ∧ bytes.length = n then
          let remaining := len - n
          some { s with
            written := s.written ++ bytes
            writtenUnopened := s.writtenUnopened ++ bytes
            queue := if remaining = 0 ∧ s.hasWriteComplete then s.queue ++ [.writeComplete]
              else s.queue }
        else none
    | .failed _ =>
        -- nwrote = 0; an error other than EWOULDBLOCK is logged, and nothing else happens
        some s
  else some s

/-- `sendInLoop(const StringPiece&)` of a string: the length goes through an `int`. -/
def sendStringInLoop (s : State) (message : List UInt8) (result : WriteResult) : Option State :=
  sendInLoop s message (SizeT.ofInt (stringPieceLength message.length)) result

/-- `send` in the loop thread -/
def send (s : State) (message : Message) (result : WriteResult) : Option State :=
  if s.state = .kOpened then
    match message with
    | .data bytes => sendInLoop s bytes bytes.length result
    | .stringPiece bytes _ => sendInLoop s bytes bytes.length result
    | .buffer buf _ => do
        let s ← sendInLoop s buf.content buf.readableBytes result
        some { s with leftBuffers := s.leftBuffers ++ [buf.retrieveAll] }
  else some s

/-- `send` in another thread, up to the call of `runInLoop` -/
def sendFromOther (s : State) (message : Message) : Option State :=
  if s.state = .kOpened then
    match message with
    | .data bytes => some { s with inFlight := s.inFlight ++ [.sendInLoop bytes] }
    | .stringPiece bytes _ => some { s with inFlight := s.inFlight ++ [.sendInLoop bytes] }
    | .buffer buf _ => do
        let (string, buf) ← buf.retrieveAllAsString
        some { s with
          inFlight := s.inFlight ++ [.sendInLoop string]
          leftBuffers := s.leftBuffers ++ [buf] }
  else some s

/-- `shutdown()`; `shutdownInLoop` does nothing. -/
def shutdown (s : State) : Thread → State
  | .loop => if s.state = .kOpened then { s with state := .kIdle } else s
  | .other =>
      if s.state = .kOpened then
        { s with state := .kIdle, inFlight := s.inFlight ++ [.shutdownInLoop] }
      else s

/-- `handleWrite()` is empty. -/
def handleWrite (s : State) : State := s

/-! ### The steps -/

inductive Label where
  /-- A `send` in the loop thread. -/
  | send (message : Message) (result : WriteResult)
  /-- A `send` in another thread, up to the call of `runInLoop`. -/
  | sendFromOther (message : Message)
  | shutdown (thread : Thread)
  /-- Another thread queues the `i`-th functor it has in flight. -/
  | queueInLoop (i : Nat)
  /-- The loop runs the first functor of its queue. -/
  | runFunctor (result : WriteResult)
  /-- The fd becomes writable while the channel is writing. -/
  | writable

def step (s : State) : Label → Option State
  | .send message result => send s message result
  | .sendFromOther message => sendFromOther s message
  | .shutdown thread => some (shutdown s thread)
  | .queueInLoop i =>
      match s.inFlight[i]? with
      | some functor =>
          some { s with queue := s.queue ++ [functor], inFlight := s.inFlight.eraseIdx i }
      | none => none
  | .runFunctor result =>
      match s.queue with
      | .sendInLoop message :: queue => sendStringInLoop { s with queue } message result
      | .shutdownInLoop :: queue => some { s with queue }
      | .writeComplete :: queue => some { s with queue }
      | [] => none
  | .writable => if s.isWriting then some (handleWrite s) else none

/-- All interleavings of sending threads, the loop and the device. -/
def machine : Machine State Label where
  init s := ∃ hasWriteComplete, s = .new hasWriteComplete
  step := step

end ComEntity

end Dbdky
