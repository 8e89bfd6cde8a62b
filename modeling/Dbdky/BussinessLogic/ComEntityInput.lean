import Dbdky.Port.Buffer
import Dbdky.Port.Channel
import Dbdky.Transition.Machine
import Dbdky.Utils.Logging

/-!
The input side of `ComEntity` (`src/bussiness_logic/ComEntity.{h,cpp}`): the device, the channel,
`handleRead` and the message callback.

What `readv` does is part of the label. `handleClose` and `handleError` are empty, and the channel
has no callbacks for them. Sending does not touch the input side.

* **`input_in_order`.** Whatever the device has received has been taken by the message callback,
  is in `inputBuffer_`, or is still in the device, in this order. As long as the callback takes
  all there is (`RS485Codec::onMessage` does so only where `LOG_INFO` logs), `inputBuffer_` is
  left empty, and is as large as the longest message.
-/

namespace Dbdky

open Transition

namespace ComEntity.Input

open Port (Buffer Channel Errno Mask)

/-- `LOG_INFO`: whether its statement is executed. -/
def logsInfo : Logger.LogLevel → Bool
  | .TRACE | .DEBUG | .INFO => true
  | .WARN | .ERROR | .FATAL => false

inductive MessageCallback where
  /-- `defaultMessageCallback` -/
  | defaultMessageCallback
  /-- `RS485Codec::onMessage` -/
  | onMessage
  /-- Another one. It looks at what is readable, and retrieves as many bytes as it finds fit. -/
  | user (len : List UInt8 → Nat) (enough : ∀ bytes, len bytes ≤ bytes.length)

/-- What a call of the callback takes out of the buffer, and the buffer after it. -/
def MessageCallback.call (logLevel : Logger.LogLevel) (buf : Buffer) :
    MessageCallback → Option (List UInt8 × Buffer)
  | .defaultMessageCallback => some (buf.content, buf.retrieveAll)
  -- the text is an operand of `LOG_INFO`
  | .onMessage => if logsInfo logLevel then buf.retrieveAllAsString else some ([], buf)
  | .user len _ => buf.retriveAsString (len buf.content)

/-- The callback takes all there is. -/
def MessageCallback.Drains (logLevel : Logger.LogLevel) : MessageCallback → Prop
  | .defaultMessageCallback => True
  | .onMessage => logsInfo logLevel = true
  | .user len _ => ∀ bytes, len bytes = bytes.length

/-- What `readv` does: it takes the first `n` bytes from the device, or fails. -/
inductive ReadResult where
  | read (n : Nat)
  | failed (errno : Errno)
deriving DecidableEq, Repr

structure State where
  /-- `g_logLevel` -/
  logLevel : Logger.LogLevel
  channel : Channel
  messageCallback : Option MessageCallback
  inputBuffer : Buffer
  /-- What the device has received and nobody has read. -/
  pending : List UInt8
  /-- History: all that the device has received. -/
  received : List UInt8
  /-- History: what the calls of the message callback have taken. -/
  messages : List (List UInt8)

/-- As the constructor leaves the channel, when the port could be opened. -/
def newChannel : Channel where
  events := 0
  revents := 0
  index := -1
  tied := false
  tieAlive := false
  isSet callback := callback = .read ∨ callback = .write

/-- After the constructor and `setMessageCallback`. -/
def State.new (logLevel : Logger.LogLevel) (messageCallback : Option MessageCallback) : State where
  logLevel
  channel := newChannel
  messageCallback
  inputBuffer := .new
  pending := []
  received := []
  messages := []

/-! ### The member functions -/

/-- `if (messageCallback_) messageCallback_(shared_from_this(), &inputBuffer_, receiveTime);` -/
def callBack (s : State) : Option State :=
  match s.messageCallback with
  | none => some s
  | some messageCallback => do
      let (message, inputBuffer) ← messageCallback.call s.logLevel s.inputBuffer
      some { s with inputBuffer, messages := s.messages ++ [message] }

def handleRead (s : State) : ReadResult → Option State
  | .read n =>
      if n ≤ s.pending.length then do
        let (inputBuffer, count, _) ← s.inputBuffer.readFd (.ok (s.pending.take n))
        let s := { s with inputBuffer, pending := s.pending.drop n }
        -- for 0, `handleClose()`
        if count > 0 then callBack s else some s
      else none
  | .failed errno => do
      let (inputBuffer, _, _) ← s.inputBuffer.readFd (.error errno)
      -- `handleError()`
      some { s with inputBuffer }

/-- What the channel invokes. -/
def handle (result : ReadResult) (s : State) : Port.Callback → Option State
  | .read => handleRead s result
  -- `handleWrite()` is empty, and the other two are not set
  | .write | .close | .error => some s

/-- `channel_->tie(shared_from_this()); channel_->enableReading();` -/
def establish (channel : Channel) : Channel :=
  { channel with
    tied := true
    tieAlive := true
    events := channel.events ||| Channel.kReadEvent }

def comEstablished (s : State) : State := { s with channel := establish s.channel }

inductive Label where
  /-- `Logger::setLogLevel(level)`, in any thread -/
  | setLogLevel (level : Logger.LogLevel)
  /-- The device receives bytes. -/
  | receive (bytes : List UInt8)
  | comEstablished
  /-- The loop handles the channel, whose fd is in these conditions. A poller does not know a
  channel that has no events. -/
  | event (conditions : Mask) (result : ReadResult)

def step (s : State) : Label → Option State
  | .setLogLevel level => some { s with logLevel := level }
  | .receive bytes =>
      some { s with pending := s.pending ++ bytes, received := s.received ++ bytes }
  | .comEstablished => some (comEstablished s)
  | .event conditions result =>
      if s.channel.isNoneEvent then none
      else (s.channel.react (Mask.report s.channel.events conditions)).foldlM (handle result) s

/-- All interleavings of the device and the loop. -/
def machine : Machine State Label where
  init s := ∃ logLevel messageCallback, s = .new logLevel messageCallback
  step := step

/-- `readv` delivers no more than there is and than its two areas hold, and the buffer can hold
it. -/
def Asked (s : State) : ReadResult → Prop
  | .read n =>
      n ≤ s.pending.length ∧ n ≤ s.inputBuffer.writableBytes + Buffer.extrabufSize ∧
        s.inputBuffer.Fits n
  | .failed _ => True

instance (s : State) : ∀ result, Decidable (Asked s result)
  | .read _ => inferInstanceAs (Decidable (_ ∧ _))
  | .failed _ => isTrue trivial

def Promised : Guard State Label
  | s, .event _ result => Asked s result
  | _, _ => True

instance (s : State) : ∀ l, Decidable (Promised s l)
  | .event _ _ => inferInstanceAs (Decidable (Asked _ _))
  | .setLogLevel _ | .receive _ | .comEstablished => isTrue trivial

/-- In addition the callback that is set takes all there is. -/
def Draining : Guard State Label
  | s, .event _ result => Asked s result ∧
      ∃ messageCallback, s.messageCallback = some messageCallback ∧
        messageCallback.Drains s.logLevel
  | _, _ => True

theorem Draining.promised {s : State} {l : Label} (draining : Draining s l) : Promised s l := by
  cases l with
  | event conditions result => exact draining.1
  | _ => trivial

/-! ### The channel -/

open Port (POLLIN POLLPRI POLLOUT POLLRDHUP)

@[simp] theorem establish_establish : establish (establish newChannel) = establish newChannel := rfl

/-- Of an established channel only the read callback is ever invoked. -/
theorem react_establish (conditions : Mask) :
    (establish newChannel).react (Mask.report (establish newChannel).events conditions) =
      if conditions.has (POLLIN ||| POLLPRI) then [.read] else [] := by
  have events : (establish newChannel).events = Channel.kReadEvent := rfl
  have reads : (Channel.kReadEvent.report conditions).has (POLLIN ||| POLLPRI ||| POLLRDHUP) =
      conditions.has (POLLIN ||| POLLPRI) := by
    rw [Mask.has, Mask.report, BitVec.and_assoc]
    rfl
  have writes : (Channel.kReadEvent.report conditions).has POLLOUT = false := by
    rw [Mask.has, Mask.report, BitVec.and_assoc]
    change (conditions &&& 0 != 0) = false
    simp
  rw [events]
  simp [Channel.react, Channel.handleEvent, Channel.handleEventWithGuard, Channel.invoke, reads,
    writes, establish, newChannel]

theorem event_eq {s : State} (established : s.channel = establish newChannel) (conditions : Mask)
    (result : ReadResult) :
    step s (.event conditions result) =
      if conditions.has (POLLIN ||| POLLPRI) then handleRead s result else some s := by
  have watched : ¬ s.channel.isNoneEvent := by
    rw [established]
    decide
  rw [step, if_neg watched, established, react_establish]
  split
  · simp [handle]
  · rfl

/-! ### The buffer -/

open Port.Buffer (Represents)

variable {b : Buffer} {c : List UInt8}

variable (logLevel : Logger.LogLevel)

/-- A callback takes the front of what is readable. -/
theorem MessageCallback.call_spec (messageCallback : MessageCallback) (rep : Represents b c) :
    ∃ message t rest, messageCallback.call logLevel b = some (message, t) ∧ Represents t rest ∧
      message ++ rest = c := by
  cases messageCallback with
  | defaultMessageCallback =>
      exact ⟨_, _, [], rfl, Buffer.retrieveAll_represents rep, by rw [rep.content, List.append_nil]⟩
  | onMessage =>
      by_cases logs : logsInfo logLevel = true
      · refine ⟨c, b.retrieveAll, [], ?_, Buffer.retrieveAll_represents rep, List.append_nil c⟩
        rw [call, if_pos logs, Buffer.retrieveAllAsString, rep.readableBytes,
          Buffer.retriveAsString_all rep]
      · exact ⟨[], b, c, if_neg logs, rep, rfl⟩
  | user len enough =>
      have enough : len b.content ≤ c.length := rep.content ▸ enough b.content
      obtain ⟨t, called, after⟩ := Buffer.retriveAsString_spec rep enough
      exact ⟨_, t, _, called, after, List.take_append_drop _ _⟩

variable {logLevel}

theorem MessageCallback.Drains.call {messageCallback : MessageCallback}
    (drains : messageCallback.Drains logLevel) (rep : Represents b c) :
    messageCallback.call logLevel b = some (c, b.retrieveAll) := by
  cases messageCallback with
  | defaultMessageCallback => rw [MessageCallback.call, rep.content]
  | onMessage =>
      have logs : logsInfo logLevel = true := drains
      rw [MessageCallback.call, if_pos logs, Buffer.retrieveAllAsString, rep.readableBytes,
        Buffer.retriveAsString_all rep]
  | user len enough =>
      rw [MessageCallback.call, drains, rep.content, Buffer.retriveAsString_all rep]

/-- The size of a vector into which the messages have been read one by one. -/
def size (messages : List (List UInt8)) : Nat :=
  messages.foldl (fun size message => max size (Buffer.kCheapPrepend + message.length))
    (Buffer.kCheapPrepend + Buffer.kInitialSize)

theorem size_concat (messages : List (List UInt8)) (message : List UInt8) :
    size (messages ++ [message]) = max (size messages) (Buffer.kCheapPrepend + message.length) :=
  List.foldl_concat ..

/-- What holds when every message has been taken as a whole. -/
structure Whole (s : State) : Prop where
  drained : s.inputBuffer.Drained
  nonempty : ∀ message ∈ s.messages, message ≠ []
  size : s.inputBuffer.buffer.length = size s.messages

structure Inv (s : State) : Prop where
  channel : s.channel = newChannel ∧ s.pending = s.received ∨ s.channel = establish newChannel
  valid : s.inputBuffer.Valid
  in_order : s.messages.flatten ++ s.inputBuffer.content ++ s.pending = s.received
  unset : s.messageCallback = none → s.messages = []

theorem new_inv (logLevel : Logger.LogLevel) (messageCallback : Option MessageCallback) :
    Inv (.new logLevel messageCallback) where
  channel := .inl ⟨rfl, rfl⟩
  valid := Buffer.new_represents.valid
  in_order := by simp [State.new, Buffer.new_represents.content]
  unset _ := rfl

theorem new_whole (logLevel : Logger.LogLevel) (messageCallback : Option MessageCallback) :
    Whole (.new logLevel messageCallback) :=
  ⟨Buffer.new_drained, fun _ none => absurd none List.not_mem_nil, List.length_replicate⟩

/-- No bytes and no error number: nothing has happened. -/
theorem handleRead_zero {s : State} (inv : Inv s) : handleRead s (.read 0) = some s := by
  simp [handleRead, Buffer.readFd_nil inv.valid]

theorem handleRead_failed (s : State) (errno : Errno) : handleRead s (.failed errno) = some s := by
  simp [handleRead, Buffer.readFd_error]

/-- The bytes that have been read, with no callback to take them. -/
theorem Inv.keep {s : State} {n : Nat} {b : Buffer} (inv : Inv s)
    (established : s.channel = establish newChannel)
    (rep : Represents b (s.inputBuffer.content ++ s.pending.take n)) :
    Inv { s with inputBuffer := b, pending := s.pending.drop n } where
  channel := .inr established
  valid := rep.valid
  in_order := by
    rw [← inv.in_order]
    simp [rep.content]
  unset := inv.unset

/-- They are passed to the callback behind what it has left. -/
theorem Inv.take {s : State} {n : Nat} {message rest : List UInt8} {b : Buffer} (inv : Inv s)
    (established : s.channel = establish newChannel)
    (split : message ++ rest = s.inputBuffer.content ++ s.pending.take n) (rep : Represents b rest)
    (set : s.messageCallback ≠ none) :
    Inv { s with
      inputBuffer := b
      pending := s.pending.drop n
      messages := s.messages ++ [message] } where
  channel := .inr established
  valid := rep.valid
  in_order := by
    calc (s.messages ++ [message]).flatten ++ b.content ++ s.pending.drop n
      _ = s.messages.flatten ++ (message ++ rest) ++ s.pending.drop n := by simp [rep.content]
      _ = s.messages.flatten ++ s.inputBuffer.content ++
            (s.pending.take n ++ s.pending.drop n) := by
          rw [split]
          simp only [List.append_assoc]
      _ = s.received := by rw [List.take_append_drop, inv.in_order]
  unset unset := absurd unset set

/-- A buffer that was empty holds what has been read, and the callback takes it. -/
theorem Whole.read {s : State} {n : Nat} {b : Buffer} {count : Int} {savedErrno : Option Errno}
    (whole : Whole s) (some_read : s.pending.take n ≠ [])
    (room : (s.pending.take n).length ≤ s.inputBuffer.writableBytes + Buffer.extrabufSize)
    (fits : s.inputBuffer.Fits (s.pending.take n).length)
    (read : s.inputBuffer.readFd (.ok (s.pending.take n)) = some (b, count, savedErrno)) :
    Represents b (s.pending.take n) ∧
      Whole { s with
        inputBuffer := b.retrieveAll
        pending := s.pending.drop n
        messages := s.messages ++ [s.pending.take n] } := by
  obtain ⟨drained, nonempty, size⟩ := whole
  obtain ⟨t, read', rep, size'⟩ := Buffer.readFd_drained drained room fits
  obtain ⟨⟩ := Option.some.inj (read.symm.trans read')
  refine ⟨rep, Buffer.retrieveAll_drained rep, ?_, ?_⟩
  · intro message mem
    rcases List.mem_append.mp mem with old | new
    · exact nonempty message old
    · rwa [List.mem_singleton.mp new]
  · change b.buffer.length = _
    rw [size', size, size_concat]

theorem handleRead_spec {s : State} {result : ReadResult} (inv : Inv s)
    (established : s.channel = establish newChannel) (asked : Asked s result) :
    ∃ t, handleRead s result = some t ∧ Inv t ∧
      ∀ messageCallback, s.messageCallback = some messageCallback →
        messageCallback.Drains s.logLevel → Whole s → Whole t := by
  cases result with
  | failed errno => exact ⟨s, handleRead_failed s errno, inv, fun _ _ _ whole => whole⟩
  | read n =>
      obtain ⟨here, room, fits⟩ := asked
      have taken : (s.pending.take n).length = n := List.length_take_of_le here
      by_cases zero : n = 0
      · subst zero
        exact ⟨s, handleRead_zero inv, inv, fun _ _ _ whole => whole⟩
      rw [← taken] at room fits
      obtain ⟨b, read, rep⟩ := Buffer.readFd_spec inv.valid.represents room fits
      cases set : s.messageCallback with
      | none =>
          refine ⟨_, ?_, inv.keep established rep, fun _ => nofun⟩
          simp [handleRead, here, read, callBack, set]
      | some messageCallback =>
          obtain ⟨message, t, rest, called, after, split⟩ :=
            messageCallback.call_spec s.logLevel rep
          refine ⟨_, ?_, inv.take established split after (by simp [set]), ?_⟩
          · simp [handleRead, here, read, zero, callBack, set, called]
          · rintro same ⟨⟩ drains whole
            have some_read : s.pending.take n ≠ [] := fun none => by simp_all
            obtain ⟨rep', whole⟩ := whole.read some_read room fits read
            obtain ⟨⟩ := Option.some.inj (called.symm.trans (drains.call rep'))
            exact whole

theorem step_inv {s t : State} {l : Label} (inv : Inv s) (promised : Promised s l)
    (h : step s l = some t) : Inv t ∧ (Draining s l → Whole s → Whole t) := by
  cases l with
  | setLogLevel level =>
      obtain ⟨⟩ := h
      exact ⟨⟨inv.channel, inv.valid, inv.in_order, inv.unset⟩,
        fun _ ⟨drained, nonempty, size⟩ => ⟨drained, nonempty, size⟩⟩
  | receive bytes =>
      obtain ⟨⟩ := h
      refine ⟨⟨?_, inv.valid, ?_, inv.unset⟩,
        fun _ ⟨drained, nonempty, size⟩ => ⟨drained, nonempty, size⟩⟩
      · exact inv.channel.imp_left fun ⟨new, untouched⟩ => ⟨new, congrArg (· ++ bytes) untouched⟩
      · change _ ++ (s.pending ++ bytes) = s.received ++ bytes
        rw [← List.append_assoc, inv.in_order]
  | comEstablished =>
      obtain ⟨⟩ := h
      refine ⟨⟨.inr ?_, inv.valid, inv.in_order, inv.unset⟩,
        fun _ ⟨drained, nonempty, size⟩ => ⟨drained, nonempty, size⟩⟩
      rcases inv.channel with ⟨new, -⟩ | established
      · rw [comEstablished, new]
      · rw [comEstablished, established, establish_establish]
  | event conditions result =>
      rcases inv.channel with ⟨new, -⟩ | established
      · have unknown : s.channel.isNoneEvent := by rw [new]; rfl
        rw [step, if_pos unknown] at h
        cases h
      · rw [event_eq established] at h
        split at h
        · obtain ⟨u, read, inv', whole⟩ := handleRead_spec inv established promised
          obtain rfl := Option.some.inj (read.symm.trans h)
          exact ⟨inv', fun ⟨_, messageCallback, set, drains⟩ => whole messageCallback set drains⟩
        · obtain rfl := Option.some.inj h
          exact ⟨inv, fun _ => id⟩

theorem reachable_inv {s : State} (reach : machine.ReachableWhere Promised s) : Inv s := by
  refine reach.invariant ?_ fun s l t inv promised step => (step_inv inv promised step).1
  rintro s ⟨logLevel, messageCallback, rfl⟩
  exact new_inv logLevel messageCallback

theorem reachable_whole {s : State} (reach : machine.ReachableWhere Draining s) : Whole s := by
  refine (reach.invariant (I := fun s => Inv s ∧ Whole s) ?_ ?_).2
  · rintro s ⟨logLevel, messageCallback, rfl⟩
    exact ⟨new_inv logLevel messageCallback, new_whole logLevel messageCallback⟩
  · intro s l t ⟨inv, whole⟩ draining step
    obtain ⟨inv', kept⟩ := step_inv inv draining.promised step
    exact ⟨inv', kept draining whole⟩

/-- What holds of the input side at any moment. -/
structure Sound (s : State) : Prop where
  /-- No byte is lost, repeated or moved, however the kernel cuts the stream. -/
  in_order : s.messages.flatten ++ s.inputBuffer.content ++ s.pending = s.received
  unset : s.messageCallback = none → s.messages = []
  /-- A callback that takes everything at each event is called with a message, and `inputBuffer_`
  has grown for the longest message and never shrinks. -/
  whole : machine.ReachableWhere Draining s →
    s.inputBuffer.content = [] ∧ (∀ message ∈ s.messages, message ≠ []) ∧
      s.inputBuffer.buffer.length = size s.messages
  /-- Before `comEstablished` nothing has been read. -/
  unestablished : s.channel.isNoneEvent → s.pending = s.received
  /-- No assertion fails, and no byte leaves the vector. -/
  proceeds : ¬ s.channel.isNoneEvent → ∀ conditions result, Asked s result →
    ∃ t, step s (.event conditions result) = some t
  /-- The end of the file, an error and a hang-up change nothing: the channel stays enabled. -/
  unnoticed : ¬ s.channel.isNoneEvent → ∀ conditions result,
    conditions.has (POLLIN ||| POLLPRI) = false ∨ result = .read 0 ∨ (∃ e, result = .failed e) →
    step s (.event conditions result) = some s

/-- **The input side delivers the bytes of the device in order.** -/
theorem input_in_order {s : State} (reach : machine.ReachableWhere Promised s) : Sound s := by
  have inv := reachable_inv reach
  have established : ¬ s.channel.isNoneEvent → s.channel = establish newChannel := fun known =>
    inv.channel.resolve_left fun ⟨new, _⟩ => known (by rw [new]; rfl)
  refine ⟨inv.in_order, inv.unset, ?_, ?_, ?_, ?_⟩
  · intro draining
    obtain ⟨drained, nonempty, size⟩ := reachable_whole draining
    exact ⟨drained.represents.content, nonempty, size⟩
  · intro unknown
    rcases inv.channel with ⟨-, untouched⟩ | here
    · exact untouched
    · rw [here] at unknown
      exact absurd unknown (by decide)
  · intro known conditions result asked
    rw [event_eq (established known)]
    split
    · obtain ⟨t, read, -, -⟩ := handleRead_spec inv (established known) asked
      exact ⟨t, read⟩
    · exact ⟨s, rfl⟩
  · intro known conditions result nothing
    rw [event_eq (established known)]
    rcases nothing with none | rfl | ⟨errno, rfl⟩
    · rw [if_neg (by simp [none])]
    · rw [handleRead_zero inv, ite_self]
    · rw [handleRead_failed, ite_self]

def isOnMessage : Option MessageCallback → Bool
  | some .onMessage => true
  | _ => false

/-- `RS485Codec::onMessage` is called while `LOG_INFO` logs. -/
def Logged : Guard State Label
  | s, .event _ result =>
      Asked s result ∧ isOnMessage s.messageCallback = true ∧ logsInfo s.logLevel = true
  | _, _ => True

instance (s : State) : ∀ l, Decidable (Logged s l)
  | .event _ _ => inferInstanceAs (Decidable (_ ∧ _ ∧ _))
  | .setLogLevel _ | .receive _ | .comEstablished => isTrue trivial

theorem Logged.draining {s : State} {l : Label} (logged : Logged s l) : Draining s l := by
  cases l with
  | event conditions result =>
      obtain ⟨asked, codec, logs⟩ := logged
      unfold isOnMessage at codec
      split at codec
      · exact ⟨asked, .onMessage, ‹_›, logs⟩
      · cases codec
  | _ => trivial

/-- Two reads of what the device has received in one piece, and a hang-up. -/
def twoReads : List Label :=
  [.receive [1, 2, 3], .comEstablished, .event POLLIN (.read 2), .event POLLIN (.read 1),
    .event Port.POLLHUP (.read 0)]

theorem input_in_order_twoReads :
    ∃ s, machine.run (.new .INFO (some .onMessage)) twoReads = some s ∧
      s.messages = [[1, 2], [3]] ∧ Sound s ∧ s.inputBuffer.content = [] := by
  have ran : (machine.run (.new .INFO (some .onMessage)) twoReads).isSome := by decide +kernel
  obtain ⟨s, run⟩ := Option.isSome_iff_exists.mp ran
  have messages : (machine.run (.new .INFO (some .onMessage)) twoReads).map State.messages =
      some [[1, 2], [3]] := by decide +kernel
  rw [run] at messages
  have logged : machine.LeadsWhere Logged (.new .INFO (some .onMessage)) s :=
    Machine.leadsWhere_of_run twoReads (by decide +kernel) run
  have reach : machine.ReachableWhere Draining s :=
    ⟨_, ⟨.INFO, some .onMessage, rfl⟩, logged.mono fun _ _ => Logged.draining⟩
  obtain ⟨t, initial, leads⟩ := reach
  have sound := input_in_order ⟨t, initial, leads.mono fun _ _ => Draining.promised⟩
  exact ⟨s, run, Option.some.inj messages, sound, (sound.whole ⟨t, initial, leads⟩).1⟩

end ComEntity.Input

end Dbdky
