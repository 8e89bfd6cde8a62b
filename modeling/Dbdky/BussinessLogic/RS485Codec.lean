import Dbdky.Coding.PrefixCode
import Dbdky.Port.BufferInts
import Dbdky.Utils.StringPiece

/-!
`RS485Codec` (`src/bussiness_logic/RS485Codec.h`): messages behind their length.

* **`frames_uniquely_decodable`.** `send` builds a frame for every message, the length in
  four bytes and then the message, and no two sequences of messages have the same frames
  one behind the other.
-/

namespace Dbdky

open Port Memory

namespace RS485Codec

variable (host : ByteOrder)

/-- `send`, up to the buffer that it passes to `ComEntity::send`. -/
def send (message : StringPiece) : Option Buffer := do
  let buf := Buffer.new
  let buf ← buf.append message.data
  let len : BitVec 32 := .ofInt 32 message.size
  let be32 := hostToNetwork32 host len
  buf.prepend (host.bytes (n := 4) be32)

/-- What `send` puts before the message. -/
def header (message : StringPiece) : List UInt8 :=
  ByteOrder.big.bytes (n := 4) (.ofInt 32 message.size)

/-- What `send` passes on. -/
def frame (message : StringPiece) : List UInt8 := header message ++ message.data

/-- The bytes passed on for a sequence of messages. -/
def sendAll (messages : List StringPiece) : Option (List UInt8) := do
  let buffers ← messages.mapM (send host)
  some (buffers.flatMap Buffer.content)

theorem toInt_size (message : StringPiece) :
    (BitVec.ofInt 32 message.size).toInt = message.size := by
  have := message.length_lt
  apply BitVec.toInt_ofInt_eq_self (by decide)
  · simp only [StringPiece.size]
    omega
  · simp only [StringPiece.size]
    omega

/-- The four bytes tell the length. -/
theorem size_eq_of_header_eq {x y : StringPiece} (same : header x = header y) :
    x.size = y.size := by
  have words : BitVec.ofInt 32 x.size = BitVec.ofInt 32 y.size :=
    ByteOrder.bytes_injective (n := 4) .big same
  rw [← toInt_size x, words, toInt_size y]

/-- Before the message there is always room for its length. -/
theorem send_spec (message : StringPiece) :
    ∃ buf, send host message = some buf ∧ Buffer.Represents buf (frame message) := by
  have short := message.length_lt
  have fits : Buffer.new.Fits message.data.length := by
    refine .inr ?_
    simp only [Buffer.new, Buffer.kCheapPrepend, SizeT.range]
    omega
  obtain ⟨buf, appended, rep⟩ := Buffer.append_spec Buffer.new_represents fits
  have room : Buffer.kCheapPrepend ≤ buf.prependableBytes :=
    Buffer.append_prependableBytes appended
  have bytes : host.bytes (n := 4) (hostToNetwork32 host (.ofInt 32 message.size)) =
      header message := ByteOrder.bytes_htobe host _
  have length : (header message).length = 4 := ByteOrder.length_bytes _ _
  have enough : (header message).length ≤ buf.prependableBytes := by
    rw [length]
    exact Nat.le_trans (by decide) room
  obtain ⟨framed, prepended, rep'⟩ := Buffer.prepend_spec rep enough
  refine ⟨framed, ?_, rep'⟩
  simp only [send, appended, Option.bind_eq_bind, Option.bind_some, bytes, prepended]

theorem frame_prefixFree : Coding.PrefixFree frame := by
  refine .of_header 4 (fun _ => rfl) (fun _ => ByteOrder.length_bytes _ _) ?_ ?_
  · intro x y same
    exact Int.ofNat.inj (size_eq_of_header_eq same)
  · intro x y same
    exact StringPiece.ext same

theorem frame_ne_nil (message : StringPiece) : frame message ≠ [] := by
  intro empty
  have length := congrArg List.length (List.append_eq_nil_iff.mp empty).1
  rw [header, ByteOrder.length_bytes] at length
  cases length

theorem sendAll_eq (messages : List StringPiece) :
    sendAll host messages = some (messages.flatMap frame) := by
  suffices ∃ buffers, messages.mapM (send host) = some buffers ∧
      buffers.flatMap Buffer.content = messages.flatMap frame by
    obtain ⟨buffers, sent, content⟩ := this
    simp only [sendAll, sent, content, Option.bind_eq_bind, Option.bind_some]
  induction messages with
  | nil => exact ⟨[], rfl, rfl⟩
  | cons message messages ih =>
      obtain ⟨buf, sent, rep⟩ := send_spec host message
      obtain ⟨buffers, rest, content⟩ := ih
      refine ⟨buf :: buffers, ?_, ?_⟩
      · simp only [List.mapM_cons, sent, rest, Option.bind_eq_bind, Option.bind_some,
          Option.pure_def]
      · rw [List.flatMap_cons, List.flatMap_cons, rep.content, content]

/-- **Frames are constructible and uniquely decodable.** -/
theorem frames_uniquely_decodable :
    (∀ message, ∃ buf, send host message = some buf ∧
      buf.content = ByteOrder.big.bytes (n := 4) (.ofInt 32 message.size) ++ message.data ∧
      ∃ len, buf.peekInt32 host = some len ∧ len.toInt = message.size) ∧
    (∀ messages, (sendAll host messages).isSome) ∧
    Function.Injective (sendAll host) := by
  refine ⟨?_, ?_, ?_⟩
  · intro message
    obtain ⟨buf, sent, rep⟩ := send_spec host message
    exact ⟨buf, sent, rep.content, _, Buffer.peekInt_spec host _ rep, toInt_size message⟩
  · intro messages
    rw [sendAll_eq]
    rfl
  · intro xs ys same
    rw [sendAll_eq, sendAll_eq] at same
    exact frame_prefixFree.flatMap_injective frame_ne_nil (Option.some.inj same)

end RS485Codec

end Dbdky
