import Mathlib.Data.List.TakeDrop
import Dbdky.BussinessLogic.ComUtil
import Dbdky.Port.Buffer
import Dbdky.Transfer.Pieces

/-!
`ComUtil::serialWrite` (`src/bussiness_logic/ComEntity.cpp`): a message is written in as many
calls of `::write` as it takes.

What the calls return is an input. `left` and `done` keep in step, so the loop is a transfer
whose position is `done`.

* **`serialWrite_exact`.** The port gets the bytes that the calls accept before the first
  failure other than `EINTR`, from the front of the message, and `serialWrite` returns `true`
  exactly if that is all of it.
-/

namespace Dbdky.ComUtil

open Port (Errno)
open Transfer

def EINTR : Errno := 4

/-- What `::write` returns, with `errno` if that is -1. -/
inductive WriteResult where
  | wrote (res : Nat)
  | failed (errno : Errno)
deriving DecidableEq, Repr

structure SerialWrite where
  /-- The bytes that the port has accepted. -/
  port : List UInt8
  /-- `none` while a result of `::write` is awaited -/
  returned : Option Bool
deriving DecidableEq, Repr

/-- The `while` loop and the `return` behind it. -/
def writeLoop (pucBuffer : List UInt8) (left done : Nat) (port : List UInt8) :
    List WriteResult → SerialWrite
  | [] => ⟨port, if left > 0 then none else some (left = 0)⟩
  | result :: results =>
      if left > 0 then
        match result with
        | .failed errno =>
            if errno ≠ EINTR then ⟨port, some (left = 0)⟩
            else writeLoop pucBuffer left done port results
        | .wrote res =>
            writeLoop pucBuffer (left - res) (done + res)
              (port ++ (pucBuffer.drop done).take res) results
      else ⟨port, some (left = 0)⟩

def serialWrite (pucBuffer : List UInt8) (usNBytes : UInt16) (results : List WriteResult) :
    SerialWrite :=
  writeLoop pucBuffer usNBytes.toNat 0 [] results

/-- The bytes that the calls accept before the first failure other than `EINTR`. -/
def accepted : List WriteResult → Nat
  | [] => 0
  | .wrote res :: results => res + accepted results
  | .failed errno :: results => if errno = EINTR then accepted results else 0

/-! ### The loop as a transfer -/

def WriteResult.call : WriteResult → Call
  | .wrote res => .moved res
  | .failed errno => if errno = EINTR then .again else .stop

/-- Each result is from 1 to the bytes that are left, or it is -1. -/
def PossibleWrites (length : Nat) (results : List WriteResult) : Prop :=
  Possible length 0 (results.map WriteResult.call)

instance (length : Nat) (results : List WriteResult) : Decidable (PossibleWrites length results) :=
  inferInstanceAs (Decidable (Possible _ _ _))

/-- What `serialWrite` returns when the transfer has got this far. -/
def returns : Status → Option Bool
  | .running => none
  | .complete => some true
  | .stopped => some false

theorem writeLoop_eq (pucBuffer : List UInt8) (limit done : Nat) (port : List UInt8)
    (results : List WriteResult) :
    writeLoop pucBuffer (limit - done) done port results =
      ⟨port ++ (pieces pucBuffer limit done (results.map WriteResult.call)).flatten,
        returns (loop limit done (results.map WriteResult.call)).2⟩ := by
  induction results generalizing done port with
  | nil =>
      rcases Nat.lt_or_ge done limit with left | reached
      · have some_left : limit - done > 0 := Nat.sub_pos_of_lt left
        rw [List.map_nil, loop_nil left, writeLoop, if_pos some_left]
        exact congrArg (SerialWrite.mk · _) (List.append_nil _).symm
      · rw [List.map_nil, loop_of_le reached, writeLoop, Nat.sub_eq_zero_of_le reached]
        exact congrArg (SerialWrite.mk · _) (List.append_nil _).symm
  | cons result results ih =>
      rcases Nat.lt_or_ge done limit with left | reached
      · have some_left : limit - done > 0 := Nat.sub_pos_of_lt left
        have not_all : decide (limit - done = 0) = false :=
          decide_eq_false (Nat.sub_ne_zero_of_lt left)
        rw [List.map_cons, pieces_of_lt _ left]
        cases result with
        | wrote res =>
            rw [writeLoop, if_pos some_left, Nat.sub_sub, ih, WriteResult.call, loop_moved left,
              List.flatten_cons, List.append_assoc]
        | failed errno =>
            by_cases interrupted : errno = EINTR
            · have again : WriteResult.call (.failed errno) = .again := if_pos interrupted
              rw [writeLoop, if_pos some_left, if_neg (not_not.mpr interrupted), ih, again,
                loop_again]
            · have stop : WriteResult.call (.failed errno) = .stop := if_neg interrupted
              rw [writeLoop, if_pos some_left, if_pos interrupted, not_all, stop, loop_stop left]
              exact congrArg (SerialWrite.mk · _) (List.append_nil _).symm
      · rw [pieces_of_le _ reached, loop_of_le reached, Nat.sub_eq_zero_of_le reached]
        have done_all :
            writeLoop pucBuffer 0 done port (result :: results) = ⟨port, some true⟩ := by
          cases result <;> rfl
        rw [done_all]
        exact congrArg (SerialWrite.mk · _) (List.append_nil _).symm

/-- What has been written is what the transfer has moved. -/
theorem serialWrite_eq {message : List UInt8} (short : message.length ≤ 65535)
    (results : List WriteResult) :
    serialWrite message (.ofNat message.length) results =
      ⟨message.take (loop message.length 0 (results.map WriteResult.call)).1,
        returns (loop message.length 0 (results.map WriteResult.call)).2⟩ := by
  have length : (UInt16.ofNat message.length).toNat = message.length :=
    Nat.mod_eq_of_lt (Nat.lt_succ_of_le short)
  have written_pieces : message.take 0 ++
      (pieces message message.length 0 (results.map WriteResult.call)).flatten = _ :=
    take_append_pieces message
  rw [← written_pieces, List.take_zero, serialWrite, length]
  exact writeLoop_eq message message.length 0 [] results

theorem countP_call (results : List WriteResult) :
    (results.map WriteResult.call).countP (· ≠ .again) = results.countP (· ≠ .failed EINTR) := by
  rw [List.countP_map]
  congr 1
  funext result
  cases result with
  | wrote res => rfl
  | failed errno => by_cases interrupted : errno = EINTR <;> simp [WriteResult.call, interrupted]

theorem moved_call (results : List WriteResult) :
    moved (results.map WriteResult.call) = accepted results := by
  induction results with
  | nil => rfl
  | cons result results ih =>
      cases result with
      | wrote res => rw [List.map_cons, WriteResult.call, moved, accepted, ih]
      | failed errno =>
          rw [List.map_cons, WriteResult.call, accepted]
          by_cases interrupted : errno = EINTR
          · rw [if_pos interrupted, if_pos interrupted, moved, ih]
          · rw [if_neg interrupted, if_neg interrupted, moved]

theorem stop_mem_call {results : List WriteResult} :
    .stop ∈ results.map WriteResult.call ↔ ∃ errno ≠ EINTR, .failed errno ∈ results := by
  constructor
  · intro stop
    obtain ⟨result, mem, is_stop⟩ := List.mem_map.mp stop
    cases result with
    | wrote res => cases is_stop
    | failed errno =>
        refine ⟨errno, fun interrupted => ?_, mem⟩
        rw [WriteResult.call, if_pos interrupted] at is_stop
        cases is_stop
  · rintro ⟨errno, failure, mem⟩
    exact List.mem_map.mpr ⟨_, mem, if_neg failure⟩

theorem status_eq (length : Nat) (results : List WriteResult) :
    (loop length 0 (results.map WriteResult.call)).2 =
      if length ≤ accepted results then .complete
      else if .stop ∈ results.map WriteResult.call then .stopped else .running := by
  rw [loop_status, Nat.zero_add, moved_call]

theorem returns_eq_true_iff {status : Status} :
    returns status = some true ↔ status = .complete := by
  cases status <;> decide

theorem returns_eq_false_iff {status : Status} :
    returns status = some false ↔ status = .stopped := by
  cases status <;> decide

theorem returns_ne_none {status : Status} (ended : status ≠ .running) : returns status ≠ none := by
  cases status with
  | running => exact absurd rfl ended
  | complete | stopped => exact Option.some_ne_none _

/-- `true` is returned exactly if everything is accepted. -/
theorem returns_true_iff {length : Nat} {results : List WriteResult} :
    returns (loop length 0 (results.map WriteResult.call)).2 = some true ↔
      length ≤ accepted results := by
  rw [returns_eq_true_iff, status_eq]
  split
  · exact iff_of_true rfl ‹_›
  · split <;> exact iff_of_false nofun ‹_›

/-- `false` is returned exactly if a call fails before everything is accepted. -/
theorem returns_false_iff {length : Nat} {results : List WriteResult} :
    returns (loop length 0 (results.map WriteResult.call)).2 = some false ↔
      accepted results < length ∧ ∃ errno ≠ EINTR, .failed errno ∈ results := by
  rw [returns_eq_false_iff, status_eq, ← stop_mem_call]
  split
  case isTrue all => exact iff_of_false nofun fun failed => Nat.not_lt.mpr all failed.1
  case isFalse not_all =>
    split
    case isTrue stop => exact iff_of_true rfl ⟨Nat.not_le.mp not_all, stop⟩
    case isFalse no_stop => exact iff_of_false nofun fun failed => no_stop failed.2

/-- **`serialWrite` writes the bytes that the calls accept**, from the front of the message, once
and in order. It returns `true` exactly if that is all of the message, and `false` exactly if a call
has failed before. -/
theorem serialWrite_exact {message : List UInt8} (short : message.length ≤ 65535)
    {results : List WriteResult} (possible : PossibleWrites message.length results) :
    let written := serialWrite message (.ofNat message.length) results
    written.port = message.take (accepted results) ∧
      written.port <+: message ∧
      (∀ ok, written.returned = some ok → (ok = true ↔ written.port = message)) ∧
      (written.returned = some true ↔ message.length ≤ accepted results) ∧
      (written.returned = some false ↔
        accepted results < message.length ∧ ∃ errno ≠ EINTR, .failed errno ∈ results) ∧
      (message.length ≤ results.countP (· ≠ .failed EINTR) → written.returned ≠ none) := by
  intro written
  have transfer : written = _ := serialWrite_eq short results
  have port : written.port = message.take (accepted results) := by
    rw [transfer, loop_position possible (Nat.zero_le _), Nat.zero_add, moved_call, Nat.min_comm]
    exact List.take_eq_take_min.symm
  have returned : written.returned = returns _ := congrArg SerialWrite.returned transfer
  have all_iff : written.port = message ↔ message.length ≤ accepted results := by
    rw [port, List.take_eq_self_iff]
  refine ⟨port, port ▸ List.take_prefix .., fun ok is_ok => ?_, ?_, ?_, fun many => ?_⟩
  · rw [all_iff, ← returns_true_iff, ← returned, is_ok, Option.some_inj]
  · rw [returned, returns_true_iff]
  · rw [returned, returns_false_iff]
  · rw [returned]
    apply returns_ne_none
    apply loop_ends possible
    rw [countP_call, Nat.zero_add]
    exact many

/-- The second of three bytes is accepted after an interrupted call, the third one is not. -/
theorem serialWrite_exact_three :
    let written := serialWrite [1, 2, 3] 3 [.wrote 1, .failed EINTR, .wrote 1, .failed 5]
    written.port = [1, 2] ∧ written.returned = some false := by
  have short : ([1, 2, 3] : List UInt8).length ≤ 65535 := by decide
  have possible : PossibleWrites ([1, 2, 3] : List UInt8).length
      [.wrote 1, .failed EINTR, .wrote 1, .failed 5] := by decide
  obtain ⟨port, -, -, -, failed_iff, -⟩ := serialWrite_exact short possible
  exact ⟨port, failed_iff.mpr ⟨by decide, 5, by decide, by decide⟩⟩

end Dbdky.ComUtil
