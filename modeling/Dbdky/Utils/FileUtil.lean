import Dbdky.Memory.Block
import Dbdky.Port.Buffer
import Dbdky.Transfer.Pieces

/-!
`FileUtil` (`src/utils/FileUtil.{h,cpp}`): the beginning of a file is read into a string.

What the system calls return is an input. The reads are a transfer whose position is the
length of what has been read.

* **`readFile_bounded`.** Whatever pieces the file comes in, the string is what the reads have
  given, and at the end it is the beginning of the file up to `maxSize`, unless a read has
  failed.
-/

namespace Dbdky

namespace FileUtil

open Port (Errno)
open Transfer

def EISDIR : Errno := 21

/-- `S_ISREG` and `S_ISDIR` of `st_mode` -/
inductive FileType where
  | regular
  | directory
  | other
deriving DecidableEq, Repr

structure Stat where
  stMode : FileType
  stSize : Int
  stMtime : Int
  stCtime : Int
deriving DecidableEq, Repr

/-- What `::read` returns, with `errno` if that is -1. -/
inductive ReadResult where
  | got (n : Nat)
  | failed (errno : Errno)
deriving DecidableEq, Repr

/-- What the calls return for a file. -/
structure System where
  /-- `::open` -/
  opened : Except Errno Int
  fstat : Except Errno Stat
  reads : List ReadResult
  data : List UInt8

/-- `int64_t*` parameters: what they point to, and `none` for `NULL`. -/
structure Wanted where
  fileSize : Option Int
  modifyTime : Option Int
  createTime : Option Int
deriving DecidableEq, Repr

structure SmallFile where
  fd : Int
  err : Errno
  buf : List UInt8
deriving DecidableEq, Repr

def kBufferSize : Nat := 65536

/-- `SmallFile(filename)`, where `memory` is what `buf_` holds before -/
def SmallFile.new (opened : Except Errno Int) (memory : Vector UInt8 kBufferSize) : SmallFile :=
  match opened with
  | .ok fd => ⟨fd, 0, memory.toList.set 0 0⟩
  | .error errno => ⟨-1, errno, memory.toList.set 0 0⟩

/-- What the loop of `readToString` works on. -/
structure Reading where
  buf : List UInt8
  content : List UInt8
  /-- The position in the file. -/
  offset : Nat
  /-- History: how many bytes each `::read` has been asked for. -/
  requests : List Nat
  /-- History: the `errno` of a read that has failed. -/
  failure : Option Errno
deriving DecidableEq, Repr

/-- `n` bytes are read into `buf_` and appended to `*content`. -/
def Reading.got (s : Reading) (data : List UInt8) (n : Nat) : Reading :=
  let buf := (data.drop s.offset).take n ++ s.buf.drop n
  { s with buf, content := s.content ++ buf.take n, offset := s.offset + n }

/-- The `while` loop, and what is returned behind it; `none` while a read is awaited. -/
def readLoop (data : List UInt8) (maxSize : Nat) (err : Errno) (s : Reading) :
    List ReadResult → Reading × Option Errno
  | [] => (s, if s.content.length < maxSize then none else some err)
  | result :: results =>
      if s.content.length < maxSize then
        let toRead := min (maxSize - s.content.length) kBufferSize
        let s := { s with requests := s.requests ++ [toRead] }
        match result with
        | .got n =>
            if n > 0 then readLoop data maxSize err (s.got data n) results
            else (s, some err)
        | .failed errno => ({ s with failure := some errno }, some errno)
      else (s, some err)

/-- `if (fileSize)`: the new `err`, and what is stored through the pointers. -/
def statFile (fstat : Except Errno Stat) (err : Errno) (wanted : Wanted) : Errno × Wanted :=
  if wanted.fileSize.isSome then
    match fstat with
    | .ok stat =>
        (if stat.stMode = .directory then EISDIR else err,
          { fileSize := if stat.stMode = .regular then some stat.stSize else wanted.fileSize
            modifyTime := wanted.modifyTime.map fun _ => stat.stMtime
            createTime := wanted.createTime.map fun _ => stat.stCtime })
    | .error errno => (errno, wanted)
  else (err, wanted)

/-- `readToString(maxSize, content, ..)` of a file that has just been opened -/
def readToString (f : SmallFile) (sys : System) (maxSize : Int) (content : List UInt8)
    (wanted : Wanted) : Reading × Option Errno × Wanted :=
  if f.fd ≥ 0 then
    let (err, wanted) := statFile sys.fstat f.err wanted
    let (reading, returned) := readLoop sys.data (SizeT.ofInt maxSize) err
      ⟨f.buf, [], 0, [], none⟩ sys.reads
    (reading, returned, wanted)
  else (⟨f.buf, content, 0, [], none⟩, some f.err, wanted)

/-- `readFile`; the destructor of the `SmallFile` closes the file. -/
def readFile (sys : System) (memory : Vector UInt8 kBufferSize) (maxSize : Int)
    (content : List UInt8) (wanted : Wanted) : Reading × Option Errno × Wanted :=
  readToString (SmallFile.new sys.opened memory) sys maxSize content wanted

/-! ### The loop as a transfer -/

def ReadResult.call : ReadResult → Call
  | .got n => if n = 0 then .stop else .moved n
  | .failed _ => .stop

/-- A read gives at most what it has been asked for, and nothing exactly at the end of the file. -/
def PossibleReads (data : List UInt8) (maxSize : Nat) : Nat → List ReadResult → Prop
  | offset, .got n :: results =>
      offset < maxSize →
        n ≤ min (maxSize - offset) kBufferSize ∧ offset + n ≤ data.length ∧
          (n = 0 → offset = data.length) ∧ PossibleReads data maxSize (offset + n) results
  | _, _ => True

def ReadResult.bytes : ReadResult → Nat
  | .got n => n
  | .failed _ => 0

/-- The bytes that the reads give before the first one that gives none. -/
def bytesRead : List ReadResult → Nat
  | [] => 0
  | result :: results => if result.bytes = 0 then 0 else result.bytes + bytesRead results

/-- What the reads from `offset` on are asked for. -/
def toReads (maxSize : Nat) : Nat → List ReadResult → List Nat
  | _, [] => []
  | offset, result :: results =>
      if offset < maxSize then
        min (maxSize - offset) kBufferSize ::
          if result.bytes = 0 then [] else toReads maxSize (offset + result.bytes) results
      else []

/-- What the loop leaves when the transfer has come to `offset`. -/
structure Reads (data : List UInt8) (err : Errno) (reads : List ReadResult) (asked : List Nat)
    (s : Reading) (returned : Option Errno) (offset : Nat) (status : Status) : Prop where
  buf : s.buf.length = kBufferSize
  content : s.content = data.take offset
  offset_eq : s.offset = offset
  inside : offset ≤ data.length
  requests : s.requests = asked
  running : status = .running → s.failure = none ∧ returned = none
  complete : status = .complete → s.failure = none ∧ returned = some err
  stopped : status = .stopped →
    reads.find? (·.bytes = 0) = some (.got 0) ∧ s.failure = none ∧ returned = some err ∧
        offset = data.length ∨
      ∃ errno, reads.find? (·.bytes = 0) = some (.failed errno) ∧ s.failure = some errno ∧
        returned = some errno

section Loop

variable {data : List UInt8} {maxSize : Nat} {err : Errno} {s : Reading} {offset : Nat}
  {results : List ReadResult}

theorem countP_call (results : List ReadResult) :
    (results.map ReadResult.call).countP (· ≠ .again) = results.length := by
  rw [List.countP_map, List.countP_eq_length]
  intro result _
  cases result with
  | got n => by_cases nothing : n = 0 <;> simp [ReadResult.call, nothing]
  | failed errno => rfl

theorem possible_of_possibleReads (possible : PossibleReads data maxSize offset results) :
    Possible maxSize offset (results.map ReadResult.call) := by
  induction results generalizing offset with
  | nil => trivial
  | cons result results ih =>
      intro left
      cases result with
      | failed errno => trivial
      | got n =>
          obtain ⟨bounded, -, -, possible⟩ := possible left
          by_cases nothing : n = 0
          · rw [ReadResult.call, if_pos nothing]
            trivial
          · rw [ReadResult.call, if_neg nothing]
            exact ⟨Nat.pos_of_ne_zero nothing, by omega, ih possible⟩

/-- A read moves its bytes through `buf_`. -/
theorem got_spec {n : Nat} (buf : s.buf.length = kBufferSize)
    (content : s.content = data.take offset) (at_offset : s.offset = offset)
    (bounded : n ≤ kBufferSize) (inside : offset + n ≤ data.length) :
    (s.got data n).buf.length = kBufferSize ∧
      (s.got data n).content = data.take (offset + n) ∧ (s.got data n).offset = offset + n := by
  have bytes : ((data.drop offset).take n).length = n := by
    rw [List.length_take, List.length_drop]
    omega
  refine ⟨?_, ?_, congrArg (· + n) at_offset⟩
  · rw [Reading.got, at_offset, List.length_append, bytes, List.length_drop, buf]
    omega
  · rw [Reading.got, at_offset, content, List.take_append_of_le_length (Nat.le_of_eq bytes.symm),
      List.take_of_length_le (Nat.le_of_eq bytes), List.take_add]

theorem toReads_of_le (reached : maxSize ≤ offset) : toReads maxSize offset results = [] := by
  cases results with
  | nil => rfl
  | cons result results => exact if_neg (Nat.not_lt.mpr reached)

theorem toReads_ended (result : ReadResult) (left : offset < maxSize) (nothing : result.bytes = 0) :
    toReads maxSize offset (result :: results) = [min (maxSize - offset) kBufferSize] := by
  rw [toReads, if_pos left, if_pos nothing]

theorem toReads_got {n : Nat} (left : offset < maxSize) (something : n ≠ 0) :
    toReads maxSize offset (.got n :: results) =
      min (maxSize - offset) kBufferSize :: toReads maxSize (offset + n) results := by
  rw [toReads, if_pos left]
  exact congrArg _ (if_neg something)

theorem readLoop_spec (possible : PossibleReads data maxSize offset results)
    (buf : s.buf.length = kBufferSize) (content : s.content = data.take offset)
    (at_offset : s.offset = offset) (inside : offset ≤ data.length)
    (no_failure : s.failure = none) :
    Reads data err results (s.requests ++ toReads maxSize offset results)
      (readLoop data maxSize err s results).1 (readLoop data maxSize err s results).2
      (loop maxSize offset (results.map ReadResult.call)).1
      (loop maxSize offset (results.map ReadResult.call)).2 := by
  have length : s.content.length = offset := by
    rw [content, List.length_take_of_le inside]
  induction results generalizing s offset with
  | nil =>
      rw [toReads, List.append_nil]
      rcases Nat.lt_or_ge offset maxSize with left | reached
      · rw [List.map_nil, loop_nil left, readLoop, length, if_pos left]
        exact ⟨buf, content, at_offset, inside, rfl, fun _ => ⟨no_failure, rfl⟩, nofun, nofun⟩
      · rw [List.map_nil, loop_of_le reached, readLoop, length, if_neg (Nat.not_lt.mpr reached)]
        exact ⟨buf, content, at_offset, inside, rfl, nofun, fun _ => ⟨no_failure, rfl⟩, nofun⟩
  | cons result results ih =>
      rcases Nat.lt_or_ge offset maxSize with left | reached
      · cases result with
        | failed errno =>
            rw [List.map_cons, ReadResult.call, loop_stop left, readLoop, length, if_pos left,
              toReads_ended _ left rfl]
            exact ⟨buf, content, at_offset, inside, rfl, nofun, nofun,
              fun _ => .inr ⟨errno, rfl, rfl, rfl⟩⟩
        | got n =>
            obtain ⟨bounded, within, at_end, possible⟩ := possible left
            by_cases nothing : n = 0
            · have stop : ReadResult.call (.got n) = .stop := if_pos nothing
              have no_more : ¬ n > 0 := Nat.not_lt.mpr (Nat.le_of_eq nothing)
              have ends : (ReadResult.got n :: results).find? (·.bytes = 0) = some (.got 0) := by
                rw [nothing]
                rfl
              rw [List.map_cons, stop, loop_stop left, readLoop, length, if_pos left,
                toReads_ended (.got n) left nothing]
              dsimp only
              rw [if_neg no_more]
              exact ⟨buf, content, at_offset, inside, rfl, nofun, nofun,
                fun _ => .inl ⟨ends, no_failure, rfl, at_end nothing⟩⟩
            · have moved : ReadResult.call (.got n) = .moved n := if_neg nothing
              have more : n > 0 := Nat.pos_of_ne_zero nothing
              have passed : (ReadResult.got n :: results).find? (·.bytes = 0) =
                  results.find? (·.bytes = 0) :=
                List.find?_cons_of_neg (mt of_decide_eq_true nothing)
              rw [List.map_cons, moved, loop_moved left, readLoop, length, if_pos left,
                toReads_got left nothing, List.append_cons]
              dsimp only
              rw [if_pos more]
              obtain ⟨buf', content', at_offset'⟩ := got_spec
                (s := { s with requests := s.requests ++ [min (maxSize - offset) kBufferSize] })
                buf content at_offset (Nat.le_trans bounded (Nat.min_le_right _ _)) within
              have rest := ih possible buf' content' at_offset' within no_failure
                (by rw [content', List.length_take_of_le within])
              exact { rest with stopped := passed ▸ rest.stopped }
      · have not_left := Nat.not_lt.mpr reached
        rw [loop_of_le reached, toReads_of_le reached, List.append_nil]
        cases result with
        | got n | failed errno =>
            rw [readLoop, length, if_neg not_left]
            exact ⟨buf, content, at_offset, inside, rfl, nofun, fun _ => ⟨no_failure, rfl⟩, nofun⟩

theorem moved_call (results : List ReadResult) :
    moved (results.map ReadResult.call) = bytesRead results := by
  induction results with
  | nil => rfl
  | cons result results ih =>
      cases result with
      | failed errno => rfl
      | got n =>
          by_cases nothing : n = 0
          · rw [List.map_cons, ReadResult.call, if_pos nothing, moved]
            exact (if_pos nothing).symm
          · rw [List.map_cons, ReadResult.call, if_neg nothing, moved, ih]
            exact (if_neg nothing).symm

theorem stop_mem_call : .stop ∈ results.map ReadResult.call ↔ ∃ r ∈ results, r.bytes = 0 := by
  rw [List.mem_map]
  refine exists_congr fun result => and_congr_right fun _ => ?_
  cases result with
  | failed errno => exact iff_of_true rfl rfl
  | got n =>
      by_cases nothing : n = 0
      · exact iff_of_true (if_pos nothing) nothing
      · refine iff_of_false (fun stop => ?_) nothing
        rw [ReadResult.call, if_neg nothing] at stop
        cases stop

/-- A read is made as long as the earlier ones have given something, and not up to the limit. -/
theorem getElem?_toReads (k : Nat) :
    (toReads maxSize offset results)[k]? =
      if k < results.length ∧ offset + bytesRead (results.take k) < maxSize ∧
          ∀ result ∈ results.take k, result.bytes ≠ 0 then
        some (min (maxSize - (offset + bytesRead (results.take k))) kBufferSize)
      else none := by
  induction results generalizing offset k with
  | nil => exact (if_neg fun made => Nat.not_lt_zero _ made.1).symm
  | cons result results ih =>
      rcases Nat.lt_or_ge offset maxSize with left | reached
      · cases k with
        | zero =>
            have made : 0 < (result :: results).length ∧ offset < maxSize ∧
                ∀ result ∈ ([] : List ReadResult), result.bytes ≠ 0 :=
              ⟨Nat.succ_pos _, left, fun _ => nofun⟩
            rw [toReads, if_pos left, List.take_zero, bytesRead, Nat.add_zero, if_pos made,
              List.getElem?_cons_zero]
        | succ k =>
            rw [toReads, if_pos left, List.getElem?_cons_succ, List.take_succ_cons, bytesRead]
            by_cases nothing : result.bytes = 0
            · rw [if_pos nothing, List.getElem?_nil, if_neg]
              exact fun made => made.2.2 result List.mem_cons_self nothing
            · rw [if_neg nothing, if_neg nothing, ih]
              simp only [Nat.add_assoc, List.forall_mem_cons, ne_eq, nothing, not_false_eq_true,
                true_and, List.length_cons, Nat.add_lt_add_iff_right]
      · rw [toReads_of_le reached, List.getElem?_nil, if_neg]
        rintro ⟨-, below, -⟩
        exact Nat.not_le.mpr below (Nat.le_trans reached (Nat.le_add_right ..))

theorem mem_toReads_le {toRead : Nat} (mem : toRead ∈ toReads maxSize offset results) :
    toRead ≤ kBufferSize := by
  obtain ⟨k, asked⟩ := List.mem_iff_getElem?.mp mem
  rw [getElem?_toReads] at asked
  split at asked
  · cases asked
    exact Nat.min_le_right _ _
  · cases asked

end Loop

theorem statFile_regular {fstat : Except Errno Stat} {wanted : Wanted} (err : Errno)
    (regular : wanted.fileSize.isSome → ∃ stat, fstat = .ok stat ∧ stat.stMode = .regular) :
    (statFile fstat err wanted).1 = err := by
  by_cases asked : wanted.fileSize.isSome
  · obtain ⟨stat, rfl, is_regular⟩ := regular asked
    have not_directory : stat.stMode ≠ .directory := fun directory => by
      rw [is_regular] at directory
      cases directory
    rw [statFile, if_pos asked]
    exact if_neg not_directory
  · exact congrArg Prod.fst (if_neg asked)

/-- A file that has been opened is read by the loop alone, whatever `fstat` is asked for. -/
theorem readFile_of_opened {sys : System} {fd : Int} {wanted : Wanted}
    (memory : Vector UInt8 kBufferSize) (maxSize : Int) (content : List UInt8)
    (opened : sys.opened = .ok fd) (descriptor : 0 ≤ fd)
    (regular : wanted.fileSize.isSome → ∃ stat, sys.fstat = .ok stat ∧ stat.stMode = .regular) :
    readFile sys memory maxSize content wanted =
      let out := readLoop sys.data (SizeT.ofInt maxSize) 0 ⟨memory.toList.set 0 0, [], 0, [], none⟩
        sys.reads
      (out.1, out.2, (statFile sys.fstat 0 wanted).2) := by
  have file : SmallFile.new sys.opened memory = ⟨fd, 0, memory.toList.set 0 0⟩ := by
    rw [opened]
    rfl
  rw [readFile, file, readToString, if_pos descriptor]
  dsimp only
  rw [statFile_regular 0 regular]

/-- What `readFile` leaves, by the results of the reads. -/
structure FileRead (data : List UInt8) (maxSize : Nat) (reads : List ReadResult)
    (reading : Reading) (returned : Option Errno) : Prop where
  /-- The string is what the reads have given, in order. -/
  content : reading.content = data.take (min maxSize (bytesRead reads))
  length : reading.content.length = min maxSize (bytesRead reads)
  offset : reading.offset = reading.content.length
  /-- Which reads are made, and what they are asked for. -/
  requests : ∀ k, reading.requests[k]? =
    if k < reads.length ∧ bytesRead (reads.take k) < maxSize ∧
        ∀ result ∈ reads.take k, result.bytes ≠ 0 then
      some (min (maxSize - bytesRead (reads.take k)) kBufferSize)
    else none
  within : ∀ toRead ∈ reading.requests, toRead ≤ reading.buf.length
  /-- A read fails exactly if it is the first one to give nothing, below the limit. -/
  failure : ∀ errno, reading.failure = some errno ↔
    bytesRead reads < maxSize ∧ reads.find? (·.bytes = 0) = some (.failed errno)
  awaited : returned = none ↔ bytesRead reads < maxSize ∧ ∀ result ∈ reads, result.bytes ≠ 0
  ends : maxSize ≤ reads.length → returned ≠ none
  all : ∀ err, returned = some err → reading.failure = none →
    err = 0 ∧ reading.content = data.take maxSize
  failed : ∀ err errno, returned = some err → reading.failure = some errno → err = errno

section FileRead

variable {data : List UInt8} {maxSize : Nat} {err : Errno} {s : Reading} {asked : List Nat}
  {reads : List ReadResult} {returned : Option Errno} {offset : Nat}

theorem status_eq (maxSize : Nat) (reads : List ReadResult) :
    (loop maxSize 0 (reads.map ReadResult.call)).2 =
      if maxSize ≤ bytesRead reads then .complete
      else if .stop ∈ reads.map ReadResult.call then .stopped else .running := by
  rw [loop_status, Nat.zero_add, moved_call]

/-- How the loop has ended, by the results of the reads. -/
theorem Reads.cases (result : Reads data err reads asked s returned offset
      (loop maxSize 0 (reads.map ReadResult.call)).2) :
    (maxSize ≤ bytesRead reads ∧ s.failure = none ∧ returned = some err) ∨
    (bytesRead reads < maxSize ∧ reads.find? (·.bytes = 0) = some (.got 0) ∧ s.failure = none ∧
      returned = some err ∧ offset = data.length) ∨
    (∃ errno, bytesRead reads < maxSize ∧ reads.find? (·.bytes = 0) = some (.failed errno) ∧
      s.failure = some errno ∧ returned = some errno) ∨
    (bytesRead reads < maxSize ∧ reads.find? (·.bytes = 0) = none ∧ s.failure = none ∧
      returned = none) := by
  by_cases complete : maxSize ≤ bytesRead reads
  · have status := (status_eq maxSize reads).trans (if_pos complete)
    exact .inl ⟨complete, result.complete status⟩
  · have below := Nat.not_le.mp complete
    have status := (status_eq maxSize reads).trans (if_neg complete)
    by_cases stop : .stop ∈ reads.map ReadResult.call
    · rw [if_pos stop] at status
      rcases result.stopped status with ended | ⟨errno, failed⟩
      · exact .inr (.inl ⟨below, ended⟩)
      · exact .inr (.inr (.inl ⟨errno, below, failed⟩))
    · rw [if_neg stop] at status
      have going : reads.find? (·.bytes = 0) = none := by
        rw [List.find?_eq_none]
        exact fun r mem nothing => stop (stop_mem_call.mpr ⟨r, mem, of_decide_eq_true nothing⟩)
      exact .inr (.inr (.inr ⟨below, going, result.running status⟩))

theorem Reads.returned_ne_none {status : Status}
    (result : Reads data err reads asked s returned offset status) (ended : status ≠ .running) :
    returned ≠ none := by
  cases status with
  | running => exact absurd rfl ended
  | complete =>
      rw [(result.complete rfl).2]
      exact Option.some_ne_none _
  | stopped =>
      rcases result.stopped rfl with ⟨-, -, is_err, -⟩ | ⟨errno, -, -, is_errno⟩
      · rw [is_err]
        exact Option.some_ne_none _
      · rw [is_errno]
        exact Option.some_ne_none _

theorem Reads.failure_iff (result : Reads data err reads asked s returned offset
      (loop maxSize 0 (reads.map ReadResult.call)).2) (errno : Errno) :
    s.failure = some errno ↔
      bytesRead reads < maxSize ∧ reads.find? (·.bytes = 0) = some (.failed errno) := by
  rcases result.cases with
    ⟨complete, no_failure, -⟩ | ⟨-, ended, no_failure, -⟩ | ⟨errno', below, ended, failure, -⟩ |
      ⟨-, going, no_failure, -⟩
  · rw [no_failure]
    exact iff_of_false nofun fun failed => Nat.not_le.mpr failed.1 complete
  · rw [no_failure, ended]
    exact iff_of_false nofun fun failed => nomatch failed.2
  · rw [failure, ended, and_iff_right below, Option.some_inj, Option.some_inj,
      ReadResult.failed.injEq]
  · rw [no_failure, going]
    exact iff_of_false nofun fun failed => nomatch failed.2

theorem Reads.awaited_iff (result : Reads data err reads asked s returned offset
      (loop maxSize 0 (reads.map ReadResult.call)).2) :
    returned = none ↔ bytesRead reads < maxSize ∧ ∀ result ∈ reads, result.bytes ≠ 0 := by
  have going_iff : (∀ result ∈ reads, result.bytes ≠ 0) ↔ reads.find? (·.bytes = 0) = none := by
    simp only [List.find?_eq_none, decide_eq_true_eq, ne_eq]
  rw [going_iff]
  rcases result.cases with
    ⟨complete, -, is_err⟩ | ⟨-, ended, -, is_err, -⟩ | ⟨errno, -, ended, -, is_errno⟩ |
      ⟨below, going, -, nothing⟩
  · rw [is_err]
    exact iff_of_false nofun fun awaited => Nat.not_le.mpr awaited.1 complete
  · rw [is_err, ended]
    exact iff_of_false nofun fun awaited => nomatch awaited.2
  · rw [is_errno, ended]
    exact iff_of_false nofun fun awaited => nomatch awaited.2
  · exact iff_of_true nothing ⟨below, going⟩

/-- Without a failed read the string ends at the limit or at the end of the file. -/
theorem Reads.all (result : Reads data err reads asked s returned (min maxSize (bytesRead reads))
      (loop maxSize 0 (reads.map ReadResult.call)).2) {errno : Errno}
    (is_errno : returned = some errno) (no_failure : s.failure = none) :
    errno = err ∧ s.content = data.take maxSize := by
  rw [result.content]
  rcases result.cases with
    ⟨complete, -, is_err⟩ | ⟨-, -, -, is_err, at_end⟩ | ⟨errno', -, -, failure, -⟩ |
      ⟨-, -, -, nothing⟩
  · refine ⟨Option.some.inj (is_errno.symm.trans is_err), ?_⟩
    rw [Nat.min_eq_left complete]
  · refine ⟨Option.some.inj (is_errno.symm.trans is_err), ?_⟩
    have short : data.length ≤ maxSize := at_end ▸ Nat.min_le_left ..
    rw [at_end, List.take_length, List.take_of_length_le short]
  · rw [no_failure] at failure
    cases failure
  · rw [nothing] at is_errno
    cases is_errno

theorem Reads.failed (result : Reads data err reads asked s returned offset
      (loop maxSize 0 (reads.map ReadResult.call)).2) {errno errno' : Errno}
    (is_errno : returned = some errno) (failure : s.failure = some errno') : errno = errno' := by
  rcases result.cases with
    ⟨-, no_failure, -⟩ | ⟨-, -, no_failure, -⟩ | ⟨errno'', -, -, is_failure, is_errno'⟩ |
      ⟨-, -, no_failure, -⟩
  · cases no_failure.symm.trans failure
  · cases no_failure.symm.trans failure
  · rw [Option.some.inj (is_errno.symm.trans is_errno'),
      Option.some.inj (failure.symm.trans is_failure)]
  · cases no_failure.symm.trans failure

theorem Reads.fileRead (result : Reads data 0 reads (toReads maxSize 0 reads) s returned
      (min maxSize (bytesRead reads)) (loop maxSize 0 (reads.map ReadResult.call)).2)
    (ends : maxSize ≤ reads.length → returned ≠ none) :
    FileRead data maxSize reads s returned := by
  have length : s.content.length = min maxSize (bytesRead reads) := by
    rw [result.content, List.length_take_of_le result.inside]
  exact {
    content := result.content
    length := length
    offset := result.offset_eq.trans length.symm
    requests := fun k => by rw [result.requests, getElem?_toReads, Nat.zero_add]
    within := fun toRead mem => by
      rw [result.requests] at mem
      rw [result.buf]
      exact mem_toReads_le mem
    failure := result.failure_iff
    awaited := result.awaited_iff
    ends := ends
    all := fun _ => result.all
    failed := fun _ _ => result.failed }

end FileRead

/-- **`readFile` reads the beginning of the file**, and no read is asked for more than `buf_` holds.
The string is what the reads have given. At the end that is the first `maxSize` bytes of the file,
or a read has failed, and its `errno` is returned. -/
theorem readFile_bounded {sys : System} {maxSize fd : Int} {wanted : Wanted}
    (memory : Vector UInt8 kBufferSize) (content : List UInt8)
    (opened : sys.opened = .ok fd) (descriptor : 0 ≤ fd)
    (regular : wanted.fileSize.isSome → ∃ stat, sys.fstat = .ok stat ∧ stat.stMode = .regular)
    (nonneg : 0 ≤ maxSize) (small : maxSize ≤ 2147483647)
    (possible : PossibleReads sys.data maxSize.toNat 0 sys.reads) :
    let (reading, returned, _) := readFile sys memory maxSize content wanted
    FileRead sys.data maxSize.toNat sys.reads reading returned := by
  have toNat : SizeT.ofInt maxSize = maxSize.toNat := SizeT.ofInt_of_nonneg nonneg (by omega)
  rw [readFile_of_opened memory maxSize content opened descriptor regular, toNat]
  dsimp only
  have transfer := possible_of_possibleReads possible
  have reads : Reads sys.data 0 sys.reads _ _ _ _ _ := readLoop_spec
    (s := ⟨memory.toList.set 0 0, [], 0, [], none⟩) possible
    ((List.length_set ..).trans memory.length_toList) rfl rfl (Nat.zero_le _) rfl
  rw [loop_position transfer (Nat.zero_le _), Nat.zero_add, moved_call] at reads
  refine reads.fileRead fun many => reads.returned_ne_none (loop_ends transfer ?_)
  rw [countP_call, Nat.zero_add]
  exact many

/-- The first of three bytes is read, and then a read fails. -/
theorem readFile_bounded_failed :
    let (reading, returned, _) := readFile ⟨.ok 3, .error 0, [.got 1, .failed 5], [7, 8, 9]⟩
      (.replicate kBufferSize 0) 2 [] ⟨none, none, none⟩
    reading.content = [7] ∧ reading.failure = some 5 ∧ returned ≠ none := by
  let sys : System := ⟨.ok 3, .error 0, [.got 1, .failed 5], [7, 8, 9]⟩
  have opened : sys.opened = .ok 3 := rfl
  have nothing_asked : (Wanted.mk none none none).fileSize.isSome →
      ∃ stat, sys.fstat = .ok stat ∧ stat.stMode = .regular :=
    fun asked => absurd asked (by decide)
  have possible : PossibleReads sys.data (Int.toNat 2) 0 sys.reads := fun _ =>
    ⟨by decide, by decide, fun empty => absurd empty (by decide), trivial⟩
  have read := readFile_bounded (.replicate kBufferSize 0) [] opened (by decide) nothing_asked
    (by decide) (by decide) possible
  exact ⟨read.content, (read.failure 5).mpr ⟨by decide, rfl⟩, read.ends (by decide)⟩

end FileUtil

end Dbdky
