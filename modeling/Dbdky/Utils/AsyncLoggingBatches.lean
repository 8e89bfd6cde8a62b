import Dbdky.Utils.AsyncLoggingBuffers

/-!
What becomes of the lines that are appended.

A line goes to the current buffer, buffers are queued in `buffers_`, a round swaps them
out as one batch, and the batch is written buffer by buffer; of a batch of more than 25
buffers only the first two are written, behind a notice.

* **`batches_account_for_lines`.** At any moment the appended lines are, in lock order,
  the bytes of all batches swapped out so far and those still in the front end; and what
  `LogFile::append` was handed, with what it is about to be handed, is the report of each
  batch that has come to the size test. A notice states how many buffers of its batch are
  missing. No assertion of the backend ends the run.
-/

namespace Dbdky.AsyncLogging

open Transition

/-! ### Where the bytes are -/

def bytes (buffers : List Buffer) : List UInt8 := buffers.flatMap FixedBuffer.data

/-- What no round has swapped out yet. -/
def unswapped (s : State) : List UInt8 := bytes s.buffers ++ pointed s.currentBuffer

@[simp] theorem bytes_nil : bytes [] = [] := rfl

@[simp] theorem bytes_append (xs ys : List Buffer) : bytes (xs ++ ys) = bytes xs ++ bytes ys := by
  simp [bytes]

@[simp] theorem bytes_cons (b : Buffer) (xs : List Buffer) :
    bytes (b :: xs) = b.data ++ bytes xs := by
  simp [bytes]

/-- A short line fits into the spare buffer, or into a new one. -/
theorem data_append_spare {nextBuffer : Option Buffer} {logline : List UInt8}
    (spare : pointed nextBuffer = []) (short : logline.length < kLargeBuffer) :
    ((nextBuffer.getD .empty).append logline).data = logline := by
  have empty : (nextBuffer.getD .empty).data = [] := by
    cases nextBuffer with
    | none => rfl
    | some b => exact spare
  have room : logline.length < (nextBuffer.getD .empty).avail := by
    simpa [FixedBuffer.avail, FixedBuffer.length, empty] using short
  rw [FixedBuffer.data_append_of_lt room, empty, List.nil_append]

/-- The buffer that is written next. -/
theorem drop_eq_cons {buffers : List Buffer} {i : Nat} {b : Buffer}
    (here : buffers[i]? = some b) : buffers.drop i = b :: buffers.drop (i + 1) := by
  obtain ⟨bound, rfl⟩ := List.getElem?_eq_some_iff.mp here
  exact List.drop_eq_getElem_cons bound

/-- The locked block of a round takes everything out of the front end. -/
theorem Swapped.unswapped {s t : State} (swapped : Swapped s t)
    (owned : ownedEmpty s.newBuffer1 = true) (written : s.buffersToWrite = []) :
    unswapped t = [] ∧ bytes t.buffersToWrite = unswapped s := by
  obtain ⟨⟨b, current, batch⟩, buffers, fresh, -⟩ := swapped
  constructor
  · simp [AsyncLogging.unswapped, buffers, fresh, written, pointed_of_ownedEmpty owned]
  · simp [AsyncLogging.unswapped, current, batch, pointed]

/-! ### Batches -/

/-- A batch that has come to the size test, and what the clock read there. -/
structure Batch where
  time : String
  buffers : List Buffer

/-- The batches that have come to the size test. -/
def tested (s : State) : List Batch := List.zipWith Batch.mk s.times s.batches

/-- What is handed over of a batch. -/
def Batch.report (batch : Batch) : List Handed :=
  if batch.buffers.length > 25 then
    let dropped := batch.buffers.length - 2
    .notice dropped (dropNotice batch.time dropped) ::
      (batch.buffers.take 2).map fun b => .buffer b.data
  else batch.buffers.map fun b => .buffer b.data

/-- The buffers of a batch that are written: all, or the first two. -/
def Batch.kept (batch : Batch) : List Buffer :=
  if batch.buffers.length > 25 then batch.buffers.take 2 else batch.buffers

/-- The bytes of a call of `LogFile::append`, notices aside. -/
def Handed.data : Handed → List UInt8
  | .notice _ _ => []
  | .buffer data => data

theorem Batch.data_report (batch : Batch) :
    batch.report.flatMap Handed.data = bytes batch.kept := by
  have data (buffers : List Buffer) :
      (buffers.map fun b => Handed.buffer b.data).flatMap Handed.data = bytes buffers := by
    rw [List.flatMap_map]
    rfl
  unfold report kept
  split
  · rw [List.flatMap_cons, data]
    rfl
  · exact data _

/-- A notice in what is handed over belongs to a batch that is cut. -/
theorem notice_mem_report {batch : Batch} {dropped : Nat} {text : List UInt8}
    (mem : .notice dropped text ∈ batch.report) :
    25 < batch.buffers.length ∧ dropped = batch.buffers.length - 2 ∧
      text = dropNotice batch.time dropped := by
  unfold Batch.report at mem
  split at mem
  · rename_i tooMany
    rcases List.mem_cons.mp mem with same | mem
    · cases same
      exact ⟨tooMany, rfl, rfl⟩
    · obtain ⟨b, -, ⟨⟩⟩ := List.mem_map.mp mem
  · obtain ⟨b, -, ⟨⟩⟩ := List.mem_map.mp mem

/-- A batch that has not come to the size test yet. -/
def untested (s : State) : List (List Buffer) :=
  match s.pc with
  | .dropExcess => [s.buffersToWrite]
  | _ => []

/-- The buffers of a tested batch that are still to be written. -/
def toWrite (s : State) : List Buffer :=
  match s.pc with
  | .writeBuffers i => s.buffersToWrite.drop i
  | _ => []

/-- The books of a run, given the batches that have come to the size test. -/
structure Accounts (past : List Batch) (s : State) : Prop where
  times : s.times = past.map Batch.time
  batches : s.batches = past.map Batch.buffers ++ untested s
  /-- Each batch is handed over as its report says. -/
  reports : s.output ++ (toWrite s).map (fun b => .buffer b.data) = past.flatMap Batch.report
  /-- Every line is in a batch or in the front end, in lock order. -/
  lines : bytes s.batches.flatten ++ unswapped s = s.appended.flatten

theorem zipWith_mk (past : List Batch) (rest : List (List Buffer)) :
    List.zipWith Batch.mk (past.map Batch.time) (past.map Batch.buffers ++ rest) = past := by
  induction past with
  | nil => rfl
  | cons batch past ih => exact congrArg (batch :: ·) ih

/-- The histories tell which batches these are. -/
theorem Accounts.tested {past : List Batch} {s : State} (accounts : Accounts past s) :
    tested s = past := by
  rw [AsyncLogging.tested, accounts.times, accounts.batches, zipWith_mk]

/-- The condition of the runs: every line is shorter than a buffer. -/
def ShortLines : Guard State Label
  | _, .append logline => logline.length < kLargeBuffer
  | _, _ => True

/-- A step that leaves the batches alone. -/
theorem Accounts.still {past : List Batch} {s t : State} (accounts : Accounts past s)
    (times : t.times = s.times) (batches : t.batches = s.batches) (output : t.output = s.output)
    (waiting : untested t = untested s) (tested : toWrite t = toWrite s)
    (front : unswapped t = unswapped s) (appended : t.appended = s.appended) : Accounts past t :=
  ⟨by rw [times, accounts.times], by rw [batches, waiting, accounts.batches],
    by rw [output, tested, accounts.reports],
    by rw [batches, front, appended, accounts.lines]⟩

theorem Accounts.append {past : List Batch} {s t : State} {logline : List UInt8}
    (accounts : Accounts past s) (times : t.times = s.times) (batches : t.batches = s.batches)
    (output : t.output = s.output) (waiting : untested t = untested s)
    (tested : toWrite t = toWrite s) (front : unswapped t = unswapped s ++ logline)
    (appended : t.appended = s.appended ++ [logline]) : Accounts past t := by
  refine ⟨by rw [times, accounts.times], by rw [batches, waiting, accounts.batches],
    by rw [output, tested, accounts.reports], ?_⟩
  rw [batches, front, appended, List.flatten_append, ← accounts.lines]
  simp

theorem Accounts.swap {past : List Batch} {s t : State} (accounts : Accounts past s)
    (idle : s.pc = .lockBuffers ∨ s.pc = .wait) (owned : ownedEmpty s.newBuffer1 = true)
    (written : s.buffersToWrite = []) (swapped : Swapped s t) : Accounts past t := by
  obtain ⟨front, batch⟩ := swapped.unswapped owned written
  have tested : toWrite s = [] := by rcases idle with pc | pc <;> simp [toWrite, pc]
  have waiting : untested s = [] := by rcases idle with pc | pc <;> simp [untested, pc]
  have tested' : toWrite t = [] := by simp [toWrite, swapped.pc]
  have waiting' : untested t = [t.buffersToWrite] := by simp [untested, swapped.pc]
  constructor
  · rw [swapped.times, accounts.times]
  · rw [swapped.batches, waiting', accounts.batches, waiting, List.append_nil]
  · rw [swapped.output, tested', ← tested, accounts.reports]
  · rw [front, swapped.batches, swapped.appended, ← accounts.lines, List.flatten_append,
      List.flatten_singleton, bytes_append, batch, List.append_nil]

/-- The size test closes the books on a batch. -/
theorem Accounts.test {past : List Batch} {s t : State} (time : String)
    (accounts : Accounts past s) (pc : s.pc = .dropExcess) (pc' : t.pc = .writeBuffers 0)
    (reported : t.output ++ t.buffersToWrite.map (fun b => .buffer b.data) =
      s.output ++ Batch.report ⟨time, s.buffersToWrite⟩)
    (times : t.times = s.times ++ [time]) (batches : t.batches = s.batches)
    (front : unswapped t = unswapped s) (appended : t.appended = s.appended) :
    Accounts (past ++ [⟨time, s.buffersToWrite⟩]) t := by
  have tested : toWrite s = [] := by simp [toWrite, pc]
  have waiting : untested s = [s.buffersToWrite] := by simp [untested, pc]
  have tested' : toWrite t = t.buffersToWrite := by simp [toWrite, pc']
  have waiting' : untested t = [] := by simp [untested, pc']
  constructor
  · rw [times, accounts.times, List.map_append]
    rfl
  · rw [batches, waiting', accounts.batches, waiting, List.map_append, List.append_nil]
    rfl
  · rw [tested', reported, List.flatMap_append, ← accounts.reports, tested]
    simp
  · rw [batches, front, appended, accounts.lines]

theorem step_accounts {past : List Batch} {s t : State} {l : Label} (shape : Shape s)
    (accounts : Accounts past s) (meets : ShortLines s l) (step : step s l = some t) :
    ∃ past', Accounts past' t := by
  cases step_cases step with
  | @appendFits b logline current fits =>
      refine ⟨past, accounts.append rfl rfl rfl rfl rfl ?_ rfl⟩
      simp [unswapped, current, pointed, FixedBuffer.data_append_of_lt fits]
  | @appendFull b logline current full =>
      -- a full buffer is followed by an empty one, into which a short line fits
      refine ⟨past, accounts.append rfl rfl rfl rfl rfl ?_ rfl⟩
      simp [unswapped, current, pointed, data_append_spare shape.spare meets]
  | swapNow pc first _ written _ swap =>
      exact ⟨past, accounts.swap (.inl pc) first written (swapBuffers_spec swap)⟩
  | wakeUp pc swap =>
      obtain ⟨first, -, written⟩ := shape.waiting pc
      exact ⟨past, accounts.swap (.inr pc) first written (swapBuffers_spec swap)⟩
  | @dropExcess time pc tooMany =>
      refine ⟨_, accounts.test time pc rfl ?_ rfl rfl rfl rfl⟩
      simp [Batch.report, tooMany]
  | @keepAll time pc _ small =>
      refine ⟨_, accounts.test time pc rfl ?_ rfl rfl rfl rfl⟩
      simp [Batch.report, Nat.not_lt.mpr small]
  | @writeBuffer i b pc here =>
      have next := drop_eq_cons here
      have waiting : untested s = [] := by simp [untested, pc]
      have batches : s.batches = past.map Batch.buffers ++ [] := waiting ▸ accounts.batches
      refine ⟨past, ⟨accounts.times, batches, ?_, accounts.lines⟩⟩
      rw [← accounts.reports]
      simp [toWrite, pc, next]
  | @allWritten i pc past' =>
      refine ⟨past, accounts.still rfl rfl rfl (by simp [untested, pc]) ?_ rfl rfl⟩
      simp [toWrite, pc, List.drop_of_length_le past']
  | recycle pc done =>
      obtain ⟨first, second, rfl⟩ := recycle_spec done
      exact ⟨past, accounts.still rfl rfl rfl (by simp [untested, pc]) (by simp [toWrite, pc]) rfl
        rfl⟩
  | start owner =>
      have pc := shape.unstarted owner
      exact ⟨past, accounts.still rfl rfl rfl (by simp [untested, pc]) (by simp [toWrite, pc]) rfl
        rfl⟩
  | latchDown _ _ | stop _ | join _ _ => exact ⟨past, accounts.still rfl rfl rfl rfl rfl rfl rfl⟩
  | startWait pc _ _ _ _ | countDown pc _ | enterRound pc _ | exitLoop pc _ =>
      exact ⟨past, accounts.still rfl rfl rfl (by simp [untested, pc]) (by simp [toWrite, pc]) rfl
        rfl⟩

/-- Where the lines are at a moment of a run. -/
structure LinesAccounted (s : State) : Prop where
  /-- The batches swapped out have come to the size test, but for one that has just been. -/
  batches : s.batches = (tested s).map Batch.buffers ++ untested s
  /-- What was handed over and what is about to be is the report of each of them. -/
  reports : s.output ++ (toWrite s).map (fun b => .buffer b.data) =
    (tested s).flatMap Batch.report
  /-- The lines are in the batches and in the front end, in lock order. -/
  lines : bytes s.batches.flatten ++ unswapped s = s.appended.flatten
  data : s.output.flatMap Handed.data ++ bytes (toWrite s) = bytes ((tested s).flatMap Batch.kept)
  /-- A notice states how many buffers of its batch are missing. -/
  notices : ∀ dropped text, .notice dropped text ∈ s.output → ∃ batch ∈ tested s,
    25 < batch.buffers.length ∧ dropped = batch.buffers.length - 2 ∧
      (dropped < 2 ^ 63 → larger dropped <:+ text)

theorem Accounts.linesAccounted {past : List Batch} {s : State} (accounts : Accounts past s) :
    LinesAccounted s := by
  have reports := accounts.reports
  rw [← accounts.tested] at reports
  refine ⟨accounts.tested ▸ accounts.batches, reports, accounts.lines, ?_,
    fun dropped text mem => ?_⟩
  · have data := congrArg (List.flatMap Handed.data) reports
    simpa [List.flatMap_assoc, Batch.data_report, bytes, List.flatMap_map, Handed.data] using data
  · have reported := List.mem_append_left ((toWrite s).map fun b => Handed.buffer b.data) mem
    rw [reports] at reported
    obtain ⟨batch, here, notice⟩ := List.mem_flatMap.mp reported
    obtain ⟨tooMany, rfl, rfl⟩ := notice_mem_report notice
    exact ⟨batch, here, tooMany, rfl, larger_suffix_dropNotice _⟩

/-- The line that is appended. -/
def Label.lines : Label → List (List UInt8)
  | .append logline => [logline]
  | _ => []

/-- Each call of `append` appends its line, and nothing else does. -/
theorem step_appended {s t : State} {l : Label} (step : step s l = some t) :
    t.appended = s.appended ++ l.lines := by
  cases step_cases step with
  | swapNow _ _ _ _ _ swap => simpa [Label.lines] using (swapBuffers_spec swap).appended
  | wakeUp _ swap => simpa [Label.lines] using (swapBuffers_spec swap).appended
  | recycle _ done =>
      obtain ⟨first, second, rfl⟩ := recycle_spec done
      simp [Label.lines]
  | _ => simp [Label.lines]

/-- **Log data is conserved and ordered.** -/
theorem batches_account_for_lines {s : State} (reach : machine.ReachableWhere ShortLines s) :
    LinesAccounted s ∧
      (∀ time l, s.pc.next time = some l → ∃ t, machine.step s l = some t) ∧
      (∀ logline, ∃ t, machine.step s (.append logline) = some t) ∧
      ∀ l t, machine.step s l = some t → t.appended = s.appended ++ l.lines := by
  obtain ⟨-, sound, past, accounts⟩ := reach.invariant
    (I := fun s => Shape s ∧ Sound s ∧ ∃ past, Accounts past s)
    (fun _ initial => by subst initial; exact ⟨new_shape, new_sound, [], rfl, rfl, rfl, rfl⟩)
    fun _ _ _ ⟨shape, sound, _, accounts⟩ meets step =>
      ⟨step_shape shape step, step_sound shape sound step,
        step_accounts shape accounts meets step⟩
  exact ⟨accounts.linesAccounted, fun _ _ => sound.proceeds, sound.append,
    fun _ _ => step_appended⟩

/-- A batch of 27 buffers, each with one line: after the size test a notice of 25 buffers has been
handed over, and two buffers are still to be written. -/
theorem batches_account_for_lines_dropped : ∃ s : State,
    s.batches.map List.length = [27] ∧ s.output = [.notice 25 (dropNotice "now" 25)] ∧
      (toWrite s).length = 2 ∧ LinesAccounted s := by
  obtain ⟨line, long⟩ : ∃ line : List UInt8, line.length = kLargeBuffer - 1 :=
    ⟨List.replicate (kLargeBuffer - 1) 0, List.length_replicate ..⟩
  have short : line.length < kLargeBuffer := by
    rw [long]
    decide
  have room : line.length < (FixedBuffer.empty : Buffer).avail := short
  let full : Buffer := FixedBuffer.empty.append line
  have no_room : ¬ full.avail > line.length := by
    rw [FixedBuffer.avail, FixedBuffer.length, FixedBuffer.data_append_of_lt room,
      List.length_append, long]
    decide
  -- the backend waits while the lines are appended
  let waiting (currentBuffer : Buffer) (nextBuffer : Option Buffer) (n lines : Nat) : State :=
    { State.new with
      running := true, owner := .waitLatch, latch := 0, pc := .wait,
      newBuffer1 := some .empty, newBuffer2 := some .empty,
      currentBuffer := some currentBuffer, nextBuffer, buffers := List.replicate n full,
      appended := List.replicate lines line }
  have before : machine.ReachableWhere ShortLines (waiting .empty (some .empty) 0 0) :=
    ⟨.new, rfl, Machine.leadsWhere_of_run [.start, .countDown, .whileRunning, .lockBuffers]
      (by simp [Machine.Meets, ShortLines]) rfl⟩
  have queued (nextBuffer : Option Buffer) (fresh : nextBuffer.getD .empty = .empty) (n : Nat) :
      machine.step (waiting full nextBuffer n (n + 1)) (.append line) =
        some (waiting full none (n + 1) (n + 2)) := by
    refine (if_neg no_room).trans ?_
    dsimp only [waiting]
    rw [fresh, ← List.replicate_succ', ← List.replicate_succ']
  have many (n : Nat) : machine.ReachableWhere ShortLines (waiting full none (n + 1) (n + 2)) := by
    induction n with
    | zero =>
        have first : machine.step (waiting .empty (some .empty) 0 0) (.append line) =
            some (waiting full (some .empty) 0 1) := if_pos room
        have one := before.tail (l := Label.append line) short first
        exact one.tail (l := .append line) short (queued (some .empty) rfl 0)
    | succ n ih => exact ih.tail (l := .append line) short (queued none rfl (n + 1))
  have account {s : State} (run : machine.run _ [.wakeUp, .dropExcess "now"] = some s) :=
    batches_account_for_lines ((many 25).trans
      (Machine.leadsWhere_of_run _ (by simp [Machine.Meets, ShortLines]) run))
  exact ⟨_, rfl, rfl, rfl, (account rfl).1⟩

end Dbdky.AsyncLogging
