import Dbdky.Utils.AsyncLoggingStop
import Dbdky.Utils.LogFileDirectory

/-!
`AsyncLogging` with its `LogFile` (`src/utils/AsyncLogging.cpp`, `src/utils/LogFile.cpp`).

`threadFunc` constructs `output` after the countdown of the latch, calls `append` for each
buffer of a batch and for a notice, and `flush` at the end of a round and of the thread. The
statements are those of `AsyncLogging`, each together with its call of `output`.

* **`lines_in_files`.** In the order of their names the files hold what the batches swapped out
  report; if no batch is cut, they hold the appended lines in lock order, up to the bytes that
  are in a batch or still in the front end.
-/

namespace Dbdky.AsyncLogging

open Transition

/-- A call of a member function of `output`. -/
inductive Call where
  /-- `LogFile output(basename_, rollSize_, false)` -/
  | construct
  | append (logline : Handed)
  | flush
deriving DecidableEq, Repr

/-- The call that the backend makes with this step. -/
def call (s : State) : Label → Option Call
  | .countDown => some .construct
  -- the `flush()` behind the loop
  | .whileRunning => if s.running then none else some .flush
  | .dropExcess time =>
      if s.buffersToWrite.length > 25 then
        let dropped := s.buffersToWrite.length - 2
        some (.append (.notice dropped (dropNotice time dropped)))
      else none
  | .writeBuffer =>
      match s.pc with
      | .writeBuffers i => s.buffersToWrite[i]?.map fun b => .append (.buffer b.data)
      | _ => none
  | .recycle => some .flush
  | _ => none

def Call.handed : Option Call → List Handed
  | some (.append logline) => [logline]
  | _ => []

/-- What is handed over is what `append` is called with. -/
theorem step_output {s t : State} {l : Label} (step : step s l = some t) :
    t.output = s.output ++ Call.handed (call s l) := by
  cases step_cases step with
  | swapNow _ _ _ _ _ swap => simpa [call, Call.handed] using (swapBuffers_spec swap).output
  | wakeUp _ swap => simpa [call, Call.handed] using (swapBuffers_spec swap).output
  | dropExcess _ tooMany => simp [call, Call.handed, tooMany]
  | keepAll _ _ small => simp [call, Call.handed, Nat.not_lt.mpr small]
  | writeBuffer pc here => simp [call, Call.handed, pc, here]
  | allWritten pc past => simp [call, Call.handed, pc, List.getElem?_eq_none past]
  | enterRound _ running | exitLoop _ running => simp [call, Call.handed, running]
  | recycle _ done =>
      obtain ⟨first, second, rfl⟩ := recycle_spec done
      simp [call, Call.handed]
  | _ => simp [call, Call.handed]

/-- `output` is constructed after the countdown only. -/
theorem pc_of_construct {s t : State} {l : Label} (step : step s l = some t)
    (construct : call s l = some .construct) : s.pc = .start := by
  cases step_cases step with
  | countDown pc _ => exact pc
  | dropExcess _ tooMany => simp [call, tooMany] at construct
  | keepAll _ _ small => simp [call, Nat.not_lt.mpr small] at construct
  | writeBuffer pc here => simp [call, pc, here] at construct
  | allWritten pc past => simp [call, pc, List.getElem?_eq_none past] at construct
  | enterRound _ running | exitLoop _ running => simp [call, running] at construct
  | _ => simp [call] at construct

theorem reachable_accounts {s : State} (reach : machine.ReachableWhere ShortLines s) :
    Shape s ∧ ∃ past, Accounts past s := by
  refine reach.invariant (I := fun s => Shape s ∧ ∃ past, Accounts past s) ?_ ?_
  · rintro s rfl
    exact ⟨new_shape, [], rfl, rfl, rfl, rfl⟩
  · intro s l t ⟨shape, past, accounts⟩ meets step
    exact ⟨step_shape shape step, step_accounts shape accounts meets step⟩

/-! ### The machine -/

/-- An `AsyncLogging` and the files of its `output`. -/
structure Filed where
  logging : State
  /-- `output`, once it has been constructed -/
  files : Option LogFile.Directory
deriving DecidableEq, Repr

namespace Filed

/-- A statement, and what the call of `output` finds: what lies behind the line in memory, what
the calls of `fwrite_unlocked` accept, and the seconds that `time` returns. -/
structure Label where
  statement : AsyncLogging.Label
  beyond : List UInt8
  results : List Nat
  start : Int
  now : Int
  again : Int
deriving DecidableEq, Repr

/-- What a call does to the files; a `LogFile` is constructed in a second after the epoch. -/
def perform (process : LogFile.Process) (rollSize : Nat) (files : Option LogFile.Directory)
    (l : Label) : Call → Option LogFile.Directory
  -- the default of `flushInterval` is 3
  | .construct => if 0 < l.now then some (.new process rollSize 3 l.now) else none
  | .append logline => do
      let files ← files
      (LogFile.Directory.machine process).step files
        (.append logline.bytes l.beyond l.results l.start l.now l.again)
  | .flush => do
      let files ← files
      (LogFile.Directory.machine process).step files .flush

def step (process : LogFile.Process) (rollSize : Nat) (s : Filed) (l : Label) : Option Filed := do
  let logging ← AsyncLogging.machine.step s.logging l.statement
  match call s.logging l.statement with
  | none => some { s with logging }
  | some called => do
      let files ← perform process rollSize s.files l called
      some ⟨logging, some files⟩

def machine (process : LogFile.Process) (rollSize : Nat) : Machine Filed Label where
  init s := s = ⟨.new, none⟩
  step := step process rollSize

/-- What is accepted of a call of `append` is what it was given. -/
def Written (l : Label) : Option Call → Prop
  | some (.append logline) =>
      LogFile.stream (LogFile.appendWrites logline.bytes.length l.results).1 =
        List.range logline.bytes.length
  | _ => True

/-- Lines fit into a buffer, and the files take what they are given. -/
def Exact (s : Filed) (l : Label) : Prop :=
  ShortLines s.logging l.statement ∧ Written l (call s.logging l.statement)

instance (s : State) (l : AsyncLogging.Label) : Decidable (ShortLines s l) := by
  cases l <;> unfold ShortLines <;> infer_instance

instance (l : Label) (called : Option Call) : Decidable (Written l called) := by
  unfold Written
  split <;> infer_instance

instance (s : Filed) (l : Label) : Decidable (Exact s l) := inferInstanceAs (Decidable (_ ∧ _))

/-! ### The two parts -/

/-- `output` is there from the countdown on. -/
def Unopened (s : State) : Prop := s.pc = .notStarted ∨ s.pc = .start

theorem step_unopened {s t : State} {l : AsyncLogging.Label} (shape : Shape s)
    (step : AsyncLogging.step s l = some t) (unopened : Unopened t) :
    Unopened s ∧ call s l = none := by
  cases step_cases step with
  | start owner => exact ⟨.inl (shape.unstarted owner), rfl⟩
  | appendFits _ _ | appendFull _ _ | latchDown _ _ | stop _ | join _ _ => exact ⟨unopened, rfl⟩
  | swapNow _ _ _ _ _ swap => simp [Unopened, (swapBuffers_spec swap).pc] at unopened
  | wakeUp _ swap => simp [Unopened, (swapBuffers_spec swap).pc] at unopened
  | recycle _ done =>
      obtain ⟨first, second, rfl⟩ := recycle_spec done
      simp [Unopened] at unopened
  | _ => simp [Unopened] at unopened

/-- The files have been given what the backend has handed over. -/
structure Parts (process : LogFile.Process) (s : Filed) : Prop where
  logging : AsyncLogging.machine.ReachableWhere ShortLines s.logging
  unopened : Unopened s.logging → s.files = none
  unused : s.files = none → s.logging.output = []
  files : ∀ files, s.files = some files →
    (LogFile.Directory.machine process).ReachableWhere LogFile.Directory.ExactWrites files ∧
      files.appended = s.logging.output.map Handed.bytes

/-- A call of `append` or `flush` is one of the directory. -/
theorem perform_files {process : LogFile.Process} {rollSize : Nat} {s : Filed} {l : Label}
    {called : Call} {files files' : LogFile.Directory} (exactly : Exact s l)
    (here : call s.logging l.statement = some called) (opened : s.files = some files)
    (used : called ≠ .construct)
    (reach : (LogFile.Directory.machine process).ReachableWhere LogFile.Directory.ExactWrites files)
    (performed : perform process rollSize s.files l called = some files') :
    (LogFile.Directory.machine process).ReachableWhere LogFile.Directory.ExactWrites files' ∧
      files'.appended = files.appended ++ (Call.handed (some called)).map Handed.bytes := by
  cases called with
  | construct => exact absurd rfl used
  | append logline =>
      rw [perform, opened, Option.bind_eq_bind, Option.bind_some] at performed
      have written := exactly.2
      rw [here] at written
      refine ⟨reach.tail (l := .append logline.bytes _ _ _ _ _) written performed, ?_⟩
      cases files.step_cases performed with
      | stay => rfl
      | roll => rfl
  | flush =>
      rw [perform, opened, Option.bind_eq_bind, Option.bind_some] at performed
      refine ⟨reach.tail (l := .flush) trivial performed, ?_⟩
      cases files.step_cases performed with
      | flush => exact (List.append_nil _).symm

/-- What is constructed has been given nothing. -/
theorem perform_construct {process : LogFile.Process} {rollSize : Nat}
    {files : Option LogFile.Directory} {files' : LogFile.Directory} {l : Label}
    (performed : perform process rollSize files l .construct = some files') :
    (LogFile.Directory.machine process).ReachableWhere LogFile.Directory.ExactWrites files' ∧
      files'.appended = [] := by
  obtain ⟨later, ⟨⟩⟩ := Option.ite_none_right_eq_some.mp performed
  exact ⟨⟨_, ⟨rollSize, 3, l.now, later, rfl⟩, .refl _⟩, rfl⟩

theorem step_parts {process : LogFile.Process} {rollSize : Nat} {s t : Filed} {l : Label}
    (parts : Parts process s) (exactly : Exact s l) (step : step process rollSize s l = some t) :
    Parts process t := by
  have shape := (reachable_accounts parts.logging).1
  obtain ⟨logging, moved, step⟩ := Option.bind_eq_some_iff.mp step
  have output := step_output moved
  have reach := parts.logging.tail exactly.1 moved
  cases here : call s.logging l.statement with
  | none =>
      simp only [here, Option.some.injEq] at step
      subst step
      rw [here] at output
      have output : logging.output = s.logging.output := output.trans (List.append_nil _)
      constructor
      · exact reach
      · intro unopened
        exact parts.unopened (step_unopened shape moved unopened).1
      · intro none
        exact output.trans (parts.unused none)
      · intro files opened
        change _ ∧ _ = logging.output.map Handed.bytes
        rw [output]
        exact parts.files files opened
  | some called =>
      simp only [here, Option.bind_eq_bind, Option.bind_eq_some_iff, Option.some.injEq] at step
      obtain ⟨files, performed, rfl⟩ := step
      have given : (LogFile.Directory.machine process).ReachableWhere
          LogFile.Directory.ExactWrites files ∧
          files.appended = logging.output.map Handed.bytes := by
        rw [output, here, List.map_append]
        by_cases first : called = .construct
        · subst first
          obtain ⟨reach, nothing⟩ := perform_construct performed
          have unused := parts.unused (parts.unopened (.inr (pc_of_construct moved here)))
          exact ⟨reach, by rw [nothing, unused]; rfl⟩
        · cases opened : s.files with
          | none =>
              rw [opened] at performed
              cases called with
              | construct => exact absurd rfl first
              | append logline => cases performed
              | flush => cases performed
          | some before =>
              obtain ⟨reach, appended⟩ := parts.files before opened
              obtain ⟨reach, lines⟩ := perform_files exactly here opened first reach performed
              exact ⟨reach, by rw [lines, appended]⟩
      exact {
        logging := reach
        unopened := fun unopened => by
          rw [(step_unopened shape moved unopened).2] at here
          cases here
        unused := nofun
        files := fun u same => Option.some.inj same ▸ given }

theorem reachable_parts {process : LogFile.Process} {rollSize : Nat} {s : Filed}
    (reach : (machine process rollSize).ReachableWhere Exact s) : Parts process s := by
  refine reach.invariant ?_ ?_
  · rintro s rfl
    exact ⟨⟨_, rfl, .refl _⟩, fun _ => rfl, fun _ => rfl, nofun⟩
  · intro s l t parts exactly step
    exact step_parts parts exactly step

/-- The files change nothing in the front end. -/
theorem appended_lines {process : LogFile.Process} {rollSize : Nat} {s t : Filed} {l : Label}
    (step : step process rollSize s l = some t) :
    t.logging.appended = s.logging.appended ++ l.statement.lines := by
  obtain ⟨logging, moved, step⟩ := Option.bind_eq_some_iff.mp step
  have appended := step_appended moved
  cases here : call s.logging l.statement with
  | none =>
      simp only [here, Option.some.injEq] at step
      exact step ▸ appended
  | some called =>
      simp only [here, Option.bind_eq_bind, Option.bind_eq_some_iff, Option.some.injEq] at step
      obtain ⟨files, -, rfl⟩ := step
      exact appended

theorem flatten_lines {files : List LogFile.NamedFile}
    (data : ∀ f ∈ files, f.data = f.lines.flatten) :
    files.flatMap LogFile.NamedFile.data = (files.flatMap LogFile.NamedFile.lines).flatten := by
  induction files with
  | nil => rfl
  | cons f files ih =>
      obtain ⟨first, rest⟩ := List.forall_mem_cons.mp data
      rw [List.flatMap_cons, List.flatMap_cons, List.flatten_append, first, ih rest]

/-- What is reported of a batch that is not cut are its lines. -/
theorem bytes_report {batch : Batch} (small : batch.buffers.length ≤ 25) :
    batch.report.flatMap Handed.bytes = bytes batch.buffers := by
  rw [Batch.report, if_neg (Nat.not_lt.mpr small), List.flatMap_map]
  rfl

/-- **The log on disk.** No buffer and no notice is divided between two files. -/
theorem lines_in_files {process : LogFile.Process} {rollSize : Nat} {s : Filed}
    (reach : (machine process rollSize).ReachableWhere Exact s) {output : LogFile.Directory}
    (opened : s.files = some output) (last : output.log.clock < Timestamp.endOf9999) :
    (output.files.map LogFile.NamedFile.name).Pairwise (· < ·) ∧
      (∀ f ∈ output.files, f.data = f.lines.flatten) ∧
      output.files.flatMap LogFile.NamedFile.lines = s.logging.output.map Handed.bytes ∧
      output.files.flatMap LogFile.NamedFile.data ++ bytes (toWrite s.logging) =
        ((tested s.logging).flatMap Batch.report).flatMap Handed.bytes ∧
      LinesAccounted s.logging ∧
      ((∀ batch ∈ s.logging.batches, batch.length ≤ 25) →
        output.files.flatMap LogFile.NamedFile.data ++ bytes (toWrite s.logging) ++
            bytes (untested s.logging).flatten ++ unswapped s.logging =
          s.logging.appended.flatten) ∧
      ∀ l t, (machine process rollSize).step s l = some t →
        t.logging.appended = s.logging.appended ++ l.statement.lines := by
  have parts := reachable_parts reach
  obtain ⟨files, given⟩ := parts.files output opened
  have holds := LogFile.Directory.reachable_holds files
  have sorted := LogFile.Directory.names_sorted
    (LogFile.Directory.reachable_opened files.reachable) last
  obtain ⟨-, past, accounts⟩ := reachable_accounts parts.logging
  have accounted := accounts.linesAccounted
  have written : output.files.flatMap LogFile.NamedFile.data ++ bytes (toWrite s.logging) =
      ((tested s.logging).flatMap Batch.report).flatMap Handed.bytes := by
    rw [← accounted.reports, flatten_lines holds.data, holds.lines, given, List.flatMap_append,
      List.flatMap_map, ← List.flatMap_def]
    rfl
  refine ⟨sorted, holds.data, holds.lines.trans given, written, accounted, fun small => ?_,
    fun l t step => appended_lines step⟩
  have uncut : ∀ batch ∈ tested s.logging, batch.buffers.length ≤ 25 := by
    intro batch mem
    apply small
    rw [accounted.batches]
    exact List.mem_append_left _ (List.mem_map_of_mem mem)
  have whole : ((tested s.logging).flatMap Batch.report).flatMap Handed.bytes =
      bytes ((tested s.logging).map Batch.buffers).flatten := by
    rw [List.flatMap_assoc, ← List.flatMap_def, bytes, List.flatMap_assoc]
    exact List.flatMap_congr fun batch mem => bytes_report (uncut batch mem)
  rw [written, whole, ← bytes_append, ← List.flatten_append, ← accounted.batches, accounted.lines]

/-- The statement without a call of `output`. -/
def Label.of (statement : AsyncLogging.Label) : Label := ⟨statement, [], [], 0, 0, 0⟩

/-- A line has been written to the first file, and another one is in the front end. -/
def oneWritten : Filed :=
  ((machine ⟨[100], [104], 7⟩ 1000).run ⟨.new, none⟩
    [.of .start, ⟨.countDown, [], [], 0, 1, 0⟩, .of .latchDown, .of .whileRunning, .of .lockBuffers,
      .of (.append [120]), .of .wakeUp, .of (.dropExcess "now"), ⟨.writeBuffer, [], [1], 2, 2, 2⟩,
      .of (.append [121])]).get rfl

theorem lines_in_files_oneWritten : ∃ output, oneWritten.files = some output ∧
    output.files.map LogFile.NamedFile.data = [[120]] ∧
    (output.files.map LogFile.NamedFile.name).Pairwise (· < ·) ∧
    output.files.flatMap LogFile.NamedFile.data ++ bytes (toWrite oneWritten.logging) ++
        bytes (untested oneWritten.logging).flatten ++ unswapped oneWritten.logging =
      oneWritten.logging.appended.flatten := by
  have reach : (machine ⟨[100], [104], 7⟩ 1000).ReachableWhere Exact oneWritten := by
    refine ⟨_, rfl, Machine.leadsWhere_of_run _ ?_ (Option.some_get _).symm⟩
    decide
  obtain ⟨sorted, -, -, -, -, whole, -⟩ := lines_in_files reach rfl (by decide)
  exact ⟨_, rfl, rfl, sorted, whole (by decide)⟩

end Filed

end Dbdky.AsyncLogging
