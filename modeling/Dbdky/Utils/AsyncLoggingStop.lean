import Dbdky.Utils.AsyncLoggingBatches

/-!
What `stop()` leaves behind.

At any moment the appended lines are, in lock order: the bytes handed to `LogFile`,
the bytes of the batch being written, and the bytes no round has swapped out yet
(`Inv.conserved`). Only the locked block of a round moves bytes out of the last group,
and after the `while` there is no further round. So `stop()` loses nothing exactly
when a swap is still to come, or nothing is left to swap (`Drained`):

* **`stop_loses_nothing_iff`.** In every run of `append`, backend and `stop` with short
  lines and batches of at most 25 buffers, what was handed over when `stop()` returns
  begins with every line appended before it iff `Drained` held when it was called.
-/

namespace Dbdky.AsyncLogging

open Transition

/-! ### Where the bytes are -/

def Handed.bytes : Handed → List UInt8
  | .notice _ text => text
  | .buffer data => data

/-- Everything handed to `LogFile::append` so far. -/
def handed (s : State) : List UInt8 := s.output.flatMap Handed.bytes

/-- The bytes of the batch that are still to be written. -/
def inFlight (s : State) : List UInt8 :=
  match s.pc with
  | .dropExcess => bytes s.buffersToWrite
  | .writeBuffers i => bytes (s.buffersToWrite.drop i)
  | _ => []

/-- What has left the front end: handed over, or in the batch being written. -/
def swappedOut (s : State) : List UInt8 := handed s ++ inFlight s

/-- The backend is inside a round and has not swapped yet. -/
def AwaitingSwap (s : State) : Prop := s.pc = .lockBuffers ∨ s.pc = .wait

/-- The condition of the runs: lines fit into a buffer, and no batch is cut. -/
def ShortLinesSmallBatches : Guard State Label
  | _, .append logline => logline.length < kLargeBuffer
  | s, .dropExcess _ => s.buffersToWrite.length ≤ 25
  | _, _ => True

/-! ### Nothing is lost or reordered on the way -/

structure Inv (s : State) : Prop extends Shape s where
  conserved : swappedOut s ++ unswapped s = s.appended.flatten

/-- The locked block of a round moves everything out of the front end. -/
theorem swapBuffers_conserves {s t : State} (swap : swapBuffers s = some t)
    (owned : ownedEmpty s.newBuffer1 = true) (written : s.buffersToWrite = [])
    (idle : inFlight s = []) :
    unswapped t = [] ∧ swappedOut t = swappedOut s ++ unswapped s := by
  have after := swapBuffers_spec swap
  obtain ⟨front, batch⟩ := after.unswapped owned written
  refine ⟨front, ?_⟩
  simp [swappedOut, ← batch, inFlight, handed, after.pc, after.output]
  simpa [inFlight] using idle

/-- What a step does to the three groups of bytes. -/
inductive Flow (s t : State) : Prop where
  | append (logline : List UInt8) (out : swappedOut t = swappedOut s)
      (front : unswapped t = unswapped s ++ logline)
      (lines : t.appended = s.appended ++ [logline]) (awaiting : AwaitingSwap s → AwaitingSwap t)
  | swap (awaited : AwaitingSwap s)
      (out : swappedOut t = swappedOut s ++ unswapped s) (front : unswapped t = [])
      (lines : t.appended = s.appended)
  | still (out : swappedOut t = swappedOut s) (front : unswapped t = unswapped s)
      (lines : t.appended = s.appended) (awaiting : AwaitingSwap s → AwaitingSwap t)

theorem step_flow {s t : State} {l : Label} (inv : Inv s) (meets : ShortLinesSmallBatches s l)
    (step : step s l = some t) : Flow s t := by
  cases step_cases step with
  | @appendFits b logline current fits =>
      refine .append logline rfl ?_ rfl id
      simp [unswapped, current, pointed, FixedBuffer.data_append_of_lt fits]
  | @appendFull b logline current full =>
      -- a full buffer is followed by an empty one, into which a short line fits
      refine .append logline rfl ?_ rfl id
      simp [unswapped, current, pointed, data_append_spare inv.spare meets]
  | latchDown _ _ => exact .still rfl rfl rfl id
  | stop _ => exact .still rfl rfl rfl id
  | join _ _ => exact .still rfl rfl rfl id
  | startWait pc _ _ _ _ =>
      exact .still (by simp [swappedOut, inFlight, handed, pc]) rfl rfl fun _ => .inr rfl
  | swapNow pc first _ written _ swap =>
      obtain ⟨front, out⟩ := swapBuffers_conserves swap first written (by simp [inFlight, pc])
      exact .swap (.inl pc) out front (swapBuffers_spec swap).appended
  | wakeUp pc swap =>
      obtain ⟨first, -, written⟩ := inv.waiting pc
      obtain ⟨front, out⟩ := swapBuffers_conserves swap first written (by simp [inFlight, pc])
      exact .swap (.inr pc) out front (swapBuffers_spec swap).appended
  | dropExcess _ tooMany => exact absurd meets (by simp [ShortLinesSmallBatches]; omega)
  | @writeBuffer i b pc here =>
      have next := drop_eq_cons here
      refine .still ?_ rfl rfl (by simp [AwaitingSwap, pc])
      simp [swappedOut, inFlight, handed, pc, next, Handed.bytes]
  | @allWritten i pc past =>
      refine .still ?_ rfl rfl (by simp [AwaitingSwap, pc])
      simp [swappedOut, inFlight, handed, pc, List.drop_of_length_le past]
  | recycle pc done =>
      obtain ⟨first, second, rfl⟩ := recycle_spec done
      refine .still ?_ rfl rfl (by simp [AwaitingSwap, pc])
      simp [swappedOut, inFlight, handed, pc]
  | start owner =>
      have pc := inv.unstarted owner
      refine .still ?_ rfl rfl (by simp [AwaitingSwap, pc])
      simp [swappedOut, inFlight, handed, pc]
  | countDown pc _ | enterRound pc _ | exitLoop pc _ | keepAll pc _ _ =>
      refine .still ?_ rfl rfl (by simp [AwaitingSwap, pc])
      simp [swappedOut, inFlight, handed, pc]

theorem step_inv {s t : State} {l : Label} (inv : Inv s) (meets : ShortLinesSmallBatches s l)
    (step : step s l = some t) : Inv t := by
  refine ⟨step_shape inv.toShape step, ?_⟩
  cases step_flow inv meets step with
  | append logline out front lines _ =>
      rw [out, front, lines, ← List.append_assoc, inv.conserved]
      simp
  | swap _ out front lines => rw [out, front, lines, List.append_nil, inv.conserved]
  | still out front lines _ => rw [out, front, lines, inv.conserved]

theorem reachable_inv {s : State} (reach : machine.ReachableWhere ShortLinesSmallBatches s) :
    Inv s :=
  reach.invariant (fun _ initial => by subst initial; exact ⟨new_shape, rfl⟩)
    fun _ _ _ inv meets step => step_inv inv meets step

/-! ### After `stop()` -/

/-- A swap is still to come, or nothing is left to swap. -/
def Drained (s : State) : Prop := AwaitingSwap s ∨ unswapped s = []

/-- `stop()` has been called. -/
def Closing (s : State) : Prop :=
  s.running = false ∧ (s.owner = .join ∨ s.owner = .stopped)

/-- Once `running_` is clear, no further round begins. -/
theorem step_closing {s t : State} {l : Label} (closing : Closing s) (step : step s l = some t) :
    Closing t ∧ (AwaitingSwap t → AwaitingSwap s) := by
  obtain ⟨still, owner⟩ := closing
  cases step_cases step with
  | appendFits _ _ => exact ⟨⟨still, owner⟩, id⟩
  | appendFull _ _ => exact ⟨⟨still, owner⟩, id⟩
  | start new => simp [new] at owner
  | latchDown waits _ => simp [waits] at owner
  | stop started => simp [started] at owner
  | join _ _ => exact ⟨⟨still, .inr rfl⟩, id⟩
  | countDown _ running => simp [still] at running
  | enterRound _ running => simp [still] at running
  | startWait pc _ _ _ _ => exact ⟨⟨still, owner⟩, fun _ => .inl pc⟩
  | swapNow pc _ _ _ _ swap =>
      have after := swapBuffers_spec swap
      exact ⟨⟨after.running.trans still, by rwa [after.owner]⟩, fun _ => .inl pc⟩
  | wakeUp pc swap =>
      have after := swapBuffers_spec swap
      exact ⟨⟨after.running.trans still, by rwa [after.owner]⟩, fun _ => .inr pc⟩
  | recycle _ done =>
      obtain ⟨first, second, rfl⟩ := recycle_spec done
      exact ⟨⟨still, owner⟩, by simp [AwaitingSwap]⟩
  | _ => exact ⟨⟨still, owner⟩, by simp [AwaitingSwap]⟩

/-- A swap still to come takes along everything that is there. -/
theorem step_drains {s t : State} {l : Label} {lines : List UInt8} (inv : Inv s)
    (meets : ShortLinesSmallBatches s l) (step : step s l = some t)
    (appended : lines <+: s.appended.flatten) (out : AwaitingSwap s ∨ lines <+: swappedOut s) :
    lines <+: t.appended.flatten ∧ (AwaitingSwap t ∨ lines <+: swappedOut t) := by
  cases step_flow inv meets step with
  | append logline out' front lines' awaiting =>
      rw [lines', out']
      exact ⟨appended.trans (by simp), out.imp_left awaiting⟩
  | swap _ out' front lines' =>
      rw [lines', out', inv.conserved]
      exact ⟨appended, .inr appended⟩
  | still out' front lines' awaiting =>
      rw [lines', out']
      exact ⟨appended, out.imp_left awaiting⟩

/-- Without a swap to come, what has left the front end is final. -/
theorem step_final {s t : State} {l : Label} (inv : Inv s) (meets : ShortLinesSmallBatches s l)
    (step : step s l = some t) (late : ¬ AwaitingSwap s) : swappedOut t = swappedOut s := by
  cases step_flow inv meets step with
  | append _ out _ _ _ => exact out
  | swap awaited _ _ _ => exact absurd awaited late
  | still out _ _ _ => exact out

/-- **What `stop()` loses.** When `stop()` has returned, the bytes handed to
`LogFile::append` begin with all lines appended before it was called, in lock order,
iff at that moment a swap was still to come or nothing was left to swap. -/
theorem stop_loses_nothing_iff {s₁ s₂ s₃ : State}
    (before : machine.ReachableWhere ShortLinesSmallBatches s₁)
    (stop : machine.step s₁ .stop = some s₂)
    (after : machine.LeadsWhere ShortLinesSmallBatches s₂ s₃) (returned : s₃.owner = .stopped) :
    s₁.appended.flatten <+: handed s₃ ↔ Drained s₁ := by
  have inv₁ := reachable_inv before
  have reach₂ : machine.ReachableWhere ShortLinesSmallBatches s₂ :=
    before.tail (l := .stop) trivial stop
  have handed₃ : handed s₃ = swappedOut s₃ := by
    simp [swappedOut, inFlight, (reachable_inv (reach₂.trans after)).stopped returned]
  rw [handed₃]
  have stop : step s₁ .stop = some s₂ := stop
  cases step_cases stop with
  | stop owner =>
      have closing₂ : Closing { s₁ with running := false, owner := .join } := ⟨rfl, .inl rfl⟩
      constructor
      · -- a run that ends with everything written had something to swap or nothing to lose
        intro kept
        by_contra undrained
        obtain ⟨late, left⟩ := not_or.mp undrained
        have final := after.invariant
          (I := fun u => Inv u ∧ Closing u ∧ ¬ AwaitingSwap u ∧ swappedOut u = swappedOut s₁)
          ⟨reachable_inv reach₂, closing₂, late, rfl⟩
          fun u l v ⟨inv, closing, late, out⟩ meets step =>
            ⟨step_inv inv meets step, (step_closing closing step).1,
              fun awaiting => late ((step_closing closing step).2 awaiting),
              (step_final inv meets step late).trans out⟩
        rw [final.2.2.2, ← inv₁.conserved] at kept
        have shorter := kept.length_le
        have some_left : 0 < (unswapped s₁).length := List.length_pos_iff.mpr left
        rw [List.length_append] at shorter
        omega
      · intro drained
        have start : AwaitingSwap s₁ ∨ s₁.appended.flatten <+: swappedOut s₁ := by
          apply drained.imp_right
          intro nothing
          have everything : s₁.appended.flatten = swappedOut s₁ := by
            rw [← inv₁.conserved, nothing, List.append_nil]
          exact everything ▸ List.prefix_rfl
        have final := after.invariant
          (I := fun u => Inv u ∧ s₁.appended.flatten <+: u.appended.flatten ∧
            (AwaitingSwap u ∨ s₁.appended.flatten <+: swappedOut u))
          ⟨reachable_inv reach₂, List.prefix_rfl, start⟩
          fun u l v ⟨inv, appended, out⟩ meets step =>
            ⟨step_inv inv meets step, step_drains inv meets step appended out⟩
        apply final.2.2.resolve_left
        intro awaiting
        have pc := final.1.stopped returned
        simp [AwaitingSwap, pc] at awaiting

/-- The backend waits when `stop()` is called: the line is swapped out and written. -/
theorem stop_loses_nothing_iff_waiting :
    ∃ s₁ s₃ : State, s₁.appended = [[120]] ∧ handed s₃ = [120] ∧
      (s₁.appended.flatten <+: handed s₃ ↔ Drained s₁) := by
  let before : List Label :=
    [.start, .countDown, .latchDown, .whileRunning, .lockBuffers, .append [120]]
  let after : List Label :=
    [.wakeUp, .dropExcess "now", .writeBuffer, .writeBuffer, .recycle, .whileRunning, .join]
  have meets : ∀ s, machine.Meets ShortLinesSmallBatches s before := by
    simp [before, Machine.Meets, ShortLinesSmallBatches, kLargeBuffer]
  refine ⟨_, _, rfl, rfl, stop_loses_nothing_iff
    ⟨.new, rfl, Machine.leadsWhere_of_run before (meets _) rfl⟩ rfl
    (Machine.leadsWhere_of_run after ?_ rfl) rfl⟩
  -- the batch that is swapped out when the backend wakes up has one buffer
  refine ⟨trivial, ?_⟩
  intro t wakeUp
  obtain rfl := Option.some.inj wakeUp
  have small : ([] ++ [FixedBuffer.empty.append [120]] : List Buffer).length ≤ 25 := by decide
  exact ⟨small, fun _ _ => by simp [Machine.Meets, ShortLinesSmallBatches]⟩

/-- A line appended right after `start()` returns, before the backend evaluates its
`while` for the first time: `stop()` finds `running_` clear and no round is run. -/
theorem stop_loses_line :
    ¬ ∀ s₁ s₂ s₃ : State, machine.ReachableWhere ShortLinesSmallBatches s₁ →
      machine.step s₁ .stop = some s₂ → machine.LeadsWhere ShortLinesSmallBatches s₂ s₃ →
      s₃.owner = .stopped → s₁.appended.flatten <+: handed s₃ := by
  intro kept
  have meets : machine.Meets ShortLinesSmallBatches State.new
      [.start, .countDown, .latchDown, .append [120]] := by
    simp [Machine.Meets, ShortLinesSmallBatches, kLargeBuffer]
  have meets' : ∀ s, machine.Meets ShortLinesSmallBatches s [.whileRunning, .join] := by
    simp [Machine.Meets, ShortLinesSmallBatches]
  have lost := kept _ _ _ ⟨.new, rfl, Machine.leadsWhere_of_run _ meets rfl⟩ rfl
    (Machine.leadsWhere_of_run _ (meets' _) rfl) rfl
  exact absurd lost (by decide)

end Dbdky.AsyncLogging
