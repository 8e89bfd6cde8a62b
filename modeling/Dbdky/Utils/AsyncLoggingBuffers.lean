import Dbdky.Utils.AsyncLogging

/-!
The buffers that go round in `AsyncLogging`.

Between the rounds the backend's own buffers are empty, so a swap brings no old bytes back
(`Shape`). A swap gives `newBuffer1` away, and `newBuffer2` if the spare buffer has been used
up; then a full buffer has been queued as well, so the batch has two buffers to take their
places (`Sound`). No assertion of `threadFunc` fails, whatever the front end does:

* **`Sound.proceeds`.** The backend can always execute its next statement.
* **`recycling_never_dry`.** At the top of every round both of the backend's buffers are back, and
  the spare buffer is missing only behind a full buffer that has been queued since the last swap.
-/

namespace Dbdky.AsyncLogging

open Transition

/-- The bytes behind a buffer pointer. -/
def pointed : Option Buffer → List UInt8
  | some b => b.data
  | none => []

theorem pointed_of_ownedEmpty {newBuffer : Option Buffer} (owned : ownedEmpty newBuffer = true) :
    pointed newBuffer = [] := by
  cases newBuffer with
  | none => rfl
  | some b => simpa [ownedEmpty, FixedBuffer.length, pointed] using owned

/-! ### The buffers between the rounds -/

structure Shape (s : State) : Prop where
  /-- A waiting backend has passed the assertions at the top of its round. -/
  waiting : s.pc = .wait → ownedEmpty s.newBuffer1 = true ∧ ownedEmpty s.newBuffer2 = true ∧
    s.buffersToWrite = []
  /-- The spare buffer, if there is one, is empty. -/
  spare : pointed s.nextBuffer = []
  unstarted : s.owner = .constructed → s.pc = .notStarted
  stopped : s.owner = .stopped → s.pc = .finished

/-- While the backend is inside `threadFunc`, the owner is between `start` and the join. -/
theorem Shape.between {s : State} {p : Pc} (shape : Shape s) (pc : s.pc = p)
    (early : p ≠ .notStarted) (late : p ≠ .finished) :
    s.owner ≠ .constructed ∧ s.owner ≠ .stopped := by
  subst pc
  exact ⟨fun owner => early (shape.unstarted owner), fun owner => late (shape.stopped owner)⟩

/-- The locked block leaves an empty spare buffer or none. -/
theorem Swapped.spare {s t : State} (swapped : Swapped s t) (before : pointed s.nextBuffer = [])
    (owned : ownedEmpty s.newBuffer2 = true) : pointed t.nextBuffer = [] := by
  rcases swapped.nextBuffer with next | next <;> rw [next]
  · exact before
  · exact pointed_of_ownedEmpty owned

/-- What the locked block leaves is in shape again. -/
theorem Shape.swap {s t : State} {p : Pc} (shape : Shape s) (pc : s.pc = p)
    (early : p ≠ .notStarted) (late : p ≠ .finished) (owned : ownedEmpty s.newBuffer2 = true)
    (swapped : Swapped s t) : Shape t := by
  obtain ⟨started, unjoined⟩ := shape.between pc early late
  rw [← swapped.owner] at started unjoined
  refine ⟨?_, swapped.spare shape.spare owned, ?_, ?_⟩
  · intro here
    cases swapped.pc.symm.trans here
  · intro owner
    exact absurd owner started
  · intro owner
    exact absurd owner unjoined

theorem step_shape {s t : State} {l : Label} (shape : Shape s) (step : step s l = some t) :
    Shape t := by
  cases step_cases step with
  | appendFits _ _ => exact ⟨shape.waiting, shape.spare, shape.unstarted, shape.stopped⟩
  | appendFull _ _ => exact ⟨shape.waiting, rfl, shape.unstarted, shape.stopped⟩
  | start _ => exact ⟨nofun, shape.spare, nofun, nofun⟩
  | latchDown _ _ => exact ⟨shape.waiting, shape.spare, nofun, nofun⟩
  | stop _ => exact ⟨shape.waiting, shape.spare, nofun, nofun⟩
  | join _ pc => exact ⟨shape.waiting, shape.spare, nofun, fun _ => pc⟩
  | exitLoop pc _ =>
      obtain ⟨started, -⟩ := shape.between pc nofun nofun
      exact ⟨nofun, shape.spare, fun owner => absurd owner started, fun _ => rfl⟩
  | startWait pc first second written _ =>
      obtain ⟨started, unjoined⟩ := shape.between pc nofun nofun
      exact ⟨fun _ => ⟨first, second, written⟩, shape.spare, fun owner => absurd owner started,
        fun owner => absurd owner unjoined⟩
  | swapNow pc _ second _ _ swap => exact shape.swap pc nofun nofun second (swapBuffers_spec swap)
  | wakeUp pc swap =>
      exact shape.swap pc nofun nofun (shape.waiting pc).2.1 (swapBuffers_spec swap)
  | recycle pc done =>
      obtain ⟨started, unjoined⟩ := shape.between pc nofun nofun
      obtain ⟨first, second, rfl⟩ := recycle_spec done
      exact ⟨nofun, shape.spare, fun owner => absurd owner started,
        fun owner => absurd owner unjoined⟩
  | countDown pc _ | enterRound pc _ | dropExcess pc _ | keepAll pc _ _ | writeBuffer pc _
  | allWritten pc _ =>
      obtain ⟨started, unjoined⟩ := shape.between pc nofun nofun
      exact ⟨nofun, shape.spare, fun owner => absurd owner started,
        fun owner => absurd owner unjoined⟩

theorem new_shape : Shape .new := ⟨nofun, rfl, fun _ => rfl, nofun⟩

/-! ### The assertions -/

/-- The next statement of `threadFunc`, in a round whose clock reads `time`. -/
def Pc.next (time : String) : Pc → Option Label
  | .notStarted | .finished => none
  | .start => some .countDown
  | .whileRunning => some .whileRunning
  | .lockBuffers => some .lockBuffers
  | .wait => some .wakeUp
  | .dropExcess => some (.dropExcess time)
  | .writeBuffers _ => some .writeBuffer
  | .recycle => some .recycle

def Pc.BeforeLatch : Pc → Prop
  | .notStarted | .start => True
  | _ => False

/-- Between two rounds. -/
def Pc.Idle : Pc → Prop
  | .whileRunning | .lockBuffers => True
  | _ => False

/-- Between the swap and the end of the round. -/
def Pc.InBatch : Pc → Prop
  | .dropExcess | .writeBuffers _ | .recycle => True
  | _ => False

/-- What the assertions and the dereferenced pointers need. -/
structure Sound (s : State) : Prop where
  current : ∃ b, s.currentBuffer = some b
  /-- The spare buffer is used up by a line that has queued the current one. -/
  spare : s.nextBuffer = none → s.buffers ≠ []
  unlatched : s.pc.BeforeLatch → s.latch ≠ 0 ∧ s.buffersToWrite = []
  starting : s.pc = .start → s.owner = .waitLatch ∧ s.running = true
  idle : s.pc.Idle → ownedEmpty s.newBuffer1 = true ∧ ownedEmpty s.newBuffer2 = true ∧
    s.buffersToWrite = []
  /-- In the middle of a round `newBuffer1` has been given away, and `newBuffer2` only if the
  batch has a second buffer that can take its place. -/
  midway : s.pc.InBatch → s.newBuffer1 = none ∧ s.buffersToWrite ≠ [] ∧
    (ownedEmpty s.newBuffer2 = true ∨ s.newBuffer2 = none ∧ 2 ≤ s.buffersToWrite.length)

theorem new_sound : Sound .new :=
  ⟨⟨_, rfl⟩, nofun, fun _ => ⟨Nat.one_ne_zero, rfl⟩, nofun, False.elim, False.elim⟩

theorem exists_of_ownedEmpty {newBuffer : Option Buffer} (owned : ownedEmpty newBuffer = true) :
    ∃ b, newBuffer = some b := by
  cases newBuffer with
  | none => cases owned
  | some b => exact ⟨b, rfl⟩

/-- A swap leaves a spare buffer. -/
theorem spare_of_swap {s t : State} (second : ownedEmpty s.newBuffer2 = true)
    (swap : swapBuffers s = some t) : t.nextBuffer ≠ none := by
  obtain ⟨b, current, ⟨⟩⟩ := Option.bind_eq_some_iff.mp swap
  obtain ⟨spare, owned⟩ := exists_of_ownedEmpty second
  cases next : s.nextBuffer with
  | none => simp [owned]
  | some b => simp

/-- The locked block of a round gives `newBuffer1` away, and `newBuffer2` where the batch has
at least two buffers. -/
theorem Sound.swap {s t : State} (sound : Sound s) (first : ownedEmpty s.newBuffer1 = true)
    (second : ownedEmpty s.newBuffer2 = true) (swap : swapBuffers s = some t) : Sound t := by
  have spare := spare_of_swap second swap
  obtain ⟨b, current, ⟨⟩⟩ := Option.bind_eq_some_iff.mp swap
  refine ⟨exists_of_ownedEmpty first, fun missing => absurd missing spare, False.elim, nofun,
    False.elim, fun _ => ⟨rfl, by simp, ?_⟩⟩
  cases next : s.nextBuffer with
  | none =>
      have queued : 0 < s.buffers.length := List.length_pos_iff.mpr (sound.spare next)
      refine .inr ⟨rfl, ?_⟩
      rw [List.length_append, List.length_singleton]
      omega
  | some b => exact .inl second

theorem refill_some {b : Buffer} {kept : List Buffer} :
    refill (some b) kept = some (some b, kept) := rfl

theorem refill_none {kept : List Buffer} (left : kept ≠ []) :
    refill none kept = some (some .empty, kept.dropLast) := if_neg left

theorem resized_ne_nil {s : State} (batch : s.buffersToWrite ≠ []) : resized s ≠ [] := by
  unfold resized
  split <;> simp [batch]

theorem two_le_length_resized {s : State} (two : 2 ≤ s.buffersToWrite.length) :
    2 ≤ (resized s).length := by
  unfold resized
  split
  · rw [List.length_take]
    omega
  · exact two

/-- The batch has a buffer for every pointer that is null. -/
theorem Sound.recycle {s : State} (sound : Sound s) (pc : s.pc = .recycle) :
    ∃ newBuffer1 newBuffer2, ownedEmpty newBuffer1 = true ∧ ownedEmpty newBuffer2 = true ∧
      recycle s =
        some { s with newBuffer1, newBuffer2, buffersToWrite := [], pc := .whileRunning } := by
  obtain ⟨first, batch, second⟩ := sound.midway (pc ▸ trivial)
  have nonempty := resized_ne_nil batch
  unfold AsyncLogging.recycle
  rw [first, refill_none nonempty, Option.bind_eq_bind, Option.bind_some]
  dsimp only
  rcases second with owned | ⟨given, two⟩
  · obtain ⟨b, here⟩ := exists_of_ownedEmpty owned
    rw [here, refill_some]
    exact ⟨_, _, rfl, here ▸ owned, rfl⟩
  · have another : (resized s).dropLast ≠ [] := by
      have two_left := two_le_length_resized two
      rw [← List.length_pos_iff, List.length_dropLast]
      omega
    rw [given, refill_none another]
    exact ⟨_, _, rfl, rfl, rfl⟩

/-- A step inside a batch keeps the backend's own buffers, and as much of the batch as they
need. -/
theorem Sound.inBatch {s : State} {p : Pc} {kept : List Buffer} {output : List Handed}
    {times : List String}
    (sound : Sound s) (pc : s.pc.InBatch) (inside : p.InBatch) (nonempty : kept ≠ [])
    (two : 2 ≤ s.buffersToWrite.length → 2 ≤ kept.length) :
    Sound { s with buffersToWrite := kept, output := output, pc := p, times := times } := by
  obtain ⟨first, -, second⟩ := sound.midway pc
  have second := second.imp_right fun ⟨given, enough⟩ => And.intro given (two enough)
  refine ⟨sound.current, sound.spare, ?_, ?_, ?_, fun _ => ⟨first, nonempty, second⟩⟩
  · cases p <;> first | exact inside.elim | exact False.elim
  · rintro rfl
    exact inside.elim
  · cases p <;> first | exact inside.elim | exact False.elim

theorem step_sound {s t : State} {l : Label} (shape : Shape s) (sound : Sound s)
    (step : step s l = some t) : Sound t := by
  cases step_cases step with
  | appendFits _ _ => exact { sound with current := ⟨_, rfl⟩ }
  | appendFull _ _ => exact { sound with current := ⟨_, rfl⟩, spare := by simp }
  | start owner =>
      have unlatched := sound.unlatched (shape.unstarted owner ▸ trivial)
      exact ⟨sound.current, sound.spare, fun _ => unlatched, fun _ => ⟨rfl, rfl⟩, False.elim,
        False.elim⟩
  | latchDown waits down =>
      -- the backend has counted down, so it is behind `start`
      refine { sound with starting := ?_ }
      intro pc
      exact absurd down (sound.unlatched (by rw [pc]; trivial)).1
  | stop started =>
      refine { sound with starting := ?_ }
      intro pc
      cases started.symm.trans (sound.starting pc).1
  | join _ finished =>
      refine { sound with starting := ?_ }
      intro pc
      cases finished.symm.trans pc
  | countDown pc _ =>
      have unlatched := sound.unlatched (pc ▸ trivial)
      exact ⟨sound.current, sound.spare, False.elim, nofun, fun _ => ⟨rfl, rfl, unlatched.2⟩,
        False.elim⟩
  | enterRound pc _ =>
      have idle := sound.idle (pc ▸ trivial)
      exact ⟨sound.current, sound.spare, False.elim, nofun, fun _ => idle, False.elim⟩
  | exitLoop _ _ | startWait _ _ _ _ _ =>
      exact ⟨sound.current, sound.spare, False.elim, nofun, False.elim, False.elim⟩
  | swapNow _ first second _ _ swap => exact sound.swap first second swap
  | wakeUp pc swap =>
      obtain ⟨first, second, -⟩ := shape.waiting pc
      exact sound.swap first second swap
  | dropExcess pc tooMany =>
      have two : (s.buffersToWrite.take 2).length = 2 := by
        rw [List.length_take]
        omega
      have nonempty : s.buffersToWrite.take 2 ≠ [] := by
        rw [← List.length_pos_iff, two]
        omega
      exact sound.inBatch (pc ▸ trivial) trivial nonempty fun _ => Nat.le_of_eq two.symm
  | keepAll pc nonempty _ => exact sound.inBatch (pc ▸ trivial) trivial nonempty id
  | writeBuffer pc _ | allWritten pc _ =>
      have inBatch : s.pc.InBatch := pc ▸ trivial
      exact sound.inBatch inBatch trivial (sound.midway inBatch).2.1 id
  | recycle pc done =>
      obtain ⟨first, second, owned₁, owned₂, recycled⟩ := sound.recycle pc
      obtain rfl := Option.some.inj (recycled.symm.trans done)
      exact ⟨sound.current, sound.spare, False.elim, nofun, fun _ => ⟨owned₁, owned₂, rfl⟩,
        False.elim⟩

theorem Sound.append {s : State} (sound : Sound s) (logline : List UInt8) :
    ∃ t, append s logline = some t := by
  obtain ⟨b, current⟩ := sound.current
  unfold AsyncLogging.append
  rw [current, Option.bind_eq_bind, Option.bind_some]
  dsimp only
  split
  · exact ⟨_, rfl⟩
  · exact ⟨_, rfl⟩

theorem Sound.swapBuffers {s : State} (sound : Sound s) : ∃ t, swapBuffers s = some t := by
  obtain ⟨b, current⟩ := sound.current
  unfold AsyncLogging.swapBuffers
  rw [current]
  exact ⟨_, rfl⟩

/-- No assertion of `threadFunc` fails and no null pointer is followed: the backend can execute
its next statement. -/
theorem Sound.proceeds {s : State} (sound : Sound s) {time : String} {l : Label}
    (next : s.pc.next time = some l) : ∃ t, step s l = some t := by
  generalize pc : s.pc = p at next
  cases p with
  | notStarted => cases next
  | finished => cases next
  | start =>
      cases next
      exact ⟨_, if_pos ⟨pc, (sound.starting pc).2⟩⟩
  | whileRunning =>
      cases next
      simp only [step, pc]
      cases s.running with
      | false => exact ⟨_, rfl⟩
      | true => exact ⟨_, rfl⟩
  | lockBuffers =>
      cases next
      have idle := sound.idle (pc ▸ trivial)
      simp only [step, if_pos (And.intro pc idle)]
      split
      · exact ⟨_, rfl⟩
      · exact sound.swapBuffers
  | wait =>
      cases next
      obtain ⟨t, swap⟩ := sound.swapBuffers
      exact ⟨t, (if_pos pc).trans swap⟩
  | dropExcess =>
      cases next
      have batch := (sound.midway (pc ▸ trivial)).2.1
      simp only [step, dropExcess, if_pos pc, if_neg batch]
      split
      · exact ⟨_, rfl⟩
      · exact ⟨_, rfl⟩
  | writeBuffers i =>
      cases next
      simp only [step, pc]
      split
      · exact ⟨_, rfl⟩
      · exact ⟨_, rfl⟩
  | recycle =>
      cases next
      obtain ⟨first, second, -, -, recycled⟩ := sound.recycle pc
      exact ⟨_, (if_pos pc).trans recycled⟩

/-! ### The spare buffer -/

theorem reachable_sound {s : State} (reach : machine.Reachable s) : Shape s ∧ Sound s := by
  refine reach.invariant (I := fun s => Shape s ∧ Sound s) (fun s initial => ?_)
    fun _ _ _ ⟨shape, sound⟩ step => ⟨step_shape shape step, step_sound shape sound step⟩
  subst initial
  exact ⟨new_shape, new_sound⟩

/-- The assertions of `threadFunc`, and the pointer that `append` follows. -/
structure NeverDry (s : State) : Prop where
  top : s.pc = .lockBuffers → ownedEmpty s.newBuffer1 = true ∧ ownedEmpty s.newBuffer2 = true ∧
    s.buffersToWrite = []
  current : s.currentBuffer ≠ none
  swapped : s.pc = .dropExcess → s.buffersToWrite ≠ []
  first_pop : s.pc = .recycle → s.newBuffer1 = none → resized s ≠ []
  second_pop : s.pc = .recycle → ∀ newBuffer1 kept,
    refill s.newBuffer1 (resized s) = some (newBuffer1, kept) → s.newBuffer2 = none → kept ≠ []

/-- The constructor has returned, or a swap has just been made. -/
def AfterSwap (s : State) : Prop :=
  machine.init s ∨ ∃ r, machine.Reachable r ∧ swapBuffers r = some s ∧
    (machine.step r .lockBuffers = some s ∨ machine.step r .wakeUp = some s)

/-- No full buffer is queued. -/
def NotQueued : Guard State Label
  | s, .append logline => ∀ b, s.currentBuffer = some b → logline.length < b.avail
  | _, _ => True

theorem Sound.neverDry {s : State} (sound : Sound s) : NeverDry s := by
  refine ⟨fun pc => sound.idle (pc ▸ trivial), ?_, fun pc => (sound.midway (pc ▸ trivial)).2.1,
    fun pc _ => resized_ne_nil (sound.midway (pc ▸ trivial)).2.1, ?_⟩
  · obtain ⟨b, current⟩ := sound.current
    rw [current]
    exact Option.some_ne_none b
  · intro pc newBuffer1 kept refilled missing
    obtain ⟨first, batch, second⟩ := sound.midway (pc ▸ trivial)
    have two : 2 ≤ s.buffersToWrite.length := by
      rcases second with owned | ⟨-, two⟩
      · rw [missing] at owned
        cases owned
      · exact two
    rw [first, refill_none (resized_ne_nil batch)] at refilled
    cases refilled
    have two_left := two_le_length_resized two
    rw [← List.length_pos_iff, List.length_dropLast]
    omega

theorem step_spare {s t : State} {l : Label} (shape : Shape s) (spare : s.nextBuffer ≠ none)
    (not_queued : NotQueued s l) (step : step s l = some t) : t.nextBuffer ≠ none := by
  cases step_cases step with
  | appendFull current full => exact absurd (not_queued _ current) (Nat.not_lt.mpr full)
  | swapNow _ _ second _ _ swap => exact spare_of_swap second swap
  | wakeUp pc swap => exact spare_of_swap (shape.waiting pc).2.1 swap
  | recycle _ done =>
      obtain ⟨first, second, rfl⟩ := recycle_spec done
      exact spare
  | _ => exact spare

theorem AfterSwap.spare {s : State} (after : AfterSwap s) : s.nextBuffer ≠ none := by
  rcases after with initial | ⟨r, reach, swap, step⟩
  · subst initial
    exact Option.some_ne_none _
  · refine spare_of_swap ?_ swap
    rcases step with step | step
    · exact (Option.ite_none_right_eq_some.mp step).1.2.2.1
    · have pc := (Option.ite_none_right_eq_some.mp step).1
      exact ((reachable_sound reach).1.waiting pc).2.1

/-- **Recycling never runs dry**: every assertion holds, so that the backend can execute its next
statement, and the spare buffer is missing only if a full buffer has been queued since the last
swap. -/
theorem recycling_never_dry {s : State} (reach : machine.Reachable s) :
    NeverDry s ∧ (∀ time l, s.pc.next time = some l → ∃ t, machine.step s l = some t) ∧
      (s.nextBuffer = none → s.buffers ≠ []) ∧
      (AfterSwap s → ∀ t, machine.LeadsWhere NotQueued s t → t.nextBuffer ≠ none) := by
  obtain ⟨shape, sound⟩ := reachable_sound reach
  refine ⟨sound.neverDry, fun _ _ => sound.proceeds, sound.spare, fun after t leads => ?_⟩
  exact (leads.invariant (I := fun s => Shape s ∧ s.nextBuffer ≠ none) ⟨shape, after.spare⟩
    fun _ _ _ ⟨shape, spare⟩ not_queued step =>
      ⟨step_shape shape step, step_spare shape spare not_queued step⟩).2

/-- The second round begins after the first one has given both buffers away and got two of its
batch back. -/
theorem recycling_never_dry_second :
    ∃ s, s.pc = .lockBuffers ∧ s.batches.map List.length = [2] ∧ NeverDry s := by
  -- a line that fills the current buffer, so that the spare one is used up as well
  obtain ⟨line, long⟩ : ∃ line : List UInt8, line.length = kLargeBuffer :=
    ⟨List.replicate kLargeBuffer 0, List.length_replicate ..⟩
  let waiting : State := { State.new with
    running := true, owner := .waitLatch, latch := 0, pc := .wait,
    newBuffer1 := some .empty, newBuffer2 := some .empty }
  have reach : machine.Reachable waiting :=
    Machine.reachable_of_run [.start, .countDown, .whileRunning, .lockBuffers] rfl rfl
  have full : ¬ (FixedBuffer.empty : Buffer).avail > line.length := by
    rw [long]
    decide
  let queued : State := { waiting with
    appended := [line], buffers := [.empty], nextBuffer := none,
    currentBuffer := some (FixedBuffer.empty.append line) }
  have append : machine.step waiting (.append line) = some queued := if_neg full
  have round {t : State} (run : machine.run queued
      [.wakeUp, .dropExcess "now", .writeBuffer, .writeBuffer, .writeBuffer, .recycle,
        .whileRunning] = some t) :=
    recycling_never_dry ((reach.tail append).trans (Machine.leads_of_run _ run))
  exact ⟨_, rfl, rfl, (round rfl).1⟩

end Dbdky.AsyncLogging
