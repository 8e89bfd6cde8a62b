import Mathlib.Data.List.Chain
import Mathlib.Tactic.Common

/-!
Clocks whose offset changes.

A clock shows the time plus an offset, and at certain times the offset changes. What is
in force at a time is looked up among the times of the changes. What is in force at a
*reading* of the clock is looked up among the readings right after the changes, but
before a change that sets the clock back every reading occurs twice.

* **`inForce_reading`.** If the changes are far enough apart, a time whose reading does
  not occur again is looked up by its reading as well.
* **`inForce_repeated`.** At a time whose reading occurs again the look-up by the reading
  finds an offset that is smaller than the one in force.
* **`inForce_repeated_apart`.** If no change follows before the clock has made up for what it
  is set back, that is what is in force after the change.
-/

namespace Clock

variable {α : Type*} {offset : α → Int} {isDst : α → Bool} {first : α} {changes : List (Int × α)}
  {k : Int}

/-- What is in force at `k`: before the first change it is `first`. -/
def inForce (first : α) : List (Int × α) → Int → α
  | [], _ => first
  | (start, value) :: rest, k => if k < start then first else inForce value rest k

theorem inForce_eq_first (later : ∀ c ∈ changes, k < c.1) : inForce first changes k = first := by
  cases changes with
  | nil => rfl
  | cons change changes =>
      rw [inForce, if_pos (later _ (List.mem_cons_self ..))]

/-- The last change at or before `k` is in force. -/
theorem inForce_append {before after : List (Int × α)} {start : Int} {value : α}
    (earlier : ∀ c ∈ before, c.1 ≤ k) (reached : start ≤ k) (later : ∀ c ∈ after, k < c.1) :
    inForce first (before ++ (start, value) :: after) k = value := by
  induction before generalizing first with
  | nil =>
      rw [List.nil_append, inForce, if_neg (Int.not_lt.mpr reached)]
      exact inForce_eq_first later
  | cons change before ih =>
      have passed : change.1 ≤ k := earlier _ (List.mem_cons_self ..)
      rw [List.cons_append, inForce, if_neg (Int.not_lt.mpr passed)]
      exact ih fun c mem => earlier c (List.mem_cons_of_mem _ mem)

theorem inForce_mem : inForce first changes k = first ∨
    ∃ c ∈ changes, inForce first changes k = c.2 := by
  induction changes generalizing first with
  | nil => exact .inl rfl
  | cons change changes ih =>
      rw [inForce]
      split
      · exact .inl rfl
      · rcases @ih change.2 with here | ⟨c, mem, here⟩
        · exact .inr ⟨change, List.mem_cons_self .., here⟩
        · exact .inr ⟨c, List.mem_cons_of_mem _ mem, here⟩

/-- The readings of the clock right after each change. -/
def readings (offset : α → Int) (changes : List (Int × α)) : List (Int × α) :=
  changes.map fun c => (c.1 + offset c.2, c.2)

/-- One change, from what was in force before. -/
structure Change (α : Type*) where
  time : Int
  before : α
  after : α

/-- How far the clock is set back. -/
def Change.drop (offset : α → Int) (c : Change α) : Int := offset c.before - offset c.after

/-- The reading at `k` occurs again after the change. -/
def Change.Repeats (offset : α → Int) (c : Change α) (k : Int) : Prop :=
  c.time - c.drop offset ≤ k ∧ k < c.time

def steps (first : α) : List (Int × α) → List (Change α)
  | [] => []
  | (time, after) :: rest => ⟨time, first, after⟩ :: steps after rest

/-- Two changes, one after the other, are farther apart than the second one sets the clock. -/
def Separated (offset : α → Int) (c d : Change α) : Prop :=
  (d.drop offset).natAbs < d.time - c.time

/-- Changes far enough apart, which set the clock back only from daylight saving time to
standard time. -/
structure Regular (offset : α → Int) (isDst : α → Bool) (first : α) (changes : List (Int × α)) :
    Prop where
  separated : (steps first changes).IsChain (Separated offset)
  marked : ∀ c ∈ steps first changes, offset c.after < offset c.before →
    isDst c.before = true ∧ isDst c.after = false

namespace Regular

variable {time time' : Int} {value value' : α}

theorem tail (regular : Regular offset isDst first ((time, value) :: changes)) :
    Regular offset isDst value changes :=
  ⟨regular.separated.tail, fun c mem => regular.marked c (List.mem_cons_of_mem _ mem)⟩

theorem head (regular : Regular offset isDst first ((time, value) :: (time', value') :: changes)) :
    Separated offset ⟨time, first, value⟩ ⟨time', value, value'⟩ :=
  (List.isChain_cons_cons.mp regular.separated).1

/-- Nothing that happens at a change reaches back to the change before. -/
theorem later (regular : Regular offset isDst first ((time, value) :: changes)) {c : Change α}
    (mem : c ∈ steps value changes) : time < c.time - c.drop offset ∧ time < c.time := by
  induction changes generalizing first time value with
  | nil => cases mem
  | cons change changes ih =>
      obtain ⟨time', value'⟩ := change
      have apart := regular.head
      simp only [Separated] at apart
      rcases List.mem_cons.mp mem with rfl | mem
      · dsimp only
        omega
      · have later := ih regular.tail mem
        omega

/-- After a change the clock shows more than right after it. -/
theorem reading_le (regular : Regular offset isDst first ((time, value) :: changes))
    (reached : time ≤ k) : time + offset value ≤ k + offset (inForce value changes k) := by
  induction changes generalizing first time value with
  | nil =>
      rw [inForce]
      omega
  | cons change changes ih =>
      obtain ⟨time', value'⟩ := change
      have apart := regular.head
      simp only [Separated, Change.drop] at apart
      rw [inForce]
      split
      · omega
      · rename_i passed
        have later := ih regular.tail (Int.not_lt.mp passed)
        omega

theorem reading_lt (regular : Regular offset isDst first ((time, value) :: changes))
    {c : Int × α} (mem : c ∈ changes) : time + offset value < c.1 + offset c.2 := by
  induction changes generalizing first time value with
  | nil => cases mem
  | cons change changes ih =>
      obtain ⟨time', value'⟩ := change
      have apart := regular.head
      simp only [Separated, Change.drop] at apart
      rcases List.mem_cons.mp mem with rfl | mem
      · dsimp only
        omega
      · have later := ih regular.tail mem
        omega

/-- The readings right after the changes increase. -/
theorem readings_increasing (regular : Regular offset isDst first changes) :
    (readings offset changes).Pairwise fun c d => c.1 < d.1 := by
  induction changes generalizing first with
  | nil => exact .nil
  | cons change changes ih =>
      refine List.pairwise_cons.mpr ⟨?_, ih regular.tail⟩
      exact List.forall_mem_map.mpr fun c mem => regular.reading_lt mem

/-- What is found by a reading after a change has begun to be read by then. -/
theorem reading_reached (regular : Regular offset isDst first ((time, value) :: changes))
    (shown : time + offset value ≤ k) :
    time + offset (inForce value (readings offset changes) k) ≤ k := by
  induction changes generalizing first time value with
  | nil => exact shown
  | cons change changes ih =>
      obtain ⟨time', value'⟩ := change
      have apart := regular.head
      simp only [Separated] at apart
      rw [readings, List.map_cons, ← readings, inForce]
      split
      · exact shown
      · rename_i reached
        have later := ih regular.tail (Int.not_lt.mp reached)
        dsimp only
        omega

/-- After a change that sets the clock back, the changes to come are out of reach if the next one
is far enough away. -/
theorem out_of_reach (regular : Regular offset isDst first ((time, value) :: changes))
    (back : offset value < offset first)
    (apart : ∀ d ∈ changes.head?, offset first - offset value < d.1 - time) :
    (∀ k < time + offset first, inForce value (readings offset changes) k = value) ∧
      ∀ k < time + (offset first - offset value), inForce value changes k = value := by
  cases changes with
  | nil => exact ⟨fun _ _ => rfl, fun _ _ => rfl⟩
  | cons change changes =>
      obtain ⟨time', value'⟩ := change
      have apart := apart _ rfl
      have marked := regular.marked _ (List.mem_cons_self ..) back
      -- the clock is not set back twice in a row
      have forward : offset value ≤ offset value' := by
        by_contra back'
        have marked' := regular.tail.marked _ (List.mem_cons_self ..) (Int.not_le.mp back')
        rw [marked.2] at marked'
        cases marked'.1
      dsimp only at apart
      constructor
      · intro k early
        rw [readings, List.map_cons, inForce, if_pos (by dsimp only; omega)]
      · intro k early
        rw [inForce, if_pos (by omega)]

end Regular

theorem inForce_reading (regular : Regular offset isDst first changes)
    (once : ∀ c ∈ steps first changes, ¬ c.Repeats offset k) :
    inForce first (readings offset changes) (k + offset (inForce first changes k)) =
      inForce first changes k := by
  induction changes generalizing first with
  | nil => rfl
  | cons change changes ih =>
      obtain ⟨time, value⟩ := change
      rw [readings, List.map_cons, ← readings, inForce, inForce]
      by_cases early : k < time
      · have head := once _ (List.mem_cons_self ..)
        simp only [Change.Repeats, Change.drop] at head
        rw [if_pos early, if_pos (by dsimp only; omega)]
      · have shown := regular.reading_le (Int.not_lt.mp early)
        rw [if_neg early, if_neg (by dsimp only; omega)]
        exact ih regular.tail fun c mem => once c (List.mem_cons_of_mem _ mem)

/-- Before its reading occurs again the clock has not been set back yet, and the look-up by the
reading finds a smaller offset. -/
theorem inForce_repeated (regular : Regular offset isDst first changes) {c : Change α}
    (mem : c ∈ steps first changes) (again : c.Repeats offset k) :
    inForce first changes k = c.before ∧
      offset (inForce first (readings offset changes) (k + offset c.before)) < offset c.before := by
  induction changes generalizing first with
  | nil => cases mem
  | cons change changes ih =>
      obtain ⟨time, value⟩ := change
      rcases List.mem_cons.mp mem with rfl | mem
      · obtain ⟨reached, early⟩ := again
        simp only [Change.drop] at reached early ⊢
        refine ⟨if_pos early, ?_⟩
        have shown : time + offset value ≤ k + offset first := by omega
        have found := regular.reading_reached shown
        rw [readings, List.map_cons, ← readings, inForce, if_neg (Int.not_lt.mpr shown)]
        dsimp only
        omega
      · obtain ⟨now, smaller⟩ := ih regular.tail mem
        obtain ⟨reached, early⟩ := again
        have later := regular.later mem
        have shown := regular.reading_le (k := k) (by omega)
        rw [now] at shown
        refine ⟨?_, ?_⟩
        · rw [inForce, if_neg (by omega), now]
        · rw [readings, List.map_cons, ← readings, inForce, if_neg (by dsimp only; omega)]
          exact smaller

/-- If each change is farther from the next one than it sets the clock back, both look-ups find what
is in force after the change. -/
theorem inForce_repeated_apart (regular : Regular offset isDst first changes)
    (apart : (steps first changes).IsChain fun c d => c.drop offset < d.time - c.time)
    {c : Change α} (mem : c ∈ steps first changes) (again : c.Repeats offset k) :
    inForce first (readings offset changes) (k + offset c.before) = c.after ∧
      inForce first changes (k + c.drop offset) = c.after := by
  induction changes generalizing first with
  | nil => cases mem
  | cons change changes ih =>
      obtain ⟨time, value⟩ := change
      rcases List.mem_cons.mp mem with rfl | mem
      · obtain ⟨reached, early⟩ := again
        simp only [Change.drop] at reached early ⊢
        have next : ∀ d ∈ changes.head?, offset first - offset value < d.1 - time := by
          intro d is_next
          cases changes with
          | nil => cases is_next
          | cons change changes =>
              cases Option.some.inj is_next
              exact (List.isChain_cons_cons.mp apart).1
        obtain ⟨by_reading, by_time⟩ := regular.out_of_reach (by omega) next
        refine ⟨?_, ?_⟩
        · rw [readings, List.map_cons, ← readings, inForce, if_neg (by dsimp only; omega)]
          exact by_reading _ (by omega)
        · rw [inForce, if_neg (by omega)]
          exact by_time _ (by omega)
      · obtain ⟨by_reading, by_time⟩ := ih regular.tail apart.tail mem
        obtain ⟨now, -⟩ := inForce_repeated regular.tail mem again
        obtain ⟨reached, early⟩ := again
        have later := regular.later mem
        have shown := regular.reading_le (k := k) (by omega)
        rw [now] at shown
        refine ⟨?_, ?_⟩
        · rw [readings, List.map_cons, ← readings, inForce, if_neg (by dsimp only; omega),
            by_reading]
        · rw [inForce, if_neg (by omega), by_time]

end Clock
