import Mathlib.Tactic.Common

/-!
Loops that move a block of elements in pieces.

A call moves some of the elements that are left, is to be made again, or ends the loop. All
that the loop goes by is its position.

* **`take_append_pieces`.** The pieces are a prefix of the block, one behind the other.
* **`loop_position`, `loop_status`.** The loop gets as far as the calls before the first `stop`
  move it, and is complete exactly if that is the limit.
* **`loop_ends`.** It ends before it has made more effective calls than there are
  elements.
-/

namespace Transfer

/-- What a call does. -/
inductive Call where
  | moved (n : Nat)
  | again
  | stop
deriving DecidableEq, Repr

inductive Status where
  /-- The results of the calls are used up, and another call is due. -/
  | running
  | complete
  | stopped
deriving DecidableEq, Repr

/-- `while (position < limit)`: the position that is reached and how it goes on. -/
def loop (limit : Nat) : Nat → List Call → Nat × Status
  | position, [] => (position, if position < limit then .running else .complete)
  | position, call :: calls =>
      if position < limit then
        match call with
        | .moved n => loop limit (position + n) calls
        | .again => loop limit position calls
        | .stop => (position, .stopped)
      else (position, .complete)

/-- The pieces that are moved. -/
def pieces {α : Type*} (block : List α) (limit : Nat) : Nat → List Call → List (List α)
  | _, [] => []
  | position, call :: calls =>
      if position < limit then
        match call with
        | .moved n => (block.drop position).take n :: pieces block limit (position + n) calls
        | .again => pieces block limit position calls
        | .stop => []
      else []

/-- The elements that are moved before the first `stop`. -/
def moved : List Call → Nat
  | [] => 0
  | .moved n :: calls => n + moved calls
  | .again :: calls => moved calls
  | .stop :: _ => 0

/-- A call that moves anything moves at least one element, and no more than are left. -/
def Possible (limit : Nat) : Nat → List Call → Prop
  | _, [] => True
  | position, call :: calls =>
      position < limit →
        match call with
        | .moved n => 0 < n ∧ position + n ≤ limit ∧ Possible limit (position + n) calls
        | .again => Possible limit position calls
        | .stop => True

instance Possible.decidable (limit : Nat) :
    ∀ position calls, Decidable (Possible limit position calls)
  | _, [] => isTrue trivial
  | position, .moved n :: calls =>
      have := Possible.decidable limit (position + n) calls
      inferInstanceAs (Decidable (_ → _ ∧ _ ∧ _))
  | position, .again :: calls =>
      have := Possible.decidable limit position calls
      inferInstanceAs (Decidable (_ → _))
  | _, .stop :: _ => isTrue fun _ => trivial

section Loop

variable {limit position n : Nat} {calls : List Call}

theorem loop_of_le (reached : limit ≤ position) :
    loop limit position calls = (position, .complete) := by
  have not_less := Nat.not_lt.mpr reached
  cases calls with
  | nil => rw [loop, if_neg not_less]
  | cons call calls => exact if_neg not_less

theorem pieces_of_le {α : Type*} (block : List α) (reached : limit ≤ position) :
    pieces block limit position calls = [] := by
  cases calls with
  | nil => rfl
  | cons call calls => exact if_neg (Nat.not_lt.mpr reached)

theorem pieces_of_lt {α : Type*} (block : List α) (left : position < limit) (call : Call) :
    pieces block limit position (call :: calls) =
      match call with
      | .moved n => (block.drop position).take n :: pieces block limit (position + n) calls
      | .again => pieces block limit position calls
      | .stop => [] :=
  if_pos left

theorem loop_nil (left : position < limit) : loop limit position [] = (position, .running) := by
  rw [loop, if_pos left]

theorem loop_moved (left : position < limit) :
    loop limit position (.moved n :: calls) = loop limit (position + n) calls := by
  rw [loop, if_pos left]

theorem loop_again : loop limit position (.again :: calls) = loop limit position calls := by
  rw [loop]
  split
  · rfl
  · rename_i reached
    exact (loop_of_le (Nat.not_lt.mp reached)).symm

theorem loop_stop (left : position < limit) :
    loop limit position (.stop :: calls) = (position, .stopped) := by
  rw [loop, if_pos left]

/-- **The loop gets as far as the calls before the first `stop` move it.** -/
theorem loop_position (possible : Possible limit position calls) (inside : position ≤ limit) :
    (loop limit position calls).1 = min limit (position + moved calls) := by
  induction calls generalizing position with
  | nil => exact (Nat.min_eq_right inside).symm
  | cons call calls ih =>
      rcases Nat.eq_or_lt_of_le inside with rfl | left
      · rw [loop_of_le (Nat.le_refl _)]
        exact (Nat.min_eq_left (Nat.le_add_right ..)).symm
      · have possible := possible left
        cases call with
        | moved n =>
            obtain ⟨-, inside', possible⟩ := possible
            rw [loop_moved left, ih possible inside', moved, Nat.add_assoc]
        | again => rw [loop_again, ih possible inside, moved]
        | stop =>
            rw [loop_stop left, moved]
            exact (Nat.min_eq_right inside).symm

/-- **A loop is complete exactly if the calls before the first `stop` reach the limit.** -/
theorem loop_status :
    (loop limit position calls).2 =
      if limit ≤ position + moved calls then .complete
      else if .stop ∈ calls then .stopped else .running := by
  induction calls generalizing position with
  | nil =>
      rcases Nat.lt_or_ge position limit with left | reached
      · rw [loop_nil left, moved, Nat.add_zero, if_neg (Nat.not_le.mpr left),
          if_neg List.not_mem_nil]
      · rw [loop_of_le reached, moved, Nat.add_zero, if_pos reached]
  | cons call calls ih =>
      rcases Nat.lt_or_ge position limit with left | reached
      · cases call with
        | moved n =>
            have passed : Call.stop ∈ Call.moved n :: calls ↔ .stop ∈ calls :=
              List.mem_cons.trans (or_iff_right nofun)
            simp only [loop_moved left, ih, moved, Nat.add_assoc, passed]
        | again =>
            have passed : Call.stop ∈ Call.again :: calls ↔ .stop ∈ calls :=
              List.mem_cons.trans (or_iff_right nofun)
            simp only [loop_again, ih, moved, passed]
        | stop =>
            rw [loop_stop left, moved, Nat.add_zero, if_neg (Nat.not_le.mpr left),
              if_pos List.mem_cons_self]
      · rw [loop_of_le reached, if_pos (Nat.le_trans reached (Nat.le_add_right ..))]

/-- **The loop ends** before it has made more calls that are not repeated than there are elements
left. -/
theorem loop_ends (possible : Possible limit position calls)
    (many : limit ≤ position + calls.countP (· ≠ .again)) :
    (loop limit position calls).2 ≠ .running := by
  induction calls generalizing position with
  | nil =>
      have reached : limit ≤ position := many
      rw [loop_of_le reached]
      exact nofun
  | cons call calls ih =>
      rcases Nat.lt_or_ge position limit with left | reached
      · have possible := possible left
        cases call with
        | moved n =>
            obtain ⟨some_moved, -, possible⟩ := possible
            rw [loop_moved left]
            refine ih possible ?_
            rw [List.countP_cons_of_pos rfl] at many
            omega
        | again =>
            rw [loop_again]
            rw [List.countP_cons_of_neg (by decide)] at many
            exact ih possible many
        | stop =>
            rw [loop_stop left]
            exact nofun
      · rw [loop_of_le reached]
        exact nofun

/-- **The pieces are a prefix of the block**, one behind the other. -/
theorem take_append_pieces {α : Type*} (block : List α) :
    block.take position ++ (pieces block limit position calls).flatten =
      block.take (loop limit position calls).1 := by
  induction calls generalizing position with
  | nil => exact List.append_nil _
  | cons call calls ih =>
      rcases Nat.lt_or_ge position limit with left | reached
      · rw [pieces_of_lt block left]
        cases call with
        | moved n =>
            rw [loop_moved left, ← ih, List.flatten_cons, ← List.append_assoc, List.take_add]
        | again => rw [loop_again, ← ih]
        | stop =>
            rw [loop_stop left]
            exact List.append_nil _
      · rw [pieces_of_le block reached, loop_of_le reached]
        exact List.append_nil _

end Loop

end Transfer
