import Mathlib.Data.List.TakeWhile
import Mathlib.Tactic.Common

/-!
Binary search for the lower bound of a range.

`lowerBound below xs` is the search of `std::lower_bound`: it halves the range
that is left and asks whether the element in the middle is still `below`.

* **`lowerBound_append`.** It finds the border between the elements that are `below` and
  those that are not. Where none that is follows one that is not, there is such a border
  (`Partitioned.split`).
-/

namespace Ordered

variable {α : Type*}

/-- The search among the `len` elements from index `first` on, for at most `fuel` rounds. -/
def lowerBoundFrom (below : α → Bool) (xs : List α) : Nat → Nat → Nat → Nat
  | 0, first, _ => first
  | fuel + 1, first, len =>
      if len = 0 then first
      else
        match xs[first + len / 2]? with
        | none => first
        | some middle =>
            if below middle then
              lowerBoundFrom below xs fuel (first + len / 2 + 1) (len - len / 2 - 1)
            else lowerBoundFrom below xs fuel first (len / 2)

/-- `std::lower_bound`, as an index: every round makes the range shorter. -/
def lowerBound (below : α → Bool) (xs : List α) : Nat :=
  lowerBoundFrom below xs xs.length 0 xs.length

/-- No element that is `below` follows one that is not. -/
def Partitioned (below : α → Bool) (xs : List α) : Prop :=
  xs.Pairwise fun x y => below y = true → below x = true

/-- The border lies in the range that is left. -/
theorem lowerBoundFrom_eq {below : α → Bool} {before after : List α}
    (left : ∀ x ∈ before, below x = true) (right : ∀ x ∈ after, below x = false)
    {fuel first len : Nat} (enough : len ≤ fuel) (reached : first ≤ before.length)
    (inside : before.length ≤ first + len)
    (bound : first + len ≤ before.length + after.length) :
    lowerBoundFrom below (before ++ after) fuel first len = before.length := by
  induction fuel generalizing first len with
  | zero =>
      rw [lowerBoundFrom]
      omega
  | succ fuel ih =>
      rw [lowerBoundFrom]
      split
      · omega
      · rename_i more
        have middle : first + len / 2 < (before ++ after).length := by
          rw [List.length_append]
          omega
        rw [List.getElem?_eq_getElem middle]
        dsimp only
        by_cases early : first + len / 2 < before.length
        · have is_below : below (before ++ after)[first + len / 2] = true := by
            rw [List.getElem_append_left early]
            exact left _ (List.getElem_mem early)
          rw [if_pos is_below]
          exact ih (by omega) (by omega) (by omega) (by omega)
        · have not_below : below (before ++ after)[first + len / 2] = false := by
            rw [List.getElem_append_right (Nat.not_lt.mp early)]
            exact right _ (List.getElem_mem _)
          rw [if_neg (Bool.eq_false_iff.mp not_below)]
          exact ih (by omega) reached (by omega) (by omega)

theorem lowerBound_append {below : α → Bool} {before after : List α}
    (left : ∀ x ∈ before, below x = true) (right : ∀ x ∈ after, below x = false) :
    lowerBound below (before ++ after) = before.length := by
  have length : (before ++ after).length = before.length + after.length := List.length_append
  exact lowerBoundFrom_eq left right (Nat.le_refl _) (Nat.zero_le _) (by omega) (by omega)

/-- Behind the leading elements of a partitioned list no element is `below`. -/
theorem Partitioned.dropWhile {below : α → Bool} {xs : List α} (sorted : Partitioned below xs) :
    ∀ x ∈ xs.dropWhile below, below x = false := by
  induction xs with
  | nil => simp
  | cons y xs ih =>
      obtain ⟨first, rest⟩ := List.pairwise_cons.mp sorted
      rw [List.dropWhile_cons]
      split
      · exact ih rest
      · rename_i stop
        intro x mem
        rcases List.mem_cons.mp mem with rfl | later
        · exact Bool.eq_false_iff.mpr stop
        · exact Bool.eq_false_iff.mpr fun is_below => stop (first x later is_below)

theorem Partitioned.split {below : α → Bool} {xs : List α} (sorted : Partitioned below xs) :
    ∃ before after, xs = before ++ after ∧ (∀ x ∈ before, below x = true) ∧
      ∀ x ∈ after, below x = false :=
  ⟨xs.takeWhile below, xs.dropWhile below, List.takeWhile_append_dropWhile.symm,
    fun _ mem => List.mem_takeWhile_imp mem, sorted.dropWhile⟩

end Ordered
