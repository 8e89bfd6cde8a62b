import Mathlib.Order.Defs.Unbundled
import Mathlib.Tactic.Common

/-!
Comparing lists block by block.

A block comparison tells from its sign how the first `n` elements of two lists compare:
the first pair that differs decides. Lists as a whole are compared by the block they have
in common, and after that by their lengths.

* **`lt_iff`, `eq_iff`.** This is the lexicographic order, in which a proper prefix comes
  first.
-/

namespace Lexicographic

variable {α : Type*} [LT α] {s t : List α} {n : Nat}

/-- Within the first `n` elements the first difference has the smaller one in `s`. -/
def FirstLess (s t : List α) (n : Nat) : Prop :=
  ∃ i < n, s.take i = t.take i ∧ ∃ x y, s[i]? = some x ∧ t[i]? = some y ∧ x < y

/-- A function whose sign tells how the first `n` elements of two lists compare. -/
structure BlockCompare (α : Type*) [LT α] where
  result : List α → List α → Nat → Int
  neg_iff : ∀ {s t n}, n ≤ s.length → n ≤ t.length → (result s t n < 0 ↔ FirstLess s t n)
  pos_iff : ∀ {s t n}, n ≤ s.length → n ≤ t.length → (0 < result s t n ↔ FirstLess t s n)

theorem not_firstLess_zero : ¬ FirstLess s t 0 := by
  rintro ⟨i, below, -⟩
  exact Nat.not_lt_zero i below

/-- Either the first pair differs, or the rest decides. -/
theorem firstLess_cons {a b : α} :
    FirstLess (a :: s) (b :: t) (n + 1) ↔ a < b ∨ a = b ∧ FirstLess s t n := by
  constructor
  · rintro ⟨i, below, before, x, y, at_s, at_t, less⟩
    cases i with
    | zero =>
        cases at_s
        cases at_t
        exact .inl less
    | succ i =>
        obtain ⟨first, before⟩ := List.cons_eq_cons.mp before
        exact .inr ⟨first, i, Nat.lt_of_succ_lt_succ below, before, x, y, at_s, at_t, less⟩
  · rintro (less | ⟨rfl, i, below, before, x, y, at_s, at_t, less⟩)
    · exact ⟨0, Nat.succ_pos n, rfl, a, b, rfl, rfl, less⟩
    · refine ⟨i + 1, Nat.succ_lt_succ below, ?_, x, y, at_s, at_t, less⟩
      rw [List.take_succ_cons, List.take_succ_cons, before]

omit [LT α] in
theorem take_eq_take_iff {i : Nat} (in_s : i ≤ s.length) (in_t : i ≤ t.length) :
    s.take i = t.take i ↔ ∀ (j : Nat) (below : j < i), s[j] = t[j] := by
  constructor
  · intro same j below
    have at_j := congrArg (·[j]?) same
    simpa [List.getElem?_take_of_lt below, below, Nat.lt_of_lt_of_le below in_s,
      Nat.lt_of_lt_of_le below in_t] using at_j
  · intro pointwise
    apply List.ext_getElem
    · rw [List.length_take_of_le in_s, List.length_take_of_le in_t]
    · intro j first second
      rw [List.length_take_of_le in_s] at first
      rw [List.getElem_take, List.getElem_take]
      exact pointwise j first

/-- A list comes first if the first difference says so, or if it is a proper prefix. -/
theorem lt_iff_firstLess : s < t ↔
    FirstLess s t (min s.length t.length) ∨
      s.take (min s.length t.length) = t.take (min s.length t.length) ∧ s.length < t.length := by
  rw [List.lt_iff_exists]
  constructor
  · rintro (⟨whole, shorter⟩ | ⟨i, in_s, in_t, before, less⟩)
    · refine .inr ⟨?_, shorter⟩
      rw [Nat.min_eq_left (Nat.le_of_lt shorter), List.take_length]
      exact whole
    · refine .inl ⟨i, Nat.lt_min.mpr ⟨in_s, in_t⟩, ?_, _, _, List.getElem?_eq_getElem in_s,
        List.getElem?_eq_getElem in_t, less⟩
      exact (take_eq_take_iff (Nat.le_of_lt in_s) (Nat.le_of_lt in_t)).mpr before
  · rintro (⟨i, below, before, x, y, at_s, at_t, less⟩ | ⟨common, shorter⟩)
    · obtain ⟨in_s, rfl⟩ := List.getElem?_eq_some_iff.mp at_s
      obtain ⟨in_t, rfl⟩ := List.getElem?_eq_some_iff.mp at_t
      refine .inr ⟨i, in_s, in_t, ?_, less⟩
      exact (take_eq_take_iff (Nat.le_of_lt in_s) (Nat.le_of_lt in_t)).mp before
    · rw [Nat.min_eq_left (Nat.le_of_lt shorter), List.take_length] at common
      exact .inl ⟨common, shorter⟩

/-- Of blocks of one length the first difference is all that counts. -/
theorem firstLess_iff (in_s : n ≤ s.length) (in_t : n ≤ t.length) :
    FirstLess s t n ↔ s.take n < t.take n := by
  have length_s := List.length_take_of_le in_s
  have length_t := List.length_take_of_le in_t
  rw [lt_iff_firstLess, length_s, length_t, Nat.min_self, or_iff_left fun h => Nat.lt_irrefl n h.2]
  constructor
  · rintro ⟨i, below, before, x, y, at_s, at_t, less⟩
    refine ⟨i, below, ?_, x, y, ?_, ?_, less⟩
    · rwa [List.take_take, List.take_take, Nat.min_eq_left (Nat.le_of_lt below)]
    · rwa [List.getElem?_take_of_lt below]
    · rwa [List.getElem?_take_of_lt below]
  · rintro ⟨i, below, before, x, y, at_s, at_t, less⟩
    rw [List.take_take, List.take_take, Nat.min_eq_left (Nat.le_of_lt below)] at before
    rw [List.getElem?_take_of_lt below] at at_s at_t
    exact ⟨i, below, before, x, y, at_s, at_t, less⟩

section Total

variable [Std.Irrefl (α := α) (· < ·)] [Std.Asymm (α := α) (· < ·)]
  [Std.Trichotomous (α := α) (· < ·)]

theorem lt_or_eq_or_gt (s t : List α) : s < t ∨ s = t ∨ t < s := by
  by_cases less : s < t
  · exact .inl less
  · rcases List.le_iff_lt_or_eq.mp (List.not_lt.mp less) with greater | same
    · exact .inr (.inr greater)
    · exact .inr (.inl same.symm)

variable (c : BlockCompare α)

theorem BlockCompare.zero_iff (in_s : n ≤ s.length) (in_t : n ≤ t.length) :
    c.result s t n = 0 ↔ s.take n = t.take n := by
  have neg := (c.neg_iff in_s in_t).trans (firstLess_iff in_s in_t)
  have pos := (c.pos_iff in_s in_t).trans (firstLess_iff in_t in_s)
  constructor
  · intro zero
    rcases lt_or_eq_or_gt (s.take n) (t.take n) with less | same | greater
    · have := neg.mpr less
      omega
    · exact same
    · have := pos.mpr greater
      omega
  · intro same
    rw [same] at neg pos
    have not_neg := mt neg.mp (List.lt_irrefl _)
    have not_pos := mt pos.mp (List.lt_irrefl _)
    omega

/-- The result for the block that two lists have in common. -/
def BlockCompare.common (s t : List α) : Int := c.result s t (min s.length t.length)

/-- **The order by common block and length is the lexicographic one.** -/
theorem lt_iff : s < t ↔ c.common s t < 0 ∨ c.common s t = 0 ∧ s.length < t.length := by
  have in_s := Nat.min_le_left s.length t.length
  have in_t := Nat.min_le_right s.length t.length
  rw [BlockCompare.common, c.neg_iff in_s in_t, c.zero_iff in_s in_t]
  exact lt_iff_firstLess

theorem gt_iff : t < s ↔ 0 < c.common s t ∨ c.common s t = 0 ∧ t.length < s.length := by
  have in_s := Nat.min_le_left s.length t.length
  have in_t := Nat.min_le_right s.length t.length
  rw [BlockCompare.common, c.pos_iff in_s in_t, c.zero_iff in_s in_t, lt_iff_firstLess,
    Nat.min_comm, eq_comm]

theorem eq_iff : s = t ↔ c.common s t = 0 ∧ s.length = t.length := by
  have in_s := Nat.min_le_left s.length t.length
  have in_t := Nat.min_le_right s.length t.length
  rw [BlockCompare.common, c.zero_iff in_s in_t]
  constructor
  · rintro rfl
    exact ⟨rfl, rfl⟩
  · rintro ⟨common, length⟩
    rw [length, Nat.min_self, List.take_length, ← length, List.take_length] at common
    exact common

end Total

end Lexicographic
