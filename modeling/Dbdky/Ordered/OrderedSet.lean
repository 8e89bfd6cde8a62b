import Mathlib.Data.List.Sort
import Mathlib.Data.List.TakeWhile

/-!
Sets of ordered elements, kept as a strictly increasing list.

The list is what iteration sees, and it decides which element comes first and where a
lower bound lies. That it is strictly increasing is a field, so every operation leaves a
set.

* **Membership** (`mem_insert`, `mem_erase`, `mem_below`, `mem_notBelow`) says what an
  operation does to the set.
* **Order** (`first?_le`, `below_append_notBelow`) says where elements stand.
* **`perm_insert`** counts: nothing is stored twice.
-/

/-- A strictly increasing list. -/
structure OrderedSet (α : Type*) [LinearOrder α] where
  toList : List α
  sorted : toList.Pairwise (· < ·)

namespace OrderedSet

variable {α : Type*} [LinearOrder α]

instance : Membership α (OrderedSet α) := ⟨fun s a => a ∈ s.toList⟩

instance (a : α) (s : OrderedSet α) : Decidable (a ∈ s) :=
  inferInstanceAs (Decidable (a ∈ s.toList))

@[simp] theorem mem_toList {a : α} {s : OrderedSet α} : a ∈ s.toList ↔ a ∈ s := Iff.rfl

theorem nodup (s : OrderedSet α) : s.toList.Nodup := s.sorted.imp fun less => ne_of_lt less

def empty : OrderedSet α := ⟨[], .nil⟩

@[simp] theorem not_mem_empty (a : α) : a ∉ (empty : OrderedSet α) := List.not_mem_nil

/-- Inserting a new element where it belongs keeps a list strictly increasing. -/
theorem pairwise_orderedInsert {l : List α} {a : α} (sorted : l.Pairwise (· < ·)) (new : a ∉ l) :
    (l.orderedInsert (· ≤ ·) a).Pairwise (· < ·) := by
  have weak : (l.orderedInsert (· ≤ ·) a).Pairwise (· ≤ ·) :=
    List.Pairwise.orderedInsert a l (sorted.imp le_of_lt)
  have distinct : (l.orderedInsert (· ≤ ·) a).Nodup := by
    rw [(List.perm_orderedInsert (· ≤ ·) a l).nodup_iff, List.nodup_cons]
    exact ⟨new, sorted.imp fun less => ne_of_lt less⟩
  exact weak.imp₂ (fun _ _ le ne => lt_of_le_of_ne le ne) distinct

/-- Insert an element; a set that holds it already stays as it is. -/
def insert (s : OrderedSet α) (a : α) : OrderedSet α :=
  if held : a ∈ s then s
  else ⟨s.toList.orderedInsert (· ≤ ·) a, pairwise_orderedInsert s.sorted held⟩

def erase (s : OrderedSet α) (a : α) : OrderedSet α :=
  ⟨s.toList.erase a, s.sorted.sublist List.erase_sublist⟩

/-- The least element. -/
def first? (s : OrderedSet α) : Option α := s.toList.head?

/-- The elements before the lower bound of `a`, in order. -/
def below (s : OrderedSet α) (a : α) : List α := s.toList.takeWhile (· < a)

/-- The elements from the lower bound of `a` on. -/
def notBelow (s : OrderedSet α) (a : α) : OrderedSet α :=
  ⟨s.toList.dropWhile (· < a), s.sorted.sublist (List.dropWhile_sublist _)⟩

variable {s : OrderedSet α} {a b : α}

/-! ### Membership -/

theorem perm_insert (new : a ∉ s) : (s.insert a).toList.Perm (a :: s.toList) := by
  rw [insert, dif_neg new]
  exact List.perm_orderedInsert (· ≤ ·) a s.toList

@[simp] theorem mem_insert : b ∈ s.insert a ↔ b = a ∨ b ∈ s := by
  by_cases held : a ∈ s
  · rw [insert, dif_pos held]
    constructor
    · exact .inr
    · rintro (rfl | mem)
      · exact held
      · exact mem
  · rw [← mem_toList, (perm_insert held).mem_iff, List.mem_cons, mem_toList]

@[simp] theorem mem_erase : b ∈ s.erase a ↔ b ≠ a ∧ b ∈ s := s.nodup.mem_erase_iff

theorem below_append_notBelow (s : OrderedSet α) (a : α) :
    s.below a ++ (s.notBelow a).toList = s.toList :=
  List.takeWhile_append_dropWhile

theorem below_sorted (s : OrderedSet α) (a : α) : (s.below a).Pairwise (· < ·) :=
  s.sorted.sublist (List.takeWhile_sublist _)

theorem lt_of_mem_below (mem : b ∈ s.below a) : b < a := by
  simpa using List.mem_takeWhile_imp mem

/-- What the lower bound leaves out is not smaller. -/
theorem le_of_mem_notBelow (mem : b ∈ s.notBelow a) : a ≤ b := by
  obtain ⟨l, sorted⟩ := s
  change b ∈ l.dropWhile (· < a) at mem
  induction l with
  | nil => simp at mem
  | cons x xs ih =>
      obtain ⟨before, sorted⟩ := List.pairwise_cons.mp sorted
      by_cases less : x < a
      · rw [List.dropWhile_cons_of_pos (by simpa using less)] at mem
        exact ih sorted mem
      · rw [List.dropWhile_cons_of_neg (by simpa using less)] at mem
        rcases List.mem_cons.mp mem with rfl | mem
        · exact not_lt.mp less
        · exact (not_lt.mp less).trans (before b mem).le

theorem mem_iff_mem_below_or : b ∈ s ↔ b ∈ s.below a ∨ b ∈ s.notBelow a := by
  rw [← mem_toList, ← below_append_notBelow s a, List.mem_append, mem_toList]

@[simp] theorem mem_below : b ∈ s.below a ↔ b ∈ s ∧ b < a := by
  constructor
  · exact fun mem => ⟨mem_iff_mem_below_or.mpr (.inl mem), lt_of_mem_below mem⟩
  · rintro ⟨mem, less⟩
    exact (mem_iff_mem_below_or.mp mem).resolve_right
      fun late => absurd less (not_lt.mpr (le_of_mem_notBelow late))

@[simp] theorem mem_notBelow : b ∈ s.notBelow a ↔ b ∈ s ∧ a ≤ b := by
  constructor
  · exact fun mem => ⟨mem_iff_mem_below_or.mpr (.inr mem), le_of_mem_notBelow mem⟩
  · rintro ⟨mem, le⟩
    exact (mem_iff_mem_below_or.mp mem).resolve_left
      fun early => absurd (lt_of_mem_below early) (not_lt.mpr le)

/-! ### The least element -/

theorem first?_eq_none : s.first? = none ↔ s.toList = [] := List.head?_eq_none_iff

theorem first?_mem (first : s.first? = some a) : a ∈ s := List.mem_of_head? first

theorem first?_le (first : s.first? = some a) (mem : b ∈ s) : a ≤ b := by
  obtain ⟨l, sorted⟩ := s
  cases l with
  | nil => simp [first?] at first
  | cons x xs =>
      obtain rfl : x = a := by simpa [first?] using first
      rcases List.mem_cons.mp mem with rfl | mem
      · exact le_refl _
      · exact ((List.pairwise_cons.mp sorted).1 b mem).le

theorem exists_first? (mem : b ∈ s) : ∃ a, s.first? = some a ∧ a ≤ b := by
  cases first : s.first? with
  | none =>
      rw [first?_eq_none] at first
      exact absurd mem (by simp [← mem_toList, first])
  | some a => exact ⟨a, rfl, first?_le first mem⟩

end OrderedSet
