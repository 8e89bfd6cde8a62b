import Dbdky.Ordered.Lexicographic

/-!
`StringPiece` (`src/utils/StringPiece.h`): a piece of a string, with its comparisons.

Of `memcmp` only the sign of its result is known, so a `memcmp` is any comparison of byte
blocks.

* **`compares_lexicographically`.** `compare` and the six operators are the lexicographic
  order of the bytes, and `starts_with` finds out whether a piece is a prefix.
-/

namespace Dbdky

/-- The bytes it points to, counted by an `int`. -/
structure StringPiece where
  data : List UInt8
  length_lt : data.length < 2147483648
deriving DecidableEq

def StringPiece.size (s : StringPiece) : Int := s.data.length

@[ext] theorem StringPiece.ext {s t : StringPiece} (same : s.data = t.data) : s = t := by
  cases s
  cases t
  obtain rfl := same
  rfl

namespace StringPiece

/-- `memcmp`, which compares bytes as `unsigned char` -/
abbrev Memcmp := Lexicographic.BlockCompare UInt8

/-- The difference of the first two bytes that differ. -/
def difference : List UInt8 → List UInt8 → Nat → Int
  | a :: s, b :: t, n + 1 => if a = b then difference s t n else (a.toNat : Int) - b.toNat
  | _, _, _ => 0

theorem difference_iff {s t : List UInt8} {n : Nat} (in_s : n ≤ s.length) (in_t : n ≤ t.length) :
    (difference s t n < 0 ↔ Lexicographic.FirstLess s t n) ∧
      (0 < difference s t n ↔ Lexicographic.FirstLess t s n) := by
  induction n generalizing s t with
  | zero =>
      have zero : difference s t 0 = 0 := by cases s <;> cases t <;> rfl
      rw [zero]
      have none_less := @Lexicographic.not_firstLess_zero UInt8 _
      exact ⟨iff_of_false (Int.lt_irrefl 0) none_less, iff_of_false (Int.lt_irrefl 0) none_less⟩
  | succ n ih =>
      cases s with
      | nil => cases in_s
      | cons a s =>
          cases t with
          | nil => cases in_t
          | cons b t =>
              rw [Lexicographic.firstLess_cons, Lexicographic.firstLess_cons, difference]
              split
              · rename_i same
                subst same
                simpa using ih (Nat.le_of_succ_le_succ in_s) (Nat.le_of_succ_le_succ in_t)
              · rename_i differ
                have not_same : b ≠ a := Ne.symm differ
                simp only [differ, not_same, false_and, or_false, UInt8.lt_iff_toNat_lt]
                omega

/-- A `memcmp` -/
def Memcmp.bytewise : Memcmp where
  result := difference
  neg_iff in_s in_t := (difference_iff in_s in_t).1
  pos_iff in_s in_t := (difference_iff in_s in_t).2

section Code

variable (memcmp : Memcmp) (s x : StringPiece)

/-- `operator==` -/
def equal : Bool := s.size = x.size && memcmp.result s.data x.data s.size.toNat = 0

/-- `operator!=` -/
def notEqual : Bool := !equal memcmp s x

/-- `STRINGPIECE_BINARY_PREDICATE(cmp, auxcmp)` -/
def binaryPredicate (cmp auxcmp : Int → Int → Bool) : Bool :=
  let r := memcmp.result s.data x.data (if s.size < x.size then s.size else x.size).toNat
  auxcmp r 0 || (r = 0 && cmp s.size x.size)

/-- `operator<` -/
def less : Bool := binaryPredicate memcmp s x (· < ·) (· < ·)

/-- `operator<=` -/
def lessEqual : Bool := binaryPredicate memcmp s x (· ≤ ·) (· < ·)

/-- `operator>=` -/
def greaterEqual : Bool := binaryPredicate memcmp s x (· ≥ ·) (· > ·)

/-- `operator>` -/
def greater : Bool := binaryPredicate memcmp s x (· > ·) (· > ·)

def compare : Int :=
  let r := memcmp.result s.data x.data (if s.size < x.size then s.size else x.size).toNat
  if r = 0 then
    if s.size < x.size then -1
    else if s.size > x.size then 1
    else r
  else r

/-- `starts_with` -/
def startsWith : Bool :=
  s.size ≥ x.size && memcmp.result s.data x.data x.size.toNat = 0

end Code

/-! ### What they compare -/

section Order

variable (memcmp : Memcmp) (s x : StringPiece)

/-- The length that the operators pass to `memcmp`. -/
theorem common_eq :
    memcmp.result s.data x.data (if s.size < x.size then s.size else x.size).toNat =
      memcmp.common s.data x.data := by
  have length : (if s.size < x.size then s.size else x.size).toNat =
      min s.data.length x.data.length := by
    unfold size
    split <;> omega
  rw [length]
  rfl

theorem binaryPredicate_iff (cmp auxcmp : Int → Int → Bool) :
    binaryPredicate memcmp s x cmp auxcmp = true ↔
      auxcmp (memcmp.common s.data x.data) 0 = true ∨
        memcmp.common s.data x.data = 0 ∧ cmp s.size x.size = true := by
  simp only [binaryPredicate, common_eq, Bool.or_eq_true, Bool.and_eq_true, decide_eq_true_eq]

/-- The result of `memcmp`, and after that the lengths. -/
theorem compare_cases :
    (compare memcmp s x < 0 ↔ memcmp.common s.data x.data < 0 ∨
      memcmp.common s.data x.data = 0 ∧ s.size < x.size) ∧
    (compare memcmp s x = 0 ↔ memcmp.common s.data x.data = 0 ∧ s.size = x.size) ∧
    (0 < compare memcmp s x ↔ 0 < memcmp.common s.data x.data ∨
      memcmp.common s.data x.data = 0 ∧ x.size < s.size) := by
  simp only [compare, common_eq]
  split
  · split
    · omega
    · split <;> omega
  · omega

theorem compare_neg_iff : compare memcmp s x < 0 ↔ s.data < x.data := by
  rw [(compare_cases memcmp s x).1, Lexicographic.lt_iff memcmp, size, size, Int.ofNat_lt]

theorem compare_zero_iff : compare memcmp s x = 0 ↔ s.data = x.data := by
  rw [(compare_cases memcmp s x).2.1, Lexicographic.eq_iff memcmp, size, size, Int.ofNat_inj]

theorem compare_pos_iff : 0 < compare memcmp s x ↔ x.data < s.data := by
  rw [(compare_cases memcmp s x).2.2, Lexicographic.gt_iff memcmp, size, size, Int.ofNat_lt]

theorem equal_iff : equal memcmp s x = true ↔ s.data = x.data := by
  rw [equal, Bool.and_eq_true, decide_eq_true_eq, decide_eq_true_eq, size, size, Int.ofNat_inj,
    Int.toNat_natCast]
  constructor
  · rintro ⟨length, zero⟩
    have same := (memcmp.zero_iff (Nat.le_refl _) (Nat.le_of_eq length)).mp zero
    rwa [List.take_length, length, List.take_length] at same
  · intro same
    rw [same]
    exact ⟨rfl, (memcmp.zero_iff (Nat.le_refl _) (Nat.le_refl _)).mpr rfl⟩

theorem startsWith_iff : startsWith memcmp s x = true ↔ x.data <+: s.data := by
  rw [startsWith, Bool.and_eq_true, decide_eq_true_eq, decide_eq_true_eq, size, size,
    Int.toNat_natCast, List.prefix_iff_eq_take]
  constructor
  · rintro ⟨longer, zero⟩
    have same := (memcmp.zero_iff (Int.ofNat_le.mp longer) (Nat.le_refl _)).mp zero
    rw [List.take_length] at same
    exact same.symm
  · intro first
    have longer : x.data.length ≤ s.data.length := by
      have length := congrArg List.length first
      rw [List.length_take] at length
      omega
    refine ⟨Int.ofNat_le.mpr longer, (memcmp.zero_iff longer (Nat.le_refl _)).mpr ?_⟩
    rw [List.take_length]
    exact first.symm

theorem lessEqual_iff : lessEqual memcmp s x = true ↔ compare memcmp s x ≤ 0 := by
  obtain ⟨neg, zero, -⟩ := compare_cases memcmp s x
  have split : compare memcmp s x ≤ 0 ↔ compare memcmp s x < 0 ∨ compare memcmp s x = 0 := by
    omega
  rw [split, neg, zero, lessEqual, binaryPredicate_iff, decide_eq_true_eq, decide_eq_true_eq]
  omega

theorem greaterEqual_iff : greaterEqual memcmp s x = true ↔ 0 ≤ compare memcmp s x := by
  obtain ⟨-, zero, pos⟩ := compare_cases memcmp s x
  have split : 0 ≤ compare memcmp s x ↔ compare memcmp s x = 0 ∨ 0 < compare memcmp s x := by
    omega
  rw [split, zero, pos, greaterEqual, binaryPredicate_iff, decide_eq_true_eq, decide_eq_true_eq]
  omega

theorem less_iff : less memcmp s x = true ↔ compare memcmp s x < 0 := by
  rw [(compare_cases memcmp s x).1, less, binaryPredicate_iff, decide_eq_true_eq,
    decide_eq_true_eq]

theorem greater_iff : greater memcmp s x = true ↔ 0 < compare memcmp s x := by
  rw [(compare_cases memcmp s x).2.2, greater, binaryPredicate_iff, decide_eq_true_eq,
    decide_eq_true_eq]

end Order

/-- The pieces are ordered as their bytes are. -/
theorem less_strictTotalOrder (memcmp : Memcmp) :
    IsStrictTotalOrder StringPiece fun s x => less memcmp s x = true where
  trichotomous s x not_less not_greater := by
    rw [less_iff, compare_neg_iff] at not_less not_greater
    rcases Lexicographic.lt_or_eq_or_gt s.data x.data with less | same | greater
    · exact absurd less not_less
    · exact StringPiece.ext same
    · exact absurd greater not_greater
  irrefl s less := by
    rw [less_iff, compare_neg_iff] at less
    exact List.lt_irrefl _ less
  trans s x y first second := by
    rw [less_iff, compare_neg_iff] at first second ⊢
    exact List.lt_trans first second

/-- **The comparisons are the lexicographic order.** -/
theorem compares_lexicographically (memcmp : Memcmp) :
    (∀ s x : StringPiece,
      (compare memcmp s x < 0 ↔ s.data < x.data) ∧
      (compare memcmp s x = 0 ↔ s.data = x.data) ∧
      (0 < compare memcmp s x ↔ x.data < s.data)) ∧
    (∀ s x : StringPiece,
      (less memcmp s x = true ↔ compare memcmp s x < 0) ∧
      (lessEqual memcmp s x = true ↔ compare memcmp s x ≤ 0) ∧
      (greaterEqual memcmp s x = true ↔ compare memcmp s x ≥ 0) ∧
      (greater memcmp s x = true ↔ compare memcmp s x > 0) ∧
      (equal memcmp s x = true ↔ compare memcmp s x = 0) ∧
      (notEqual memcmp s x = true ↔ compare memcmp s x ≠ 0)) ∧
    (IsStrictTotalOrder StringPiece fun s x => less memcmp s x = true) ∧
    (∀ s x : StringPiece, lessEqual memcmp s x = true ↔ less memcmp s x = true ∨ s = x) ∧
    ∀ s x : StringPiece, startsWith memcmp s x = true ↔ x.data <+: s.data := by
  have equal_zero (s x : StringPiece) : equal memcmp s x = true ↔ compare memcmp s x = 0 := by
    rw [equal_iff, compare_zero_iff]
  refine ⟨fun s x => ⟨compare_neg_iff memcmp s x, compare_zero_iff memcmp s x,
    compare_pos_iff memcmp s x⟩, fun s x => ⟨less_iff memcmp s x, lessEqual_iff memcmp s x,
    greaterEqual_iff memcmp s x, greater_iff memcmp s x, equal_zero s x, ?_⟩,
    less_strictTotalOrder memcmp, fun s x => ?_, startsWith_iff memcmp⟩
  · rw [notEqual, Bool.not_eq_true', ← Bool.not_eq_true, equal_zero]
  · have same : s = x ↔ compare memcmp s x = 0 := by
      rw [compare_zero_iff]
      exact ⟨congrArg data, StringPiece.ext⟩
    rw [lessEqual_iff, less_iff, same]
    omega

example : compare .bytewise ⟨[0x61, 0xff], by decide⟩ ⟨[0x61], by decide⟩ = 1 ∧
    less .bytewise ⟨[0x61, 0x7f], by decide⟩ ⟨[0x61, 0xff], by decide⟩ = true := by decide

end StringPiece

end Dbdky
