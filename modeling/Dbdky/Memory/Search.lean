import Dbdky.Memory.Block

/-!
Searches in a block of memory.

* **`firstIn_search`.** A search for a pattern among the cells from one index to another
  finds the first occurrence that lies there in whole.
* **`memchr_eq_some_iff`.** A search for a cell among the next `len` cells reads them one
  after the other. It finds the first one; only where there is none do all of them have to
  lie in the block.
* **`memchr_overrun`.** What a search that reads on behind the end of a range has to find
  there, and not to find, to be right about the range.
-/

namespace Block

variable {α : Type*}

/-- The pattern lies in the cells from index `i` on. -/
def OccursAt (mem pattern : List α) (i : Nat) : Prop := pattern <+: mem.drop i

/-- The first occurrence that lies in the cells from `first` to before `last`; `none` if
there is none. -/
def FirstIn (mem pattern : List α) (first last : Nat) : Option Nat → Prop
  | some i =>
      first ≤ i ∧ i + pattern.length ≤ last ∧ OccursAt mem pattern i ∧
        ∀ j, first ≤ j → j < i → ¬OccursAt mem pattern j
  | none => ∀ i, first ≤ i → i + pattern.length ≤ last → ¬OccursAt mem pattern i

section

variable [DecidableEq α]

/-- `std::search`: the distance to the first occurrence, or to the end of the range. -/
def search (pattern : List α) : List α → Nat
  | [] => 0
  | cell :: cells => if pattern <+: cell :: cells then 0 else search pattern cells + 1

/-- `memchr(mem + i, c, len)`: where the first such cell lies, or `none` for the null
pointer. The cells behind it are not read. -/
def memchr (mem : List α) (c : α) : Nat → Nat → Option (Option Nat)
  | _, 0 => some none
  | i, len + 1 =>
      match mem[i]? with
      | none => none
      | some cell => if cell = c then some (some i) else memchr mem c (i + 1) len

end

/-! ### Occurrences -/

variable {mem pattern cells : List α} {c : α} {i first last len : Nat} {r : Option Nat}

theorem occursAt_singleton : OccursAt mem [c] i ↔ mem[i]? = some c := by
  rw [OccursAt, ← List.head?_drop]
  cases mem.drop i with
  | nil => simp
  | cons cell cells => simp [eq_comm]

/-- A cell of a range, as an occurrence. -/
theorem mem_range_iff :
    c ∈ (mem.drop first).take len ↔ ∃ i, first ≤ i ∧ i < first + len ∧ OccursAt mem [c] i := by
  simp only [List.mem_iff_getElem?, List.getElem?_take, List.getElem?_drop, occursAt_singleton]
  constructor
  · rintro ⟨k, found⟩
    obtain ⟨less, here⟩ := Option.ite_none_right_eq_some.mp found
    exact ⟨first + k, Nat.le_add_right _ _, Nat.add_lt_add_left less _, here⟩
  · rintro ⟨i, after, before, here⟩
    obtain ⟨k, rfl⟩ := Nat.exists_eq_add_of_le after
    exact ⟨k, by rw [if_pos (Nat.lt_of_add_lt_add_left before), here]⟩

/-- An occurrence in the cells of a range lies in the range. -/
theorem prefix_range_iff (i : Nat) :
    pattern <+: ((mem.drop first).take (last - first)).drop i ↔
      OccursAt mem pattern (first + i) ∧ pattern.length ≤ last - first - i := by
  rw [List.drop_take, List.drop_drop, List.prefix_take_iff, OccursAt]

/-- The end may move further once there is an occurrence. -/
theorem FirstIn.extend {last' : Nat} (found : FirstIn mem pattern first last (some i))
    (further : last ≤ last') : FirstIn mem pattern first last' (some i) := by
  obtain ⟨after, fits, occurs, before⟩ := found
  exact ⟨after, Nat.le_trans fits further, occurs, before⟩

/-- A range without an occurrence. -/
theorem firstIn_nowhere
    (nowhere : ∀ i, first ≤ i → i + pattern.length ≤ last → ¬OccursAt mem pattern i) :
    FirstIn mem pattern first last r ↔ r = none := by
  constructor
  · intro found
    cases r with
    | none => rfl
    | some i =>
        obtain ⟨after, fits, occurs, -⟩ := found
        exact absurd occurs (nowhere i after fits)
  · rintro rfl
    exact nowhere

/-- A range that begins with an occurrence. -/
theorem firstIn_here (occurs : OccursAt mem pattern first) (fits : first + pattern.length ≤ last) :
    FirstIn mem pattern first last r ↔ r = some first := by
  constructor
  · intro found
    cases r with
    | none => exact absurd occurs (found first (Nat.le_refl _) fits)
    | some i =>
        obtain ⟨after, -, -, before⟩ := found
        have same : ¬first < i := fun less => before first (Nat.le_refl _) less occurs
        rw [Nat.le_antisymm (Nat.not_lt.mp same) after]
  · rintro rfl
    refine ⟨Nat.le_refl _, fits, occurs, ?_⟩
    intro j after before
    exact absurd after (Nat.not_le.mpr before)

/-- The beginning may move on where nothing occurs. -/
theorem firstIn_next (elsewhere : ¬OccursAt mem pattern first) :
    FirstIn mem pattern first last r ↔ FirstIn mem pattern (first + 1) last r := by
  have later {j : Nat} (occurs : OccursAt mem pattern j) (after : first ≤ j) : first + 1 ≤ j := by
    apply Nat.lt_of_le_of_ne after
    rintro rfl
    exact elsewhere occurs
  cases r with
  | none =>
      constructor
      · intro missed i after
        exact missed i (Nat.le_of_succ_le after)
      · intro missed i after fits occurs
        exact missed i (later occurs after) fits occurs
  | some i =>
      constructor
      · rintro ⟨after, fits, occurs, before⟩
        exact ⟨later occurs after, fits, occurs, fun j h => before j (Nat.le_of_succ_le h)⟩
      · rintro ⟨after, fits, occurs, before⟩
        refine ⟨Nat.le_of_succ_le after, fits, occurs, ?_⟩
        intro j after' less occurs'
        exact before j (later occurs' after') less occurs'

/-! ### `std::search` -/

section

variable [DecidableEq α]

theorem search_le (pattern cells : List α) : search pattern cells ≤ cells.length := by
  induction cells with
  | nil => exact Nat.le_refl 0
  | cons cell cells ih =>
      rw [search]
      split
      · exact Nat.zero_le _
      · exact Nat.succ_le_succ ih

theorem prefix_drop_search (found : search pattern cells < cells.length) :
    pattern <+: cells.drop (search pattern cells) := by
  induction cells with
  | nil => cases found
  | cons cell cells ih =>
      rw [search] at found ⊢
      split
      · rename_i here
        exact here
      · rename_i elsewhere
        rw [if_neg elsewhere] at found
        exact ih (Nat.lt_of_succ_lt_succ found)

theorem not_prefix_of_lt_search (before : i < search pattern cells) :
    ¬pattern <+: cells.drop i := by
  induction cells generalizing i with
  | nil => cases before
  | cons cell cells ih =>
      rw [search] at before
      split at before
      · cases before
      · rename_i elsewhere
        cases i with
        | zero => exact elsewhere
        | succ i => exact ih (Nat.lt_of_succ_lt_succ before)

/-- **Search.** Whatever is compared with `last` afterwards finds the first occurrence. -/
theorem firstIn_search (nonempty : pattern ≠ []) (ordered : first ≤ last)
    (inside : last ≤ mem.length) :
    FirstIn mem pattern first last
      (if first + search pattern ((mem.drop first).take (last - first)) = last then none
        else some (first + search pattern ((mem.drop first).take (last - first)))) := by
  have length : ((mem.drop first).take (last - first)).length = last - first := by
    rw [List.length_take, List.length_drop]
    omega
  have bound := search_le pattern ((mem.drop first).take (last - first))
  rw [length] at bound
  have positive : 0 < pattern.length := List.length_pos_iff.mpr nonempty
  split
  · rename_i missed
    intro i after fits occurs
    obtain ⟨k, rfl⟩ := Nat.exists_eq_add_of_le after
    have before : k < search pattern ((mem.drop first).take (last - first)) := by omega
    exact not_prefix_of_lt_search before ((prefix_range_iff k).mpr ⟨occurs, by omega⟩)
  · rename_i found
    have less : search pattern ((mem.drop first).take (last - first)) <
        ((mem.drop first).take (last - first)).length := by omega
    obtain ⟨occurs, fits⟩ := (prefix_range_iff _).mp (prefix_drop_search less)
    refine ⟨Nat.le_add_right _ _, by omega, occurs, ?_⟩
    intro j after before occurs'
    obtain ⟨k, rfl⟩ := Nat.exists_eq_add_of_le after
    exact not_prefix_of_lt_search (Nat.lt_of_add_lt_add_left before)
      ((prefix_range_iff k).mpr ⟨occurs', by omega⟩)

theorem exists_firstIn (nonempty : pattern ≠ []) (ordered : first ≤ last)
    (inside : last ≤ mem.length) : ∃ r, FirstIn mem pattern first last r :=
  ⟨_, firstIn_search nonempty ordered inside⟩

/-! ### `memchr` -/

theorem memchr_eq_some_iff (start : i ≤ mem.length) :
    memchr mem c i len = some r ↔
      FirstIn mem [c] i (i + len) r ∧ (r = none → i + len ≤ mem.length) := by
  induction len generalizing i with
  | zero =>
      have empty : FirstIn mem [c] i (i + 0) r ↔ r = none := by
        apply firstIn_nowhere
        intro j after fits
        exact absurd fits (Nat.not_le.mpr (Nat.lt_succ_of_le after))
      rw [empty, memchr, Option.some.injEq, eq_comm, iff_self_and]
      exact fun _ _ => start
  | succ len ih =>
      rw [memchr]
      cases read : mem[i]? with
      | none =>
          have past : mem.length ≤ i := List.getElem?_eq_none_iff.mp read
          have beyond : FirstIn mem [c] i (i + (len + 1)) r ↔ r = none := by
            apply firstIn_nowhere
            intro j after fits occurs
            have inside := (List.getElem?_eq_some_iff.mp (occursAt_singleton.mp occurs)).1
            exact absurd (Nat.le_trans past after) (Nat.not_le.mpr inside)
          rw [beyond]
          apply iff_of_false
          · intro found
            cases found
          · rintro ⟨none, inside⟩
            have := inside none
            omega
      | some cell =>
          have next : i + 1 ≤ mem.length := (List.getElem?_eq_some_iff.mp read).1
          dsimp only
          split
          · rename_i here
            have occurs : OccursAt mem [c] i := occursAt_singleton.mpr (here ▸ read)
            rw [firstIn_here occurs (Nat.add_le_add_left (Nat.le_add_left 1 len) i)]
            constructor
            · intro found
              cases found
              exact ⟨rfl, fun h => by cases h⟩
            · rintro ⟨rfl, -⟩
              rfl
          · rename_i other
            have elsewhere : ¬OccursAt mem [c] i := by
              rw [occursAt_singleton, read]
              exact fun same => other (Option.some.inj same)
            rw [firstIn_next elsewhere, ih next, Nat.add_right_comm, Nat.add_assoc]

/-- **Reading on.** A search from `first` that reads on behind `last` is right about the
cells before `last` if it stops there, or if it finds nothing in the cells it reads on. -/
theorem memchr_overrun (ordered : first ≤ last) (inside : last ≤ mem.length)
    (further : last ≤ first + len) :
    (∃ r, memchr mem c first len = some r ∧ FirstIn mem [c] first last r) ↔
      c ∈ (mem.drop first).take (last - first) ∨
        first + len ≤ mem.length ∧ c ∉ (mem.drop last).take (first + len - last) := by
  have start : first ≤ mem.length := Nat.le_trans ordered inside
  constructor
  · rintro ⟨r, found, right⟩
    obtain ⟨found, read⟩ := (memchr_eq_some_iff start).mp found
    cases r with
    | some i =>
        obtain ⟨after, fits, occurs, -⟩ := right
        rw [List.length_singleton] at fits
        exact .inl (mem_range_iff.mpr ⟨i, after, by omega, occurs⟩)
    | none =>
        refine .inr ⟨read rfl, ?_⟩
        intro behind
        obtain ⟨i, after, before, occurs⟩ := mem_range_iff.mp behind
        refine found i (Nat.le_trans ordered after) ?_ occurs
        rw [List.length_singleton]
        omega
  · intro condition
    obtain ⟨r, right⟩ := exists_firstIn (List.cons_ne_nil c []) ordered inside
    refine ⟨r, (memchr_eq_some_iff start).mpr ?_, right⟩
    cases r with
    | some i =>
        exact ⟨right.extend further, fun h => by cases h⟩
    | none =>
        obtain here | ⟨read, behind⟩ := condition
        · obtain ⟨i, after, before, occurs⟩ := mem_range_iff.mp here
          refine absurd occurs (right i after ?_)
          rw [List.length_singleton]
          omega
        · refine ⟨?_, fun _ => read⟩
          intro i after fits occurs
          rw [List.length_singleton] at fits
          by_cases before : i < last
          · exact right i after before occurs
          · exact behind (mem_range_iff.mpr ⟨i, Nat.not_lt.mp before, by omega, occurs⟩)

end

end Block
