import Mathlib.Data.List.Basic
import Mathlib.Data.List.Nodup
import Mathlib.Logic.Function.Basic

/-!
An array of slots whose owners remember their position.

Each slot belongs to one owner, and each owner that has a slot knows its index. Appending
a slot tells the new owner the last index; a slot is removed by moving the last one into
its place and telling the owner of the moved slot.

* **`Indexed`.** The two views agree. It is kept by both operations (`Indexed.push`,
  `Indexed.swapRemove`), and no owner has two slots (`Indexed.nodup`).
* **`content`.** Seen through the indices, the array is a map from owners to slots, and the
  operations change it at one owner (`content_push`, `content_set`, `content_swapRemove`).
-/

namespace SlotArray

variable {α κ : Type*}

/-- The last slot takes the place of the `i`-th one. -/
def swapRemove (xs : List α) (i : Nat) : List α :=
  match xs.getLast? with
  | none => []
  | some last => (xs.set i last).dropLast

theorem getElem?_swapRemove {xs : List α} {i : Nat} (valid : i < xs.length) (j : Nat) :
    (swapRemove xs i)[j]? =
      if j < xs.length - 1 then xs[if j = i then xs.length - 1 else j]? else none := by
  have last : xs.getLast? = xs[xs.length - 1]? := List.getLast?_eq_getElem?
  have final : xs.length - 1 < xs.length := by omega
  rw [List.getElem?_eq_getElem final] at last
  simp only [swapRemove, last, List.getElem?_dropLast, List.length_set]
  split
  · rw [List.getElem?_set]
    split
    · rename_i same
      subst same
      rw [if_pos rfl, List.getElem?_eq_getElem final]
    · rename_i other
      rw [if_neg fun same => other same.symm]
  · rfl

theorem map_swapRemove {β : Type*} (f : α → β) (xs : List α) (i : Nat) :
    (swapRemove xs i).map f = swapRemove (xs.map f) i := by
  simp only [swapRemove, List.getLast?_map]
  cases xs.getLast? with
  | none => rfl
  | some last => simp only [Option.map_some, List.map_dropLast, List.map_set]

/-- An array with a slot has a last one. -/
theorem exists_last {xs : List α} {i : Nat} {x : α} (at_i : xs[i]? = some x) :
    ∃ last, xs.getLast? = some last := by
  refine Option.ne_none_iff_exists'.mp fun none => ?_
  rw [List.getLast?_eq_none_iff.mp none] at at_i
  cases at_i

/-- Removing the last slot moves nothing. -/
theorem swapRemove_last (xs : List α) : swapRemove xs (xs.length - 1) = xs.dropLast := by
  rcases List.eq_nil_or_concat xs with rfl | ⟨front, last, rfl⟩
  · rfl
  · simp [swapRemove]

/-- `owners` lists the owners of the slots, and `index` is what each owner remembers. -/
def Indexed (owners : List κ) (index : κ → Option Nat) : Prop :=
  ∀ k i, index k = some i ↔ owners[i]? = some k

variable {owners : List κ} {index : κ → Option Nat} {k : κ} {i : Nat}

theorem Indexed.nil : Indexed ([] : List κ) fun _ => none := by
  intro k i
  simp

theorem Indexed.lt (indexed : Indexed owners index) (found : index k = some i) :
    i < owners.length :=
  (List.getElem?_eq_some_iff.mp ((indexed k i).mp found)).1

theorem Indexed.nodup (indexed : Indexed owners index) : owners.Nodup := by
  rw [List.nodup_iff_getElem?_ne_getElem?]
  intro i j lt bound same
  obtain ⟨k, at_j⟩ : ∃ k, owners[j]? = some k := ⟨_, List.getElem?_eq_getElem bound⟩
  have first := (indexed k i).mpr (same.trans at_j)
  have second := (indexed k j).mpr at_j
  have := Option.some.inj (first.symm.trans second)
  omega

variable [DecidableEq κ]

/-- A new owner gets the slot behind the others. -/
theorem Indexed.push (indexed : Indexed owners index) (fresh : index k = none) :
    Indexed (owners ++ [k]) (Function.update index k (some owners.length)) := by
  intro g j
  by_cases same : g = k
  · subst same
    rw [Function.update_self, List.getElem?_append]
    split
    · rename_i lt
      constructor
      · intro equal
        have := Option.some.inj equal
        omega
      · intro slot
        have := (indexed g j).mpr slot
        rw [fresh] at this
        cases this
    · rw [List.getElem?_singleton]
      constructor
      · intro equal
        have := Option.some.inj equal
        rw [if_pos (by omega)]
      · intro slot
        by_cases zero : j - owners.length = 0
        · rw [show owners.length = j by omega]
        · rw [if_neg zero] at slot
          cases slot
  · rw [Function.update_of_ne same, indexed g j, List.getElem?_append]
    split
    · rfl
    · rename_i beyond
      rw [List.getElem?_eq_none (by omega), List.getElem?_singleton]
      constructor
      · intro impossible
        cases impossible
      · intro slot
        split at slot
        · exact absurd (Option.some.inj slot).symm same
        · cases slot

/-- The slot of `k` is removed, and the owner of the last slot is told its new place. -/
theorem Indexed.swapRemove {last : κ} (indexed : Indexed owners index) (found : index k = some i)
    (at_end : owners.getLast? = some last) :
    Indexed (swapRemove owners i)
      (Function.update (Function.update index last (some i)) k none) := by
  have valid := indexed.lt found
  rw [List.getLast?_eq_getElem?] at at_end
  have end_index := (indexed last _).mpr at_end
  intro g j
  rw [getElem?_swapRemove valid]
  by_cases removed : g = k
  · subst removed
    rw [Function.update_self]
    constructor
    · intro impossible
      cases impossible
    · intro slot
      split at slot
      · have := (indexed g _).mpr slot
        have := Option.some.inj (this.symm.trans found)
        split at this <;> omega
      · cases slot
  · rw [Function.update_of_ne removed]
    by_cases moved : g = last
    · subst moved
      rw [Function.update_self]
      have elsewhere : i ≠ owners.length - 1 := by
        rintro rfl
        exact removed (Option.some.inj (at_end.symm.trans ((indexed k _).mp found)))
      constructor
      · intro equal
        obtain rfl := Option.some.inj equal
        rw [if_pos (by omega), if_pos rfl]
        exact at_end
      · intro slot
        split at slot
        · split at slot
          · rename_i same
            rw [same]
          · have := Option.some.inj (((indexed g _).mpr slot).symm.trans end_index)
            omega
        · cases slot
    · rw [Function.update_of_ne moved, indexed g j]
      constructor
      · intro slot
        have bound := (List.getElem?_eq_some_iff.mp slot).1
        have not_last : j ≠ owners.length - 1 := by
          rintro rfl
          exact moved (Option.some.inj (slot.symm.trans at_end))
        have not_hole : j ≠ i := by
          rintro rfl
          exact removed (Option.some.inj (slot.symm.trans ((indexed k _).mp found)))
        rw [if_pos (by omega), if_neg not_hole]
        exact slot
      · intro slot
        split at slot
        · split at slot
          · exact absurd (Option.some.inj (slot.symm.trans at_end)) moved
          · exact slot
        · cases slot

/-! ### The array as a map -/

/-- The slot of the owner `k`, found through its index. -/
def content (xs : List α) (index : κ → Option Nat) (k : κ) : Option α :=
  (index k).bind fun i => xs[i]?

variable {xs : List α} {owner : α → κ} {x : α}

omit [DecidableEq κ] in
theorem Indexed.owner_content (indexed : Indexed (xs.map owner) index)
    (found : content xs index k = some x) : owner x = k := by
  obtain ⟨i, at_i, slot⟩ := Option.bind_eq_some_iff.mp found
  have owned := (indexed k i).mp at_i
  rw [List.getElem?_map, slot] at owned
  exact Option.some.inj owned

omit [DecidableEq κ] in
theorem Indexed.mem_iff_content (indexed : Indexed (xs.map owner) index) :
    x ∈ xs ↔ content xs index (owner x) = some x := by
  constructor
  · intro mem
    obtain ⟨i, slot⟩ := List.mem_iff_getElem?.mp mem
    have at_i : index (owner x) = some i := by
      rw [indexed, List.getElem?_map, slot]
      rfl
    rw [content, at_i]
    exact slot
  · intro found
    obtain ⟨i, -, slot⟩ := Option.bind_eq_some_iff.mp found
    exact List.mem_of_getElem? slot

omit [DecidableEq κ] in
theorem Indexed.content_isSome (indexed : Indexed (xs.map owner) index) (found : index k = some i) :
    ∃ x, content xs index k = some x ∧ xs[i]? = some x := by
  have bound := indexed.lt found
  rw [List.length_map] at bound
  refine ⟨xs[i], ?_, List.getElem?_eq_getElem bound⟩
  rw [content, found]
  exact List.getElem?_eq_getElem bound

theorem content_push (indexed : Indexed (xs.map owner) index) :
    content (xs ++ [x]) (Function.update index k (some xs.length)) =
      Function.update (content xs index) k (some x) := by
  funext g
  by_cases same : g = k
  · subst same
    simp [content]
  · rw [content, Function.update_of_ne same, Function.update_of_ne same, content]
    cases found : index g with
    | none => rfl
    | some i =>
        have bound := indexed.lt found
        rw [List.length_map] at bound
        exact List.getElem?_append_left bound

theorem content_set (indexed : Indexed (xs.map owner) index) (found : index k = some i) :
    content (xs.set i x) index = Function.update (content xs index) k (some x) := by
  have bound := indexed.lt found
  rw [List.length_map] at bound
  funext g
  by_cases same : g = k
  · subst same
    simp [content, found, bound]
  · rw [Function.update_of_ne same, content, content]
    cases other : index g with
    | none => rfl
    | some j =>
        have apart : i ≠ j := by
          rintro rfl
          have first := (indexed k i).mp found
          exact same (Option.some.inj (((indexed g i).mp other).symm.trans first))
        exact List.getElem?_set_ne apart

theorem content_swapRemove {last : α} (indexed : Indexed (xs.map owner) index)
    (found : index k = some i) (at_end : xs.getLast? = some last) :
    content (swapRemove xs i)
        (Function.update (Function.update index (owner last) (some i)) k none) =
      Function.update (content xs index) k none := by
  have bound := indexed.lt found
  rw [List.length_map] at bound
  rw [List.getLast?_eq_getElem?] at at_end
  have end_index : index (owner last) = some (xs.length - 1) := by
    rw [indexed, List.getElem?_map, at_end]
    rfl
  funext g
  by_cases removed : g = k
  · subst removed
    simp [content]
  · rw [Function.update_of_ne removed, content, Function.update_of_ne removed, content]
    have apart : ∀ j, index g = some j → j ≠ i := by
      rintro j other rfl
      have first := (indexed k j).mp found
      exact removed (Option.some.inj (((indexed g j).mp other).symm.trans first))
    by_cases moved : g = owner last
    · subst moved
      have := apart _ end_index
      rw [Function.update_self, end_index, Option.bind_some, Option.bind_some,
        getElem?_swapRemove bound, if_pos (by omega), if_pos rfl]
    · rw [Function.update_of_ne moved]
      cases other : index g with
      | none => rfl
      | some j =>
          have inside := indexed.lt other
          rw [List.length_map] at inside
          have not_last : j ≠ xs.length - 1 := by
            rintro rfl
            have first := (indexed g _).mp other
            exact moved (Option.some.inj (first.symm.trans ((indexed _ _).mp end_index)))
          rw [Option.bind_some, Option.bind_some, getElem?_swapRemove bound, if_pos (by omega),
            if_neg (apart j other)]

end SlotArray
