import Mathlib.Algebra.Group.Nat.Defs
import Mathlib.Tactic.Common

/-!
Blocks of memory and the 64-bit sizes that index them.

A block is the list of its cells. Reading or writing outside of it is undefined
behaviour, which the operations here report as `none`. Sizes are natural numbers
below `SizeT.range`, and the arithmetic on them wraps around.

* **`SizeT.add_eq`, `SizeT.sub_eq`.** Where nothing wraps, size arithmetic is the
  arithmetic of the natural numbers.
* **`copyForward_eq`.** A cell-by-cell copy towards lower indices is the copy of
  the cells as they were before, also when the two ranges overlap.
-/

namespace SizeT

/-- One more than the largest `size_t`. -/
def range : Nat := 2 ^ 64

/-- `a + b` on `size_t` -/
def add (a b : Nat) : Nat := (a + b) % range

/-- `a - b` on `size_t` -/
def sub (a b : Nat) : Nat := (a + (range - b)) % range

/-- `static_cast<size_t>` of a signed integer -/
def ofInt (i : Int) : Nat := (i % range).toNat

theorem add_eq {a b : Nat} (fits : a + b < range) : add a b = a + b :=
  Nat.mod_eq_of_lt fits

theorem sub_eq {a b : Nat} (le : b ≤ a) (fits : a < range) : sub a b = a - b := by
  have shift : a + (range - b) = a - b + range := by omega
  rw [sub, shift, Nat.add_mod_right]
  exact Nat.mod_eq_of_lt (by omega)

theorem ofInt_of_nonneg {i : Int} (nonneg : 0 ≤ i) (small : i < 2147483648) :
    ofInt i = i.toNat := by
  have range_eq : (range : Int) = 18446744073709551616 := rfl
  rw [ofInt, range_eq]
  omega

end SizeT

namespace Block

variable {α : Type*}

/-- The `len` cells from index `i` on. -/
def load (mem : List α) (i len : Nat) : Option (List α) :=
  if i + len ≤ mem.length then some ((mem.drop i).take len) else none

/-- Write `cells` from index `i` on. -/
def store (mem : List α) (i : Nat) (cells : List α) : Option (List α) :=
  if i + cells.length ≤ mem.length then
    some (mem.take i ++ cells ++ mem.drop (i + cells.length))
  else none

/-- Copy `len` cells from `src` to `dst`, one after the other from the lowest index
on: what `std::copy` does within one block. -/
def copyForward (mem : List α) (src dst : Nat) : Nat → Option (List α)
  | 0 => some mem
  | len + 1 => do
      let mem ← copyForward mem src dst len
      let cell ← mem[src + len]?
      if dst + len < mem.length then some (mem.set (dst + len) cell) else none

/-- Turn the cells from `first` to before `last` around: what `std::reverse` does. -/
def reverse (mem : List α) (first last : Nat) : List α :=
  mem.take first ++ ((mem.drop first).take (last - first)).reverse ++ mem.drop last

/-- Grow the block to `size` cells with `fill`, or cut it to that size. -/
def resize (mem : List α) (size : Nat) (fill : α) : List α :=
  mem.take size ++ List.replicate (size - mem.length) fill

theorem load_eq {mem : List α} {i len : Nat} (inside : i + len ≤ mem.length) :
    load mem i len = some ((mem.drop i).take len) :=
  if_pos inside

theorem store_eq (mem cells : List α) {i : Nat} (inside : i + cells.length ≤ mem.length) :
    store mem i cells = some (mem.take i ++ cells ++ mem.drop (i + cells.length)) :=
  if_pos inside

/-- What is loaded are the cells at these positions. -/
theorem map_some_load {mem cells : List α} {i len : Nat} (load : load mem i len = some cells) :
    cells.map some = (List.range' i len).map (mem[·]?) := by
  obtain ⟨inside, ⟨⟩⟩ := Option.ite_none_right_eq_some.mp load
  refine List.ext_getElem? fun k => ?_
  grind

theorem length_store {mem mem' cells : List α} {i : Nat} (stored : store mem i cells = some mem') :
    mem'.length = mem.length := by
  obtain ⟨inside, ⟨⟩⟩ := Option.ite_none_right_eq_some.mp stored
  simp only [List.length_append, List.length_take, List.length_drop]
  omega

/-- Writing behind `before`. -/
theorem store_append (before after cells : List α) (room : cells.length ≤ after.length) :
    store (before ++ after) before.length cells =
      some (before ++ cells ++ after.drop cells.length) := by
  have inside : before.length + cells.length ≤ (before ++ after).length := by
    rw [List.length_append]
    exact Nat.add_le_add_left room _
  rw [store_eq _ _ inside, List.take_left, List.drop_length_add_append]

theorem reverse_append (before cells after : List α) :
    reverse (before ++ cells ++ after) before.length (before.length + cells.length) =
      before ++ cells.reverse ++ after := by
  rw [reverse, List.append_assoc before cells after, Nat.add_sub_cancel_left, List.take_left,
    List.drop_left, List.take_left, List.drop_length_add_append, List.drop_left]

@[simp] theorem length_resize (mem : List α) (size : Nat) (fill : α) :
    (resize mem size fill).length = size := by
  simp only [resize, List.length_append, List.length_take, List.length_replicate]
  omega

/-- Growing keeps every cell. -/
theorem resize_eq_append {mem : List α} {size : Nat} (grow : mem.length ≤ size) (fill : α) :
    resize mem size fill = mem ++ List.replicate (size - mem.length) fill := by
  rw [resize, List.take_of_length_le grow]

/-- Writing the first cell behind `done`. -/
theorem set_behind {done rest : List α} {i : Nat} (behind : done.length = i) (old new : α) :
    (done ++ old :: rest).set i new = done ++ new :: rest := by
  rw [List.set_append_right _ _ (Nat.le_of_eq behind), behind, Nat.sub_self, List.set_cons_zero]

/-- **Overlapping copy.** Towards lower indices no cell is overwritten before it has
been copied. -/
theorem copyForward_eq (mem : List α) {src dst : Nat} (len : Nat) (lower : dst ≤ src)
    (inside : src + len ≤ mem.length) :
    copyForward mem src dst len =
      some (mem.take dst ++ (mem.drop src).take len ++ mem.drop (dst + len)) := by
  induction len with
  | zero => simp [copyForward]
  | succ len ih =>
      have bound : src + len < mem.length := by omega
      -- the cell at `src + len` lies behind everything that has been written so far
      have unread : (mem.take dst ++ (mem.drop src).take len ++ mem.drop (dst + len))[src + len]? =
          some mem[src + len] := by
        rw [List.getElem?_append_right (by simp; omega), List.getElem?_drop,
          List.getElem?_eq_getElem (by simp; omega)]
        congr 2
        simp
        omega
      have next : mem.drop (dst + len) = mem[dst + len] :: mem.drop (dst + (len + 1)) :=
        List.drop_eq_getElem_cons (by omega)
      have copied :
          (mem.drop src).take (len + 1) = (mem.drop src).take len ++ [mem[src + len]] := by
        rw [List.take_add_one, List.getElem?_drop, List.getElem?_eq_getElem bound]
        rfl
      simp only [copyForward, ih (by omega), Option.bind_eq_bind, Option.bind_some, unread]
      rw [if_pos (by simp; omega), next, set_behind (by simp; omega), copied]
      simp only [List.append_assoc, List.singleton_append]

end Block
