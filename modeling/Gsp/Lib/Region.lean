import Mathlib.Algebra.Order.Ring.Int
import Mathlib.Data.List.Basic
import Mathlib.Data.List.Range

/-!
# Regions of a memory block

A block of memory is a function from offsets to cells. A region is read as a
list; storing a list and moving a region are the block operations of `memcpy`
and `memmove`.
-/

universe u

namespace Region

variable {Cell : Type u}

/-- The `size` cells from offset `start`. -/
def read (memory : ℕ → Cell) (start size : ℕ) : List Cell :=
  (List.range size).map fun index => memory (start + index)

/-- The block after `cells` have been stored from offset `start`. -/
def write (memory : ℕ → Cell) (start : ℕ) (cells : List Cell) : ℕ → Cell := fun offset =>
  if inside : start ≤ offset ∧ offset - start < cells.length then
    cells.get ⟨offset - start, inside.2⟩
  else memory offset

/-- `memmove`: the source is read before the destination is stored. -/
def move (memory : ℕ → Cell) (destination source size : ℕ) : ℕ → Cell :=
  write memory destination (read memory source size)

/-- `memset` of the first `size` cells. -/
def fill (memory : ℕ → Cell) (cell : Cell) (size : ℕ) : ℕ → Cell := fun offset =>
  if offset < size then cell else memory offset

@[simp]
theorem length_read (memory : ℕ → Cell) (start size : ℕ) :
    (read memory start size).length = size := by
  simp [read]

@[simp]
theorem read_zero (memory : ℕ → Cell) (start : ℕ) : read memory start 0 = [] := rfl

/-- Neighbouring regions are read together. -/
theorem read_add (memory : ℕ → Cell) (start front back : ℕ) :
    read memory start (front + back) =
      read memory start front ++ read memory (start + front) back := by
  simp [read, List.range_add, Nat.add_assoc]

theorem drop_read (memory : ℕ → Cell) (start size count : ℕ) (count_le : count ≤ size) :
    (read memory start size).drop count = read memory (start + count) (size - count) := by
  have split := read_add memory start count (size - count)
  rw [Nat.add_sub_cancel' count_le] at split
  rw [split, List.drop_left' (length_read ..)]

theorem take_read (memory : ℕ → Cell) (start size count : ℕ) (count_le : count ≤ size) :
    (read memory start size).take count = read memory start count := by
  have split := read_add memory start count (size - count)
  rw [Nat.add_sub_cancel' count_le] at split
  rw [split, List.take_left' (length_read ..)]

/-- A region depends on its own cells only. -/
theorem read_congr {memory other : ℕ → Cell} {start size : ℕ}
    (agree : ∀ index, index < size → memory (start + index) = other (start + index)) :
    read memory start size = read other start size := by
  apply List.map_congr_left
  intro index indexMem
  exact agree index (List.mem_range.mp indexMem)

@[simp]
theorem write_nil (memory : ℕ → Cell) (start : ℕ) : write memory start [] = memory := by
  funext offset
  simp [write]

/-- What was written is read again. -/
@[simp]
theorem read_write_self (memory : ℕ → Cell) (start : ℕ) (cells : List Cell) :
    read (write memory start cells) start cells.length = cells := by
  apply List.ext_getElem
  · simp
  · intro index _ inside
    simp [read, write, inside]

/-- Storing outside a region leaves the region as it was. -/
theorem read_write_of_disjoint (memory : ℕ → Cell) {start size destination : ℕ}
    {cells : List Cell}
    (disjoint : start + size ≤ destination ∨ destination + cells.length ≤ start) :
    read (write memory destination cells) start size = read memory start size := by
  apply read_congr
  intro index indexLt
  rw [write, dif_neg]
  omega

/-- Moved cells are read as they were, overlapping or not. -/
@[simp]
theorem read_move_self (memory : ℕ → Cell) (destination source size : ℕ) :
    read (move memory destination source size) destination size = read memory source size := by
  have stored := read_write_self memory destination (read memory source size)
  rwa [length_read] at stored

end Region
