import Mathlib.Algebra.Order.Ring.Int
import Mathlib.Data.List.Induction
import Mathlib.Order.Basic

/-!
# Rings

An array that keeps the last items of a growing sequence: item number `position`
goes to slot `position % size`, over the item that was written `size` items
earlier. What such an array is for is a bounded list, newest item first.
-/

universe u

namespace Ring

variable {Item : Type u}

/-! ## Bounded lists -/

/-- Puts an item in front; at most `limit` items are kept. -/
def push (limit : ℕ) (kept : List Item) (item : Item) : List Item :=
  (item :: kept).take limit

theorem foldl_push (limit : ℕ) (items : List Item) :
    items.foldl (push limit) [] = items.reverse.take limit := by
  induction items using List.reverseRecOn with
  | nil => exact (List.take_nil).symm
  | append_singleton items item ih =>
      rw [List.foldl_append, List.foldl_cons, List.foldl_nil, ih, push, List.reverse_append,
        List.reverse_singleton, List.singleton_append]
      cases limit with
      | zero => rfl
      | succ limit =>
          rw [List.take_succ_cons, List.take_succ_cons, List.take_take,
            Nat.min_eq_left (Nat.le_succ limit)]

/-! ## Slots -/

variable {size : ℕ} [NeZero size]

/-- The slot of an item by its number. -/
def slot (size : ℕ) [NeZero size] (position : ℕ) : Fin size := Fin.ofNat size position

/-- Each of the last `size` items is in its slot. -/
def Holds (slots : Vector (Option Item) size) (items : List Item) : Prop :=
  ∀ position (_ : position < items.length), items.length ≤ position + size →
    slots.get (slot size position) = some items[position]

/-- Fewer than `size` steps never lead back to a slot. -/
theorem slot_ne {position next : ℕ} (less : position < next) (recent : next < position + size) :
    slot size position ≠ slot size next := by
  intro same
  have congruent : next % size = position % size := (congrArg Fin.val same).symm
  have divides := Nat.dvd_of_mod_eq_zero (Nat.sub_mod_eq_zero_of_mod_eq congruent)
  have size_le := Nat.le_of_dvd (by omega) divides
  omega

theorem Holds.nil (slots : Vector (Option Item) size) : Holds slots [] := by
  intro position less
  cases less

/-- A ring goes on holding the last items when one is pushed. -/
theorem Holds.push {slots : Vector (Option Item) size} {items : List Item}
    (holds : Holds slots items) {counter : ℕ} (counter_eq : counter = items.length) (item : Item) :
    Holds (slots.set (slot size counter) (some item)) (items ++ [item]) := by
  subst counter_eq
  intro position less recent
  rw [List.length_append, List.length_singleton] at less recent
  by_cases new : position = items.length
  · subst new
    rw [List.getElem_concat_length rfl]
    exact Vector.getElem_set_self _
  · have old : position < items.length := by omega
    have differs : slot size items.length ≠ slot size position :=
      (slot_ne old (by omega)).symm
    rw [List.getElem_append_left old, ← holds position old (by omega)]
    exact Vector.getElem_set_ne _ _ (Fin.val_ne_of_ne differs)

/-- The slots found by counting back from the end hold the items in reverse. -/
theorem Holds.get_back {slots : Vector (Option Item) size} {items : List Item}
    (holds : Holds slots items) {offset : ℕ} (positive : 1 ≤ offset)
    (within : offset ≤ items.length) (recent : offset ≤ size) :
    slots.get (slot size (items.length - offset)) = items.reverse[offset - 1]? := by
  have less : items.length - offset < items.length := by omega
  have mirrored : items.length - 1 - (offset - 1) = items.length - offset := by omega
  rw [holds _ less (by omega), List.getElem?_reverse (by omega), mirrored,
    List.getElem?_eq_getElem less]

/-- A loop over consecutive numbers that reads one value of a list after the other. -/
theorem mapM_range' {Value : Type u} {read : ℕ → Option Value} {values : List Value}
    {start : ℕ} (reads : ∀ index, index < values.length → read (start + index) = values[index]?) :
    (List.range' start values.length).mapM read = some values := by
  induction values generalizing start with
  | nil => rfl
  | cons value values ih =>
      have first : read start = some value := reads 0 (Nat.succ_pos _)
      have rest : (List.range' (start + 1) values.length).mapM read = some values := by
        apply ih
        intro index less
        have next := reads (index + 1) (Nat.succ_lt_succ less)
        rwa [← Nat.add_assoc, Nat.add_right_comm] at next
      rw [List.length_cons, List.range'_succ, List.mapM_cons, first, rest]
      rfl

end Ring
