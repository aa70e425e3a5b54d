import Mathlib.Algebra.Order.Ring.Int
import Mathlib.Logic.Equiv.Basic
import Mathlib.Order.WithBot

/-!
# Binary heaps

The heap of `push_heap` and `pop_heap` over an array, least key first. The order
is that of a tree of keys without end, in which every place behind the array has
the largest key; an exchange of two items is then a transposition of the keys.
-/

universe u v

namespace BinaryHeap

/-! ## Trees of keys -/

/-- The parent of a node. -/
def parent (index : ℕ) : ℕ := (index - 1) / 2

theorem parent_le (index : ℕ) : parent index ≤ index := by
  rw [parent]
  omega

theorem parent_lt {index : ℕ} (positive : 0 < index) : parent index < index := by
  rw [parent]
  omega

section Tree

variable {Key : Type v} [LinearOrder Key] {keys : ℕ → Key} {hole child : ℕ}

/-- No key is less than the one above it. -/
def Ordered (keys : ℕ → Key) : Prop :=
  ∀ index, 0 < index → keys (parent index) ≤ keys index

/-- Ordered, except that the key in the hole may be less than the one above it. -/
structure OrderedBelow (keys : ℕ → Key) (hole : ℕ) : Prop where
  others : ∀ index, 0 < index → index ≠ hole → keys (parent index) ≤ keys index
  across : 0 < hole → ∀ index, 0 < index → parent index = hole → keys (parent hole) ≤ keys index

/-- Ordered, but for the key in the hole. -/
structure OrderedAround (keys : ℕ → Key) (hole : ℕ) : Prop where
  others : ∀ index, 0 < index → index ≠ hole → parent index ≠ hole →
    keys (parent index) ≤ keys index
  across : 0 < hole → ∀ index, 0 < index → parent index = hole → keys (parent hole) ≤ keys index

/-- The root is least. -/
theorem Ordered.root_le (ordered : Ordered keys) (index : ℕ) : keys 0 ≤ keys index := by
  induction index using Nat.strong_induction_on with
  | h index ih =>
      rcases Nat.eq_zero_or_pos index with rfl | positive
      · exact le_rfl
      · exact (ih _ (parent_lt positive)).trans (ordered index positive)

theorem OrderedBelow.ordered (below : OrderedBelow keys hole)
    (stops : 0 < hole → keys (parent hole) ≤ keys hole) : Ordered keys := by
  intro index positive
  by_cases here : index = hole
  · subst here
    exact stops positive
  · exact below.others index positive here

/-- The key in the hole changes places with the one above it. -/
theorem OrderedBelow.swap (below : OrderedBelow keys hole) (positive : 0 < hole)
    (less : keys hole < keys (parent hole)) :
    OrderedBelow (keys ∘ Equiv.swap hole (parent hole)) (parent hole) := by
  have above := parent_lt positive
  constructor
  · intro index indexPos ne
    by_cases here : index = hole
    · subst here
      simp only [Function.comp_apply, Equiv.swap_apply_left, Equiv.swap_apply_right]
      exact less.le
    · rw [Function.comp_apply, Function.comp_apply, Equiv.swap_apply_of_ne_of_ne here ne]
      by_cases child : parent index = hole
      · rw [child, Equiv.swap_apply_left]
        exact below.across positive index indexPos child
      · by_cases sibling : parent index = parent hole
        · rw [sibling, Equiv.swap_apply_right]
          have old := below.others index indexPos here
          rw [sibling] at old
          exact less.le.trans old
        · rw [Equiv.swap_apply_of_ne_of_ne child sibling]
          exact below.others index indexPos here
  · intro abovePos index indexPos isChild
    have higher := parent_lt abovePos
    have upper := below.others (parent hole) abovePos above.ne
    rw [Function.comp_apply, Function.comp_apply,
      Equiv.swap_apply_of_ne_of_ne (by omega) higher.ne]
    by_cases here : index = hole
    · subst here
      rw [Equiv.swap_apply_left]
      exact upper
    · have inside := parent_lt indexPos
      rw [Equiv.swap_apply_of_ne_of_ne here (by omega)]
      have old := below.others index indexPos here
      rw [isChild] at old
      exact upper.trans old

/-- The hole changes places with its least child. -/
theorem OrderedAround.swap (around : OrderedAround keys hole) (positive : 0 < child)
    (isChild : parent child = hole)
    (least : ∀ index, 0 < index → parent index = hole → keys child ≤ keys index) :
    OrderedAround (keys ∘ Equiv.swap hole child) child := by
  have below := parent_lt positive
  rw [isChild] at below
  constructor
  · intro index indexPos ne notBelow
    by_cases here : index = hole
    · subst here
      have above := parent_lt indexPos
      rw [Function.comp_apply, Function.comp_apply, Equiv.swap_apply_left,
        Equiv.swap_apply_of_ne_of_ne above.ne notBelow]
      exact around.across indexPos child positive isChild
    · rw [Function.comp_apply, Function.comp_apply, Equiv.swap_apply_of_ne_of_ne here ne]
      by_cases sibling : parent index = hole
      · rw [sibling, Equiv.swap_apply_left]
        exact least index indexPos sibling
      · rw [Equiv.swap_apply_of_ne_of_ne sibling notBelow]
        exact around.others index indexPos here sibling
  · intro _ index indexPos grandchild
    have deeper := parent_lt indexPos
    rw [isChild, Function.comp_apply, Function.comp_apply, Equiv.swap_apply_left,
      Equiv.swap_apply_of_ne_of_ne (by omega) (by omega), ← grandchild]
    exact around.others index indexPos (by omega) (by omega)

/-- The hole has come to a place whose children are not less. -/
theorem OrderedAround.below (around : OrderedAround keys hole)
    (children : ∀ index, 0 < index → parent index = hole → keys hole ≤ keys index) :
    OrderedBelow keys hole := by
  refine ⟨?_, around.across⟩
  intro index positive ne
  by_cases isChild : parent index = hole
  · rw [isChild]
    exact children index positive isChild
  · exact around.others index positive ne isChild

end Tree

/-! ## The keys of an array -/

section Keys

variable {Item : Type u} {Key : Type v} {key : Item → Key} {items : Array Item} {index : ℕ}

/-- The key at a place; behind the array the largest. -/
def keyAt (key : Item → Key) (items : Array Item) (index : ℕ) : WithTop Key :=
  if inside : index < items.size then key items[index] else ⊤

theorem keyAt_of_lt (inside : index < items.size) :
    keyAt key items index = key items[index] :=
  dif_pos inside

theorem keyAt_of_le (outside : items.size ≤ index) : keyAt key items index = ⊤ :=
  dif_neg (not_lt.mpr outside)

theorem keyAt_swap {first second : ℕ} (firstInside : first < items.size)
    (secondInside : second < items.size) :
    keyAt key (items.swap first second) = keyAt key items ∘ Equiv.swap first second := by
  funext index
  rw [Function.comp_apply]
  by_cases isFirst : index = first
  · subst isFirst
    rw [Equiv.swap_apply_left, keyAt_of_lt secondInside,
      keyAt_of_lt (by rwa [Array.size_swap]), Array.getElem_swap_left]
  · by_cases isSecond : index = second
    · subst isSecond
      rw [Equiv.swap_apply_right, keyAt_of_lt firstInside,
        keyAt_of_lt (by rwa [Array.size_swap]), Array.getElem_swap_right]
    · rw [Equiv.swap_apply_of_ne_of_ne isFirst isSecond]
      by_cases inside : index < items.size
      · rw [keyAt_of_lt inside, keyAt_of_lt (by rwa [Array.size_swap]),
          Array.getElem_swap_of_ne isFirst isSecond]
      · rw [keyAt_of_le (not_lt.mp inside), keyAt_of_le]
        rw [Array.size_swap]
        exact not_lt.mp inside

theorem keyAt_push (items : Array Item) (item : Item) (index : ℕ) :
    keyAt key (items.push item) index =
      if index = items.size then ↑(key item) else keyAt key items index := by
  by_cases last : index = items.size
  · subst last
    rw [if_pos rfl, keyAt_of_lt (by rw [Array.size_push]; omega), Array.getElem_push_eq]
  · rw [if_neg last]
    by_cases inside : index < items.size
    · rw [keyAt_of_lt inside, keyAt_of_lt (by rw [Array.size_push]; omega),
        Array.getElem_push_lt inside]
    · rw [keyAt_of_le (not_lt.mp inside), keyAt_of_le (by rw [Array.size_push]; omega)]

theorem keyAt_pop (items : Array Item) (index : ℕ) :
    keyAt key items.pop index =
      if index < items.size - 1 then keyAt key items index else ⊤ := by
  by_cases inside : index < items.size - 1
  · rw [if_pos inside, keyAt_of_lt (by rwa [Array.size_pop]), Array.getElem_pop,
      keyAt_of_lt (by omega)]
  · rw [if_neg inside, keyAt_of_le (by rw [Array.size_pop]; omega)]

end Keys

/-! ## Arrays of items -/

section Arrays

variable {Item : Type u} {Key : Type v} [LinearOrder Key] (key : Item → Key)
  {items : Array Item} {item : Item} {index : ℕ}

/-- Moves an item up as long as it is less than the one above it. -/
def siftUp (items : Array Item) (index : ℕ) (inside : index < items.size) : Array Item :=
  have above : parent index < items.size := (parent_le index).trans_lt inside
  if moves : 0 < index ∧ key items[index] < key items[parent index] then
    siftUp (items.swap index (parent index)) (parent index) (by simpa using above)
  else items
termination_by index
decreasing_by exact parent_lt moves.1

/-- Moves an item down to the last level, always below the lesser child, then up. -/
def siftDown (items : Array Item) (hole : ℕ) (inside : hole < items.size) : Array Item :=
  if both : 2 * hole + 2 < items.size then
    if key items[2 * hole + 1] < key items[2 * hole + 2] then
      siftDown (items.swap hole (2 * hole + 1)) (2 * hole + 1)
        (by rw [Array.size_swap]; omega)
    else
      siftDown (items.swap hole (2 * hole + 2)) (2 * hole + 2)
        (by rw [Array.size_swap]; omega)
  else if only : 2 * hole + 2 = items.size then
    siftUp key (items.swap hole (2 * hole + 1)) (2 * hole + 1) (by rw [Array.size_swap]; omega)
  else siftUp key items hole inside
termination_by items.size - hole
decreasing_by
  · rw [Array.size_swap]
    omega
  · rw [Array.size_swap]
    omega

/-- `push_back` and `push_heap`. -/
def push (items : Array Item) (item : Item) : Array Item :=
  siftUp key (items.push item) items.size (by rw [Array.size_push]; omega)

/-- `pop_heap` and `pop_back`. -/
def pop (items : Array Item) : Array Item :=
  if many : 1 < items.size then
    siftDown key (items.swap 0 (items.size - 1)).pop 0
      (by rw [Array.size_pop, Array.size_swap]; omega)
  else items.pop

/-! ### The items -/

/-- Sifting up loses no item. -/
theorem siftUp_perm (inside : index < items.size) :
    (siftUp key items index inside).toList.Perm items.toList := by
  induction items, index, inside using siftUp.induct key with
  | case1 items index inside above moves ih =>
      rw [siftUp, dif_pos moves]
      exact ih.trans (Array.swap_perm inside above).toList
  | case2 items index inside above stays =>
      rw [siftUp, dif_neg stays]

/-- Sifting down loses no item. -/
theorem siftDown_perm {hole : ℕ} (inside : hole < items.size) :
    (siftDown key items hole inside).toList.Perm items.toList := by
  induction items, hole, inside using siftDown.induct key with
  | case1 items hole inside both left ih =>
      rw [siftDown, dif_pos both, if_pos left]
      exact ih.trans (Array.swap_perm ..).toList
  | case2 items hole inside both right ih =>
      rw [siftDown, dif_pos both, if_neg right]
      exact ih.trans (Array.swap_perm ..).toList
  | case3 items hole inside notBoth only =>
      rw [siftDown, dif_neg notBoth, dif_pos only]
      exact (siftUp_perm key _).trans (Array.swap_perm ..).toList
  | case4 items hole inside notBoth none =>
      rw [siftDown, dif_neg notBoth, dif_neg none]
      exact siftUp_perm key inside

theorem push_perm (items : Array Item) (item : Item) :
    (push key items item).toList.Perm (item :: items.toList) := by
  refine (siftUp_perm key _).trans ?_
  rw [Array.toList_push]
  exact List.perm_append_singleton ..

theorem perm_pop {items : Array Item} (some : 0 < items.size) :
    items.toList.Perm (items[items.size - 1] :: items.pop.toList) := by
  have nonempty : items.toList ≠ [] := List.ne_nil_of_length_pos some
  have last_eq : items[items.size - 1] = items.toList.getLast nonempty := by
    rw [List.getLast_eq_getElem]
    rfl
  have split := List.perm_append_singleton (items.toList.getLast nonempty) items.toList.dropLast
  rwa [List.dropLast_concat_getLast, ← last_eq, ← Array.toList_pop] at split

theorem pop_perm (some : 0 < items.size) :
    items.toList.Perm (items[0] :: (pop key items).toList) := by
  rw [pop]
  split
  · rename_i many
    have last : items.size - 1 < items.size := by omega
    have swapped : 0 < (items.swap 0 (items.size - 1)).size := by rwa [Array.size_swap]
    have split := perm_pop swapped
    simp only [Array.size_swap, Array.getElem_swap_right] at split
    exact (Array.swap_perm some last).toList.symm.trans
      (split.trans ((siftDown_perm key _).symm.cons _))
  · rename_i one
    have size_eq : items.size - 1 = 0 := by omega
    have split := perm_pop some
    simp only [size_eq] at split
    exact split

theorem size_push (items : Array Item) (item : Item) :
    (push key items item).size = items.size + 1 :=
  (push_perm key items item).length_eq

theorem size_pop (items : Array Item) : (pop key items).size = items.size - 1 := by
  rcases Nat.eq_zero_or_pos items.size with none | some
  · rw [pop, dif_neg (by omega), Array.size_pop]
  · have split : items.size = (pop key items).size + 1 := (pop_perm key some).length_eq
    omega

/-! ### The order -/

variable {key}

/-- Sifting up mends an order that is broken above one place. -/
theorem siftUp_ordered (inside : index < items.size)
    (below : OrderedBelow (keyAt key items) index) :
    Ordered (keyAt key (siftUp key items index inside)) := by
  induction items, index, inside using siftUp.induct key with
  | case1 items index inside above moves ih =>
      rw [siftUp, dif_pos moves]
      apply ih
      rw [keyAt_swap inside above]
      apply below.swap moves.1
      rw [keyAt_of_lt inside, keyAt_of_lt above]
      exact WithTop.coe_lt_coe.mpr moves.2
  | case2 items index inside above stays =>
      rw [siftUp, dif_neg stays]
      apply below.ordered
      intro positive
      rw [keyAt_of_lt inside, keyAt_of_lt above]
      exact WithTop.coe_le_coe.mpr (not_lt.mp fun less => stays ⟨positive, less⟩)

/-- The children of a place. -/
theorem eq_of_parent_eq {hole : ℕ} (positive : 0 < index) (isChild : parent index = hole) :
    index = 2 * hole + 1 ∨ index = 2 * hole + 2 := by
  rw [parent] at isChild
  omega

theorem parent_left (hole : ℕ) : parent (2 * hole + 1) = hole := by
  rw [parent]
  omega

theorem parent_right (hole : ℕ) : parent (2 * hole + 2) = hole := by
  rw [parent]
  omega

/-- Sifting down mends an order that is broken below one place. -/
theorem siftDown_ordered {hole : ℕ} (inside : hole < items.size)
    (around : OrderedAround (keyAt key items) hole) :
    Ordered (keyAt key (siftDown key items hole inside)) := by
  induction items, hole, inside using siftDown.induct key with
  | case1 items hole inside both left ih =>
      rw [siftDown, dif_pos both, if_pos left]
      apply ih
      rw [keyAt_swap]
      apply around.swap (Nat.succ_pos _) (parent_left hole)
      intro index positive isChild
      rcases eq_of_parent_eq positive isChild with rfl | rfl
      · exact le_rfl
      · rw [keyAt_of_lt (by omega), keyAt_of_lt both]
        exact WithTop.coe_le_coe.mpr left.le
  | case2 items hole inside both right ih =>
      rw [siftDown, dif_pos both, if_neg right]
      apply ih
      rw [keyAt_swap]
      apply around.swap (Nat.succ_pos _) (parent_right hole)
      intro index positive isChild
      rcases eq_of_parent_eq positive isChild with rfl | rfl
      · rw [keyAt_of_lt both, keyAt_of_lt (by omega)]
        exact WithTop.coe_le_coe.mpr (not_lt.mp right)
      · exact le_rfl
  | case3 items hole inside notBoth only =>
      rw [siftDown, dif_neg notBoth, dif_pos only]
      apply siftUp_ordered
      rw [keyAt_swap]
      have moved := around.swap (Nat.succ_pos _) (parent_left hole) (by
        intro index positive isChild
        rcases eq_of_parent_eq positive isChild with rfl | rfl
        · exact le_rfl
        · rw [keyAt_of_le only.ge]
          exact le_top)
      apply moved.below
      intro index positive isChild
      rw [← keyAt_swap inside (by omega), @keyAt_of_le _ _ _ _ index]
      · exact le_top
      · rw [Array.size_swap]
        rcases eq_of_parent_eq positive isChild with rfl | rfl <;> omega
  | case4 items hole inside notBoth none =>
      rw [siftDown, dif_neg notBoth, dif_neg none]
      apply siftUp_ordered
      apply around.below
      intro index positive isChild
      rw [@keyAt_of_le _ _ _ _ index]
      · exact le_top
      · rcases eq_of_parent_eq positive isChild with rfl | rfl <;> omega

/-- Pushing keeps the heap ordered. -/
theorem push_ordered (ordered : Ordered (keyAt key items)) (item : Item) :
    Ordered (keyAt key (push key items item)) := by
  apply siftUp_ordered
  constructor
  · intro index positive ne
    rw [keyAt_push, keyAt_push, if_neg ne]
    split
    · rename_i isLast
      have deeper := parent_lt positive
      rw [@keyAt_of_le _ _ _ _ index (by omega)]
      exact le_top
    · exact ordered index positive
  · intro _ index positive isChild
    have deeper := parent_lt positive
    rw [@keyAt_of_le _ _ _ _ index]
    · exact le_top
    · rw [Array.size_push]
      omega

/-- Popping keeps the heap ordered. -/
theorem pop_ordered (ordered : Ordered (keyAt key items)) :
    Ordered (keyAt key (pop key items)) := by
  rw [pop]
  split
  · rename_i many
    apply siftDown_ordered
    constructor
    · intro index positive _ notChild
      have deeper := parent_lt positive
      rw [keyAt_pop, keyAt_pop, Array.size_swap]
      by_cases inside : index < items.size - 1
      · rw [if_pos inside, if_pos (by omega), keyAt_swap, Function.comp_apply,
          Function.comp_apply, Equiv.swap_apply_of_ne_of_ne (by omega) (by omega),
          Equiv.swap_apply_of_ne_of_ne (by omega) (by omega)]
        exact ordered index positive
      · rw [if_neg inside]
        exact le_top
    · intro impossible
      cases impossible
  · intro index positive
    rw [@keyAt_of_le _ _ _ _ index (by rw [Array.size_pop]; omega)]
    exact le_top

/-- The first item is least. -/
theorem root_le (ordered : Ordered (keyAt key items)) (some : 0 < items.size) :
    ∀ item ∈ items.toList, key items[0] ≤ key item := by
  intro item itemMem
  rcases List.getElem_of_mem itemMem with ⟨index, inside, rfl⟩
  have least := ordered.root_le index
  rw [keyAt_of_lt some, keyAt_of_lt inside] at least
  exact WithTop.coe_le_coe.mp least

/-- An item that is not less stays below the first one. -/
theorem siftUp_root (inside : index < items.size) (positive : 0 < index) (some : 0 < items.size)
    (stays : key items[0] ≤ key items[index]) :
    (siftUp key items index inside)[0]? = items[0]? := by
  induction items, index, inside using siftUp.induct key with
  | case1 items index inside above moves ih =>
      have abovePos : 0 < parent index := by
        by_contra isRoot
        have root : parent index = 0 := Nat.eq_zero_of_not_pos isRoot
        have less := moves.2
        simp only [root] at less
        exact absurd stays (not_le.mpr less)
      have stillSome : 0 < (items.swap index (parent index)).size := by rwa [Array.size_swap]
      have still : (items.swap index (parent index))[0] = items[0] :=
        Array.getElem_swap_of_ne positive.ne abovePos.ne
      rw [siftUp, dif_pos moves, ih abovePos stillSome, Array.getElem?_eq_getElem stillSome, still,
        Array.getElem?_eq_getElem some]
      rwa [still, Array.getElem_swap_right]
  | case2 items index inside above notLess =>
      rw [siftUp, dif_neg notLess]

/-- A pushed item that is not less leaves the first one where it is. -/
theorem push_root (some : 0 < items.size) (stays : key items[0] ≤ key item) :
    (push key items item)[0]? = items[0]? := by
  have stillSome : 0 < (items.push item).size := by
    rw [Array.size_push]
    exact Nat.succ_pos _
  have still : (items.push item)[0] = items[0] := Array.getElem_push_lt some
  have inside : items.size < (items.push item).size := by
    rw [Array.size_push]
    exact Nat.lt_succ_self _
  rw [push, siftUp_root inside some stillSome, Array.getElem?_eq_getElem stillSome, still,
    Array.getElem?_eq_getElem some]
  rwa [still, Array.getElem_push_eq]

end Arrays

end BinaryHeap
