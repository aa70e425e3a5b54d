import Mathlib.Algebra.BigOperators.Group.Finset.Basic
import Mathlib.Data.Fintype.Basic
import Mathlib.Data.List.Perm.Basic

/-!
# Counting by kind

How many items of a list are of one kind, and how the count follows the list
when items are added, moved and taken out.
-/

universe u v

variable {Item : Type u} {Kind : Type v} [DecidableEq Kind]

/-- How many of the items are of this kind. -/
def tally (kind : Item → Kind) (items : List Item) (which : Kind) : ℕ :=
  (items.map kind).count which

namespace Tally

variable {kind : Item → Kind} {items others : List Item}

@[simp]
theorem tally_nil (which : Kind) : tally kind [] which = 0 := rfl

@[simp]
theorem tally_cons (item : Item) (which : Kind) :
    tally kind (item :: items) which =
      tally kind items which + if kind item = which then 1 else 0 := by
  simp [tally, List.count_cons]

@[simp]
theorem tally_append (which : Kind) :
    tally kind (items ++ others) which = tally kind items which + tally kind others which := by
  simp [tally]

theorem tally_perm (perm : items.Perm others) (which : Kind) :
    tally kind items which = tally kind others which :=
  (perm.map kind).count_eq which

/-- Taking out an item that is there. -/
theorem tally_erase [DecidableEq Item] {item : Item} (itemMem : item ∈ items) (which : Kind) :
    tally kind (items.erase item) which + (if kind item = which then 1 else 0) =
      tally kind items which := by
  rw [tally_perm (List.perm_cons_erase itemMem) which, tally_cons]

theorem tally_pos {item : Item} (itemMem : item ∈ items) : 0 < tally kind items (kind item) :=
  List.count_pos_iff.mpr (List.mem_map_of_mem itemMem)

theorem tally_le_length (which : Kind) : tally kind items which ≤ items.length := by
  rw [tally, ← List.length_map kind]
  exact List.countP_le_length

theorem exists_of_tally_pos {which : Kind} (positive : 0 < tally kind items which) :
    ∃ item ∈ items, kind item = which :=
  List.mem_map.mp (List.count_pos_iff.mp positive)

/-- An item that is the only one of its kind. -/
theorem ne_of_mem_erase [DecidableEq Item] {item other : Item} (itemMem : item ∈ items)
    (single : tally kind items (kind item) ≤ 1) (otherMem : other ∈ items.erase item) :
    kind other ≠ kind item := by
  intro same
  have erased : tally kind (items.erase item) (kind item) +
      (if kind item = kind item then 1 else 0) = tally kind items (kind item) :=
    tally_erase itemMem (kind item)
  have positive : 0 < tally kind (items.erase item) (kind other) := tally_pos otherMem
  rw [same] at positive
  rw [if_pos rfl] at erased
  omega

/-- The total over a family when one of its members changes. -/
theorem sum_update {Index : Type} {Value : Type v} [Fintype Index] [DecidableEq Index]
    (weigh : Value → ℕ) (family : Index → Value) (index : Index) (value : Value) :
    ∑ other, weigh (Function.update family index value other) + weigh (family index) =
      ∑ other, weigh (family other) + weigh value := by
  have rest : ∑ other ∈ Finset.univ.erase index,
      weigh (Function.update family index value other) =
      ∑ other ∈ Finset.univ.erase index, weigh (family other) := by
    apply Finset.sum_congr rfl
    intro other otherMem
    rw [Function.update_of_ne (Finset.ne_of_mem_erase otherMem)]
  have after := Finset.add_sum_erase Finset.univ
    (fun other => weigh (Function.update family index value other)) (Finset.mem_univ index)
  have before := Finset.add_sum_erase Finset.univ (fun other => weigh (family other))
    (Finset.mem_univ index)
  simp only [Function.update_self] at after
  omega

end Tally
